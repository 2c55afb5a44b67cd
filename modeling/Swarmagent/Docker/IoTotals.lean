import Swarmagent.Docker.Stats
import Mathlib.Data.List.Perm.Basic

/-!
# I/O totals of a container

Docker counts network traffic by interface and block I/O by device and operation.  The agent adds
the counters up, in the order in which a map or a list has them, and stops at the largest number a
counter can have.

That is the exact sum cut off at that number, and does not depend on the order: `io_totals`.
-/

namespace Swarmagent.Docker

open Swarmagent.Rust

/-- The entries of an operation, in any case. -/
def entriesOf (op : String) (entries : List BlkioStatsEntry) : List BlkioStatsEntry :=
  entries.filter fun entry ↦ eqIgnoreAsciiCase entry.op op

theorem entriesOf_perm (op : String) {entries entries' : List BlkioStatsEntry}
    (h : entries.Perm entries') : (entriesOf op entries).Perm (entriesOf op entries') :=
  h.filter _

section Totals

variable (stats : Stats)

theorem networkIo_eq : networkIo stats =
    ((stats.networks.getD []).foldl (fun rx iface ↦ saturatingAdd rx iface.rxBytes) 0,
      (stats.networks.getD []).foldl (fun tx iface ↦ saturatingAdd tx iface.txBytes) 0) :=
  foldl_pair (fun rx (iface : NetworkStats) ↦ saturatingAdd rx iface.rxBytes)
    (fun tx iface ↦ saturatingAdd tx iface.txBytes) _ 0 0

theorem blockIo_eq : blockIo stats =
    ((entriesOf "read" (stats.ioServiceBytesRecursive.getD [])).foldl
        (fun read entry ↦ saturatingAdd read entry.value) 0,
      (entriesOf "write" (stats.ioServiceBytesRecursive.getD [])).foldl
        (fun write entry ↦ saturatingAdd write entry.value) 0) := by
  rw [entriesOf, entriesOf, List.foldl_filter, List.foldl_filter, ← foldl_pair, blockIo]
  congr 1
  funext ⟨read, write⟩ entry
  have hwrite : toAsciiLowercase "write" = "write".toList := by decide
  have hread : toAsciiLowercase "read" = "read".toList := by decide
  simp only [eqIgnoreAsciiCase, hread, hwrite, decide_eq_true_eq]
  by_cases hop : toAsciiLowercase entry.op = "read".toList
  · -- an operation that is `read` is not `write`
    rw [if_pos hop, if_pos hop, if_neg (by rw [hop]; decide)]
  · rw [if_neg hop, if_neg hop]
    split <;> rfl

/-- The totals of the network are capped sums over the interfaces. -/
theorem toNat_networkIo :
    (networkIo stats).1.toNat =
        cappedSum (fun iface ↦ iface.rxBytes) (stats.networks.getD []) ∧
      (networkIo stats).2.toNat =
        cappedSum (fun iface ↦ iface.txBytes) (stats.networks.getD []) := by
  rw [networkIo_eq]
  exact ⟨toNat_foldl_saturatingAdd _ _, toNat_foldl_saturatingAdd _ _⟩

/-- The totals of block I/O are capped sums over the entries of an operation. -/
theorem toNat_blockIo :
    (blockIo stats).1.toNat = cappedSum (fun entry ↦ entry.value)
        (entriesOf "read" (stats.ioServiceBytesRecursive.getD [])) ∧
      (blockIo stats).2.toNat = cappedSum (fun entry ↦ entry.value)
        (entriesOf "write" (stats.ioServiceBytesRecursive.getD [])) := by
  rw [blockIo_eq]
  exact ⟨toNat_foldl_saturatingAdd _ _, toNat_foldl_saturatingAdd _ _⟩

/-- Counters are the same if they are as numbers. -/
theorem counters_ext {p q : UInt64 × UInt64} (h : p.1.toNat = q.1.toNat)
    (h' : p.2.toNat = q.2.toNat) : p = q :=
  Prod.ext (UInt64.toNat_inj.mp h) (UInt64.toNat_inj.mp h')

/-- **I/O totals.**  Each total is the exact sum over all interfaces, or over all entries with its
operation, cut off at the largest number; and neither depends on the order of these. -/
theorem io_totals :
    ((networkIo stats).1.toNat =
          cappedSum (fun iface ↦ iface.rxBytes) (stats.networks.getD []) ∧
        (networkIo stats).2.toNat =
          cappedSum (fun iface ↦ iface.txBytes) (stats.networks.getD [])) ∧
      ((blockIo stats).1.toNat = cappedSum (fun entry ↦ entry.value)
          (entriesOf "read" (stats.ioServiceBytesRecursive.getD [])) ∧
        (blockIo stats).2.toNat = cappedSum (fun entry ↦ entry.value)
          (entriesOf "write" (stats.ioServiceBytesRecursive.getD []))) ∧
      (∀ networks, networks.Perm (stats.networks.getD []) →
        networkIo { stats with networks := some networks } = networkIo stats) ∧
      ∀ entries, entries.Perm (stats.ioServiceBytesRecursive.getD []) →
        blockIo { stats with ioServiceBytesRecursive := some entries } = blockIo stats := by
  refine ⟨toNat_networkIo stats, toNat_blockIo stats, fun networks h ↦ ?_, fun entries h ↦ ?_⟩
  · obtain ⟨hrx, htx⟩ := toNat_networkIo { stats with networks := some networks }
    rw [Option.getD_some, cappedSum_perm _ h, ← (toNat_networkIo stats).1] at hrx
    rw [Option.getD_some, cappedSum_perm _ h, ← (toNat_networkIo stats).2] at htx
    exact counters_ext hrx htx
  · obtain ⟨hread, hwrite⟩ := toNat_blockIo { stats with ioServiceBytesRecursive := some entries }
    rw [Option.getD_some, cappedSum_perm _ (entriesOf_perm _ h),
      ← (toNat_blockIo stats).1] at hread
    rw [Option.getD_some, cappedSum_perm _ (entriesOf_perm _ h),
      ← (toNat_blockIo stats).2] at hwrite
    exact counters_ext hread hwrite

end Totals

end Swarmagent.Docker
