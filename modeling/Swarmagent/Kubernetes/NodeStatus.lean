import Swarmagent.Kubernetes.Summary
import Swarmagent.Rust.Float
import Mathlib.Tactic.Linarith
import Mathlib.Tactic.NormNum
import Mathlib.Tactic.Positivity

/-!
# The status of the node

The model of `node_status_parts` in `summary.rs`, which makes the host-level figures from the node
section of the summary and the capacity of the Node object.

Free and used memory are to add up to the total, and so are the figures of the disk as far as one
of them has to be derived.  They do unless the two sources contradict each other, or free disk space
has to be derived, which the code leaves at 0: `nodeStatus_consistent_iff`.
-/

namespace Swarmagent.Kubernetes

open Swarmagent.Rust

section Parts

variable {F : Type} [Arith F]

def cpuStatus (node : NodeSummary) (capacityCores : F) : CpuStatus F :=
  let usageNano := (node.cpu.bind fun c ↦ c.usageNanoCores).getD 0
  { usedPercentage := pct usageNano.toNat (capacityCores * Arith.ofRat (10 ^ 9))
    cores := max 1 (Arith.roundI32 capacityCores) }

def memoryStatus (node : NodeSummary) (capacityMemBytes : UInt64) : MemoryStatus F :=
  let total := capacityMemBytes
  let available := node.memory.bind fun m ↦ m.availableBytes
  let workingSet := node.memory.bind fun m ↦ m.workingSetBytes
  let free := available.getD (saturatingSub total (workingSet.getD 0))
  let used := saturatingSub total free
  { total, used, usedPercentage := pct used.toNat total.toNat, free }

/-- Total, used and free space. -/
def FsSample.space (f : FsSample) : UInt64 × UInt64 × UInt64 :=
  let total := f.capacityBytes.getD 0
  let free := f.availableBytes.getD 0
  let used := f.usedBytes.getD (saturatingSub total free)
  (total, used, free)

def diskStatus (fs : Option FsSample) : DiskStatus F :=
  let (total, used, free) := (fs.map FsSample.space).getD (0, 0, 0)
  { total, used, usedPercentage := pct used.toNat total.toNat, free }

/-- `node_status_parts`. -/
def nodeStatusParts (node : NodeSummary) (capacityCores : F) (capacityMemBytes : UInt64) :
    CpuStatus F × MemoryStatus F × DiskStatus F :=
  (cpuStatus node capacityCores, memoryStatus node capacityMemBytes, diskStatus node.fs)

/-! ## Consistency -/

/-- A percentage. -/
def IsPercentage (x : F) : Prop := 0 ≤ x ∧ x ≤ 100

end Parts

structure MemoryConsistent (memory : MemoryStatus ℚ) : Prop where
  used_le : memory.used.toNat ≤ memory.total.toNat
  free_le : memory.free.toNat ≤ memory.total.toNat
  sum : memory.used.toNat + memory.free.toNat = memory.total.toNat
  percentage : IsPercentage memory.usedPercentage

/-- The figures of the disk, for what is sampled of it. -/
structure DiskConsistent (fs : Option FsSample) (disk : DiskStatus ℚ) : Prop where
  used_le : disk.used.toNat ≤ disk.total.toNat
  free_le : disk.free.toNat ≤ disk.total.toNat
  /-- Used space is derived from free space. -/
  used_derived : ∀ f, fs = some f → ∀ a, f.availableBytes = some a → f.usedBytes = none →
    a.toNat ≤ (f.capacityBytes.getD 0).toNat →
      disk.used.toNat + disk.free.toNat = disk.total.toNat
  /-- Free space is derived from used space. -/
  free_derived : ∀ f, fs = some f → ∀ u, f.usedBytes = some u → f.availableBytes = none →
    u.toNat ≤ (f.capacityBytes.getD 0).toNat →
      disk.used.toNat + disk.free.toNat = disk.total.toNat
  percentage : IsPercentage disk.usedPercentage

/-- A part of something in percent. -/
theorem isPercentage_pct {used total : ℕ} (h : used ≤ total) :
    IsPercentage (pct used total : ℚ) := by
  unfold IsPercentage pct
  split
  · next htotal =>
      have hle : (used : ℚ) / total ≤ 1 := div_le_one_of_le₀ (by exact_mod_cast h) htotal.le
      constructor
      · positivity
      · linarith
  · norm_num

theorem memoryConsistent_iff (node : NodeSummary) (capacityMemBytes : UInt64) :
    MemoryConsistent (memoryStatus node capacityMemBytes) ↔
      ∀ m, node.memory = some m → ∀ a, m.availableBytes = some a →
        a.toNat ≤ capacityMemBytes.toNat := by
  constructor
  · intro h m hm a ha
    have hfree := h.free_le
    simp only [memoryStatus, hm, Option.bind_some, ha, Option.getD_some] at hfree
    exact hfree
  · intro h
    have hfree : (memoryStatus node capacityMemBytes : MemoryStatus ℚ).free.toNat ≤
        capacityMemBytes.toNat := by
      unfold memoryStatus
      simp only
      cases havailable : node.memory.bind fun m ↦ m.availableBytes with
      | none =>
          rw [Option.getD_none, toNat_saturatingSub]
          exact Nat.sub_le _ _
      | some a =>
          obtain ⟨m, hm, ha⟩ := Option.bind_eq_some_iff.mp havailable
          exact h m hm a ha
    have hused : (memoryStatus node capacityMemBytes : MemoryStatus ℚ).used.toNat =
        capacityMemBytes.toNat - (memoryStatus node capacityMemBytes : MemoryStatus ℚ).free.toNat :=
      toNat_saturatingSub _ _
    have hle : (memoryStatus node capacityMemBytes : MemoryStatus ℚ).used.toNat ≤
        capacityMemBytes.toNat := by
      rw [hused]
      exact Nat.sub_le _ _
    exact ⟨hle, hfree, by rw [hused]; exact Nat.sub_add_cancel hfree, isPercentage_pct hle⟩

/-- The sample says nothing that exceeds the capacity, and if it says how much is used but not how
much is free, then all is used. -/
def FsSample.Coherent (f : FsSample) : Prop :=
  (∀ a, f.availableBytes = some a → a.toNat ≤ (f.capacityBytes.getD 0).toNat) ∧
  (∀ u, f.usedBytes = some u → u.toNat ≤ (f.capacityBytes.getD 0).toNat) ∧
  ∀ u, f.usedBytes = some u → f.availableBytes = none → u.toNat = (f.capacityBytes.getD 0).toNat

section Disk

variable {f : FsSample}

theorem coherent_of_diskConsistent (h : DiskConsistent (some f) (diskStatus (some f))) :
    f.Coherent := by
  obtain ⟨capacityBytes, usedBytes, availableBytes⟩ := f
  refine ⟨?_, ?_, ?_⟩
  · rintro a rfl
    exact h.free_le
  · rintro u rfl
    exact h.used_le
  · rintro u rfl rfl
    exact h.free_derived _ rfl u rfl rfl h.used_le

theorem FsSample.Coherent.used_le (h : f.Coherent) :
    (diskStatus (some f) : DiskStatus ℚ).used.toNat ≤ (f.capacityBytes.getD 0).toNat := by
  have hused : (diskStatus (some f) : DiskStatus ℚ).used =
    f.usedBytes.getD (saturatingSub (f.capacityBytes.getD 0) (f.availableBytes.getD 0)) := rfl
  rw [hused]
  cases husedBytes : f.usedBytes with
  | none =>
      rw [Option.getD_none, toNat_saturatingSub]
      exact Nat.sub_le _ _
  | some u => exact h.2.1 u husedBytes

theorem FsSample.Coherent.free_le (h : f.Coherent) :
    (diskStatus (some f) : DiskStatus ℚ).free.toNat ≤ (f.capacityBytes.getD 0).toNat := by
  have hfree : (diskStatus (some f) : DiskStatus ℚ).free = f.availableBytes.getD 0 := rfl
  rw [hfree]
  cases havailable : f.availableBytes with
  | none => exact Nat.zero_le _
  | some a => exact h.1 a havailable

theorem FsSample.Coherent.diskConsistent (h : f.Coherent) :
    DiskConsistent (some f) (diskStatus (some f)) := by
  refine ⟨h.used_le, h.free_le, ?_, ?_, isPercentage_pct h.used_le⟩
  · obtain ⟨capacityBytes, usedBytes, availableBytes⟩ := f
    rintro _ ⟨⟩ a rfl rfl hle
    have hused : (diskStatus (some ⟨capacityBytes, none, some a⟩) : DiskStatus ℚ).used.toNat =
        (capacityBytes.getD 0).toNat - a.toNat := toNat_saturatingSub _ _
    rw [hused]
    exact Nat.sub_add_cancel hle
  · obtain ⟨capacityBytes, usedBytes, availableBytes⟩ := f
    rintro _ ⟨⟩ u rfl rfl -
    -- nothing is left free, so all has to be used
    exact h.2.2 u rfl rfl

end Disk

theorem diskConsistent_iff (fs : Option FsSample) :
    DiskConsistent fs (diskStatus fs) ↔ ∀ f, fs = some f → f.Coherent := by
  cases fs with
  | none =>
      refine iff_of_true ⟨le_rfl, le_rfl, ?_, ?_, ?_⟩ ?_
      · rintro f ⟨⟩
      · rintro f ⟨⟩
      · exact isPercentage_pct (le_refl 0)
      · rintro f ⟨⟩
  | some f =>
      simp only [Option.some.injEq, forall_eq']
      exact ⟨coherent_of_diskConsistent, FsSample.Coherent.diskConsistent⟩

/-- **When the figures of the node are consistent**: if the kubelet reports no more memory available
than the node has, and what it reports of the disk is coherent. -/
theorem nodeStatus_consistent_iff (node : NodeSummary) (capacityCores : ℚ)
    (capacityMemBytes : UInt64) :
    let (_, memory, disk) := nodeStatusParts node capacityCores capacityMemBytes
    MemoryConsistent memory ∧ DiskConsistent node.fs disk ↔
      (∀ m, node.memory = some m → ∀ a, m.availableBytes = some a →
        a.toNat ≤ capacityMemBytes.toNat) ∧ ∀ f, node.fs = some f → f.Coherent :=
  and_congr (memoryConsistent_iff node capacityMemBytes) (diskConsistent_iff node.fs)

/-- Of a disk with 100 bytes of which 40 are used, nothing is reported free; and a node whose
capacity is not known has more memory free than it has. -/
theorem nodeStatus_inconsistent :
    let node : NodeSummary :=
      { memory := some { availableBytes := some 6, workingSetBytes := none }
        fs := some { capacityBytes := some 100, usedBytes := some 40, availableBytes := none } }
    let (_, memory, disk) := nodeStatusParts node 4 0
    ¬MemoryConsistent memory ∧ ¬DiskConsistent node.fs disk := by
  refine ⟨fun h ↦ ?_, fun h ↦ ?_⟩
  · exact absurd h.free_le (by decide)
  · exact absurd (h.free_derived _ rfl 40 rfl rfl (by decide)) (by decide)

end Swarmagent.Kubernetes
