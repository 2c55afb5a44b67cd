import Swarmagent.Docker.Stats
import Mathlib.Data.Rat.Cast.Order
import Mathlib.Tactic.NormNum

/-!
# The figures of `docker stats`

The agent's formulas are to match the Docker CLI, so that Swarmbot shows what operators see on the
command line.  This file has the formulas of the CLI and compares them.

The CPU figures are always the same.  The memory figures are not: from the usage the CLI takes the
inactive part of the page cache, on cgroup v1 too, and nothing at all if that is not below the
usage.  The agent takes the whole page cache on cgroup v1, and stops at 0.
-/

namespace Swarmagent.Docker

open Swarmagent.Rust

/-- The CPU percentage of the CLI. -/
def cliCpuPercent (stats : Stats) : ℚ :=
  let cur := stats.cpuStats
  let pre := stats.precpuStats
  let cpuDelta : ℤ := cur.cpuUsage.totalUsage.toNat - pre.cpuUsage.totalUsage.toNat
  let systemDelta : ℤ :=
    ((cur.systemCpuUsage.getD 0).toNat : ℤ) - (pre.systemCpuUsage.getD 0).toNat
  let cpus : ℕ := match cur.onlineCpus with
    | some n => if n = 0 then (cur.cpuUsage.percpuUsage.getD []).length else n.toNat
    | none => (cur.cpuUsage.percpuUsage.getD []).length
  if systemDelta > 0 ∧ cpuDelta > 0 then (cpuDelta : ℚ) / systemDelta * cpus * 100 else 0

/-- The memory of the CLI: what is used without what is inactive, if less than all is inactive. -/
def cliMemory (mem : MemoryStats) : ℕ :=
  let usage := (mem.usage.getD 0).toNat
  let without (inactive : UInt64) :=
    if inactive.toNat < usage then usage - inactive.toNat else usage
  match mem.stats with
  | some (.v1 _ totalInactiveFile) => without totalInactiveFile
  | some (.v2 inactiveFile) => without inactiveFile
  | none => usage

/-! ## CPU -/

theorem onlineCpus_eq (cur : CPUStats) :
    onlineCpus cur = ((match cur.onlineCpus with
      | some n => if n = 0 then (cur.cpuUsage.percpuUsage.getD []).length else n.toNat
      | none => (cur.cpuUsage.percpuUsage.getD []).length : ℕ) : ℚ) := by
  have hlength : (cur.cpuUsage.percpuUsage.map List.length).getD 0 =
      (cur.cpuUsage.percpuUsage.getD []).length := by
    cases cur.cpuUsage.percpuUsage <;> rfl
  unfold onlineCpus
  simp only [hlength]
  cases cur.onlineCpus with
  | none => exact if_pos rfl
  | some n =>
      have hzero : ((n.toNat : ℕ) : ℚ) = 0 ↔ n = 0 := by
        rw [Nat.cast_eq_zero, ← UInt64.toNat_inj]
        rfl
      simp only [Option.getD_some, hzero]
      split <;> rfl

/-- The CPU figures are the same. -/
theorem cpuPercentage_eq_cli (stats : Stats) :
    (linuxFigures stats).1 = cliCpuPercent stats := by
  unfold linuxFigures cliCpuPercent calculateCpuPercentUnix
  simp only [toNat_saturatingSub, onlineCpus_eq]
  generalize stats.cpuStats.cpuUsage.totalUsage.toNat = total
  generalize stats.precpuStats.cpuUsage.totalUsage.toNat = preTotal
  generalize (stats.cpuStats.systemCpuUsage.getD 0).toNat = system
  generalize (stats.precpuStats.systemCpuUsage.getD 0).toNat = preSystem
  have hpos : ∀ a b : ℕ, ((a - b : ℕ) : ℚ) > 0 ↔ (a : ℤ) - b > 0 := by
    intro a b
    rw [gt_iff_lt, Nat.cast_pos]
    omega
  have hcast : ∀ a b : ℕ, (a : ℤ) - b > 0 → ((a - b : ℕ) : ℚ) = (((a : ℤ) - b : ℤ) : ℚ) := by
    intro a b h
    rw [← Int.cast_natCast, Nat.cast_sub (by omega)]
  simp only [hpos]
  split
  · next h => rw [hcast _ _ h.1, hcast _ _ h.2]
  · rfl

/-! ## Memory -/

/-- The memory figures are the same: on cgroup v1, if the page cache is as large as its inactive
part or, where that is not below the usage, empty; on cgroup v2, if the inactive part is below the
usage; and always if nothing is used. -/
def MemoryAgrees (mem : MemoryStats) : Prop :=
  let usage := (mem.usage.getD 0).toNat
  match mem.stats with
  | some (.v1 cache totalInactiveFile) =>
      usage = 0 ∨ (totalInactiveFile.toNat < usage ∧ cache = totalInactiveFile) ∨
        (usage ≤ totalInactiveFile.toNat ∧ cache = 0)
  | some (.v2 inactiveFile) => usage = 0 ∨ inactiveFile.toNat < usage
  | none => True

theorem memory_eq_cli_iff (mem : MemoryStats) :
    (saturatingSub (mem.usage.getD 0) (cacheBytes mem)).toNat = cliMemory mem ↔
      MemoryAgrees mem := by
  rw [toNat_saturatingSub]
  unfold cacheBytes cliMemory MemoryAgrees
  generalize (mem.usage.getD 0).toNat = usage
  rcases mem.stats with - | ⟨cache, totalInactiveFile⟩ | ⟨inactiveFile⟩
  · exact iff_of_true rfl trivial
  · simp only [← UInt64.toNat_inj, UInt64.toNat_zero]
    split <;> omega
  · simp only
    split <;> omega

/-- **Where the agent and the CLI agree.**  The CPU figure of a Linux container is always the
CLI's, and both figures are exactly if the memory figures agree. -/
theorem figures_eq_cli_iff (instantOf : String → Option Int) (stats : Stats)
    {daemonOsType : String} (hos : isWindows daemonOsType = false) (containerId : String) :
    let e : ContainerStatus ℚ := containerStatusFromStats instantOf stats daemonOsType containerId
    (e.cpuPercentage = cliCpuPercent stats ∧ e.memory = cliMemory stats.memoryStats ↔
        MemoryAgrees stats.memoryStats) ∧
      e.cpuPercentage = cliCpuPercent stats := by
  have hcpu : (containerStatusFromStats instantOf stats daemonOsType containerId).cpuPercentage =
      cliCpuPercent stats := by
    rw [← cpuPercentage_eq_cli]
    simp only [containerStatusFromStats, hos, Bool.false_eq_true, if_false]
  have hmemory : (containerStatusFromStats instantOf stats daemonOsType containerId).memory =
      ((saturatingSub (stats.memoryStats.usage.getD 0)
        (cacheBytes stats.memoryStats)).toNat : ℚ) := by
    simp only [containerStatusFromStats, hos, Bool.false_eq_true, if_false]
    rfl
  refine ⟨?_, hcpu⟩
  rw [and_iff_right hcpu, hmemory, Nat.cast_inj]
  exact memory_eq_cli_iff stats.memoryStats

/-! ### A container with a page cache -/

/-- A container that uses half a CPU of two and 100 bytes of memory. -/
def cachingStats (stats : MemoryStatsStats) : Stats where
  name := "/web"
  id := "web"
  read := ""
  preread := ""
  numProcs := 0
  networks := none
  pidsCurrent := none
  ioServiceBytesRecursive := none
  cpuStats := { cpuUsage := .ofTotal 3000,
                systemCpuUsage := some 20000, onlineCpus := some 2 }
  precpuStats := { cpuUsage := .ofTotal 500,
                   systemCpuUsage := some 10000, onlineCpus := some 2 }
  memoryStats := { stats := some stats, usage := some 100, limit := none,
                   privateworkingset := none }

/-- With 60 bytes of page cache, 40 of them inactive, the agent reports 40 bytes and the CLI 60; and
with 100 bytes of inactive cache, the agent reports none and the CLI 100. -/
theorem figures_ne_cli :
    let instantOf : String → Option Int := fun _ ↦ none
    let memoryOf (stats : MemoryStatsStats) : ℚ :=
      (containerStatusFromStats instantOf (cachingStats stats) "linux" "web").memory
    (memoryOf (.v1 60 40) = 40 ∧ cliMemory (cachingStats (.v1 60 40)).memoryStats = 60) ∧
      memoryOf (.v2 100) = 0 ∧ cliMemory (cachingStats (.v2 100)).memoryStats = 100 := by
  intro instantOf memoryOf
  have hmemory : ∀ stats, memoryOf stats =
      ((saturatingSub 100 (cacheBytes (cachingStats stats).memoryStats)).toNat : ℚ) := by
    intro stats
    have hos : isWindows "linux" = false := by decide
    simp only [memoryOf, containerStatusFromStats, hos, Bool.false_eq_true, if_false]
    rfl
  refine ⟨⟨?_, by decide⟩, ?_, by decide⟩
  · rw [hmemory]
    exact congrArg Nat.cast (show (saturatingSub 100 60).toNat = 40 by decide)
  · rw [hmemory]
    exact congrArg Nat.cast (show (saturatingSub 100 100).toNat = 0 by decide)

theorem figures_eq_cli_iff_caching :
    let instantOf : String → Option Int := fun _ ↦ none
    let e : ContainerStatus ℚ :=
      containerStatusFromStats instantOf (cachingStats (.v2 40)) "linux" "web"
    (e.cpuPercentage = cliCpuPercent (cachingStats (.v2 40)) ∧
        e.memory = cliMemory (cachingStats (.v2 40)).memoryStats ↔
      MemoryAgrees (cachingStats (.v2 40)).memoryStats) ∧
        e.cpuPercentage = cliCpuPercent (cachingStats (.v2 40)) :=
  figures_eq_cli_iff _ _ (by decide) _

end Swarmagent.Docker
