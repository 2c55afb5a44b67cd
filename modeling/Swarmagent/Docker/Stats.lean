import Swarmagent.Models
import Swarmagent.Rust.Int
import Swarmagent.Rust.Str

/-!
# Container stats

The agent turns one answer of Docker's stats endpoint into a `ContainerStatus`, by the formulas
the Docker CLI uses.  This file is the model of `container_stats.rs`, with the parts of `Stats` it
reads.

An answer holds two samples of the cumulative CPU counters, the current one and the one before it,
and a percentage is computed from what they differ by (`calculateCpuPercentUnix_eq`).

## What is left open

* `instantOf` is `DateTime::parse_from_rfc3339(s).ok()`, an instant in nanoseconds.
* A `HashMap` of network interfaces is the list of its values, in the order in which the map
  happens to enumerate them.
-/

namespace Swarmagent.Docker

open Swarmagent.Rust

/-! ## What Docker answers -/

structure CPUUsage where
  /-- Total CPU time consumed, in nanoseconds. -/
  totalUsage : UInt64
  percpuUsage : Option (List UInt64)
  /-- The length of a list is a `usize`. -/
  percpu_lt : ∀ l ∈ percpuUsage, l.length < 2 ^ 64

/-- Without the usage of each CPU. -/
def CPUUsage.ofTotal (totalUsage : UInt64) : CPUUsage where
  totalUsage
  percpuUsage := none
  percpu_lt := by simp

structure CPUStats where
  cpuUsage : CPUUsage
  /-- CPU time of the host, in nanoseconds. -/
  systemCpuUsage : Option UInt64
  onlineCpus : Option UInt64

/-- Cgroup memory statistics, of either version. -/
inductive MemoryStatsStats where
  | v1 (cache totalInactiveFile : UInt64)
  | v2 (inactiveFile : UInt64)

structure MemoryStats where
  stats : Option MemoryStatsStats
  usage : Option UInt64
  limit : Option UInt64
  privateworkingset : Option UInt64

structure NetworkStats where
  rxBytes : UInt64
  txBytes : UInt64

structure BlkioStatsEntry where
  op : String
  value : UInt64

/-- One answer of the stats endpoint. -/
structure Stats where
  name : String
  id : String
  /-- When the current sample was taken. -/
  read : String
  /-- When the sample before it was taken. -/
  preread : String
  numProcs : UInt32
  networks : Option (List NetworkStats)
  /-- `pids_stats.current`. -/
  pidsCurrent : Option UInt64
  /-- `blkio_stats.io_service_bytes_recursive`. -/
  ioServiceBytesRecursive : Option (List BlkioStatsEntry)
  cpuStats : CPUStats
  precpuStats : CPUStats
  memoryStats : MemoryStats

section Arith

variable {F : Type} [Arith F]

/-! ## CPU -/

/-- The number of CPUs online, or of those listed if that is missing or 0. -/
def onlineCpus (cur : CPUStats) : F :=
  let online : F := (cur.onlineCpus.getD 0).toNat
  if online = 0 then ((cur.cpuUsage.percpuUsage.map List.length).getD 0 : ℕ) else online

/-- `(cpu_delta / system_delta) * online_cpus * 100`. -/
def calculateCpuPercentUnix (previousCpu previousSystem : UInt64) (cur : CPUStats) : F :=
  let cpuDelta : F := (saturatingSub cur.cpuUsage.totalUsage previousCpu).toNat
  let systemDelta : F := (saturatingSub (cur.systemCpuUsage.getD 0) previousSystem).toNat
  if systemDelta > 0 ∧ cpuDelta > 0 then cpuDelta / systemDelta * onlineCpus cur * 100 else 0

/-- `intervals_used / (read_preread_ns / 100 * num_procs) * 100`. -/
def calculateCpuPercentWindows (readPrereadNs : UInt64) (numProcs : UInt32)
    (intervalsUsed : UInt64) : F :=
  let poss := saturatingMul (readPrereadNs / 100) numProcs.toUInt64
  if poss > 0 then (intervalsUsed.toNat : F) / poss.toNat * 100 else 0

/-! ## Memory -/

def calculateMemoryUsageUnixNoCache (usage cache : UInt64) : F := (saturatingSub usage cache).toNat

def calculateMemoryPercentUnixNoCache (limit usedNoCache : F) : F :=
  if limit ≠ 0 then usedNoCache / limit * 100 else 0

/-- The page cache: `cache` of cgroup v1, `inactive_file` of cgroup v2. -/
def cacheBytes (mem : MemoryStats) : UInt64 :=
  match mem.stats with
  | some (.v1 cache _) => cache
  | some (.v2 inactiveFile) => inactiveFile
  | none => 0

/-! ## Network, block devices, processes -/

/-- Bytes received and sent, over all interfaces. -/
def networkIo (stats : Stats) : UInt64 × UInt64 :=
  (stats.networks.getD []).foldl
    (fun (rx, tx) iface ↦ (saturatingAdd rx iface.rxBytes, saturatingAdd tx iface.txBytes)) (0, 0)

/-- Bytes read and written, over all block devices. -/
def blockIo (stats : Stats) : UInt64 × UInt64 :=
  (stats.ioServiceBytesRecursive.getD []).foldl
    (fun (read, write) entry ↦
      if toAsciiLowercase entry.op = "read".toList then (saturatingAdd read entry.value, write)
      else if toAsciiLowercase entry.op = "write".toList then
        (read, saturatingAdd write entry.value)
      else (read, write)) (0, 0)

def pidCount (stats : Stats) : UInt64 := stats.pidsCurrent.getD 0

/-! ## The status -/

section Status

variable (instantOf : String → Option Int)

def parseTs (s : String) : Option Int := instantOf (trim s)

/-- `num_nanoseconds`, which fails outside the range of `i64`. -/
def numNanoseconds (d : Int) : Option Int :=
  if -2 ^ 63 ≤ d ∧ d < 2 ^ 63 then some d else none

/-- Nanoseconds between the two samples, 0 if either time is missing or they are out of order. -/
def intervalNs (stats : Stats) : UInt64 :=
  match parseTs instantOf stats.read, parseTs instantOf stats.preread with
  | some r, some p => .ofNat (max ((numNanoseconds (r - p)).getD 0) 0).toNat
  | _, _ => 0

/-- CPU percentage, memory, memory limit and memory percentage of a Windows container. -/
def windowsFigures (stats : Stats) : F × F × F × F :=
  let used := saturatingSub stats.cpuStats.cpuUsage.totalUsage
    stats.precpuStats.cpuUsage.totalUsage
  let cpu := calculateCpuPercentWindows (intervalNs instantOf stats) stats.numProcs used
  (cpu, (stats.memoryStats.privateworkingset.getD 0).toNat, 0, 0)

/-- The same figures of a Linux container. -/
def linuxFigures (stats : Stats) : F × F × F × F :=
  let prevCpu := stats.precpuStats.cpuUsage.totalUsage
  let prevSys := stats.precpuStats.systemCpuUsage.getD 0
  let cpu := calculateCpuPercentUnix prevCpu prevSys stats.cpuStats
  let memory := calculateMemoryUsageUnixNoCache (stats.memoryStats.usage.getD 0)
    (cacheBytes stats.memoryStats)
  let memoryLimit : F := (stats.memoryStats.limit.getD 0).toNat
  (cpu, memory, memoryLimit, calculateMemoryPercentUnixNoCache memoryLimit memory)

def isWindows (daemonOsType : String) : Bool := eqIgnoreAsciiCase daemonOsType "windows"

/-- Converts a raw `Stats` snapshot into a `ContainerStatus`. -/
def containerStatusFromStats (stats : Stats) (daemonOsType containerId : String) :
    ContainerStatus F :=
  let figures : F × F × F × F := if isWindows daemonOsType then windowsFigures instantOf stats
    else linuxFigures stats
  { name := stats.name
    id := if stats.id = "" then containerId else stats.id
    ns := none
    pod := none
    workload := none
    workloadKind := none
    cpuPercentage := figures.1
    memory := figures.2.1
    memoryLimit := figures.2.2.1
    memoryPercentage := figures.2.2.2
    networkRxBytes := (networkIo stats).1
    networkTxBytes := (networkIo stats).2
    blockReadBytes := (blockIo stats).1
    blockWriteBytes := (blockIo stats).2
    pids := pidCount stats }

/-- The CPU percentage of a Linux container. -/
theorem cpuPercentage_of_linux (stats : Stats) {daemonOsType : String}
    (hos : isWindows daemonOsType = false) (containerId : String) :
    (containerStatusFromStats instantOf stats daemonOsType containerId).cpuPercentage =
      (calculateCpuPercentUnix stats.precpuStats.cpuUsage.totalUsage
        (stats.precpuStats.systemCpuUsage.getD 0) stats.cpuStats : F) := by
  simp only [containerStatusFromStats, hos, Bool.false_eq_true, if_false]
  rfl

end Status

end Arith

/-! ## Exact figures -/

/-- **The CPU formula.**  Nothing is lost by leaving out the two tests, as dividing by 0 gives 0. -/
theorem calculateCpuPercentUnix_eq (previousCpu previousSystem : UInt64) (cur : CPUStats) :
    calculateCpuPercentUnix previousCpu previousSystem cur =
      ((cur.cpuUsage.totalUsage.toNat - previousCpu.toNat : ℕ) : ℚ) /
        (((cur.systemCpuUsage.getD 0).toNat - previousSystem.toNat : ℕ) : ℚ) *
          onlineCpus cur * 100 := by
  unfold calculateCpuPercentUnix
  simp only [toNat_saturatingSub]
  split
  · rfl
  · rename_i h
    rw [not_and_or, not_lt, not_lt] at h
    rcases h with h | h
    · rw [le_antisymm h (Nat.cast_nonneg _), div_zero, zero_mul, zero_mul]
    · rw [le_antisymm h (Nat.cast_nonneg _), zero_div, zero_mul, zero_mul]

end Swarmagent.Docker
