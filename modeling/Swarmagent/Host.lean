import Swarmagent.Kubernetes.NodeStatus

/-!
# The host

The model of `host.rs`: the figures of the host next to Docker, which `sysinfo` gives.  On
Kubernetes the same figures come from the kubelet, see `Swarmagent.Kubernetes.NodeStatus`.

Used disk space is derived from what is available, so it never exceeds the capacity, whatever
`sysinfo` says (`diskUsage_spec`).  Used memory is taken as it is, and its percentage is one if no
more is used than there is (`isPercentage_usedPercentage`).

## What is left open

* `path` is `Path::new`, and mount points are compared as paths are.
* `windows` is `cfg!(windows)`, which is decided when the agent is compiled.
* What `sysinfo` reads is given: the disks, and a `System` after it has been refreshed.
-/

namespace Swarmagent.Host

open Rust Kubernetes

/-- A disk. -/
structure Disk (π : Type) where
  mountPoint : π
  totalSpace : UInt64
  availableSpace : UInt64

/-- A `System` after a refresh. -/
structure System where
  globalCpuUsage : F64
  totalMemory : UInt64
  usedMemory : UInt64
  freeMemory : UInt64

/-- What is used in percent. -/
def usedPercentage (used total : UInt64) : F64 :=
  if total > 0 then (used.toNat : F64) / total.toNat * 100 else 0

def rootDiskCandidates (windows : Bool) : List String :=
  if windows then ["C:\\", "C:/", "\\"] else ["/"]

section Disks

variable {π : Type} [DecidableEq π] (path : String → π) (windows : Bool)

/-- The disk of the root filesystem, or else the first one. -/
def pickRootDisk (disks : List (Disk π)) : Option (Disk π) :=
  ((rootDiskCandidates windows).findSome? fun c ↦
    disks.find? fun d ↦ d.mountPoint = path c).or disks.head?

/-- Figures of the root filesystem, all zero if there is no disk. -/
def diskUsage (disks : List (Disk π)) : DiskStatus :=
  match pickRootDisk path windows disks with
  | none => { total := 0, used := 0, usedPercentage := 0, free := 0 }
  | some d =>
      let total := d.totalSpace
      let free := d.availableSpace
      let used := saturatingSub total free
      { total, used, usedPercentage := usedPercentage used total, free }

end Disks

/-- The host the agent runs on. -/
structure Platform (π : Type) where
  path : String → π
  windows : Bool
  disks : List (Disk π)
  sys : System

def cpuUsage (sys : System) (coresReported : ℤ) : CpuStatus where
  usedPercentage := sys.globalCpuUsage
  cores := coresReported

def memoryUsage (sys : System) : MemoryStatus where
  total := sys.totalMemory
  used := sys.usedMemory
  usedPercentage := usedPercentage sys.usedMemory sys.totalMemory
  free := sys.freeMemory

/-! ## The figures -/

theorem isPercentage_zero : IsPercentage (0 : F64) :=
  ⟨(F64.le_iff F64.value_zero F64.value_zero).mpr le_rfl,
    (F64.le_iff F64.value_zero F64.value_hundred).mpr (by norm_num)⟩

/-- A percentage of a part, or of nothing. -/
theorem isPercentage_usedPercentage {used total : UInt64} (h : used ≤ total) :
    IsPercentage (usedPercentage used total) := by
  unfold usedPercentage
  split
  · next hpos =>
      have htotal : total ≠ 0 := UInt64.pos_iff_ne_zero.mp hpos
      obtain ⟨p, hp, hnonneg, hle⟩ := F64.exists_percent (F64.value_u64 used) (F64.value_u64 total)
        (F64.nearest_u64_nonneg used) (zero_lt_one.trans_le (F64.one_le_nearest_u64 htotal))
        (Machine.Format.nearest_mono (by exact_mod_cast UInt64.le_iff_toNat_le.mp h))
      exact ⟨(F64.le_iff F64.value_zero hp).mpr hnonneg, (F64.le_iff hp F64.value_hundred).mpr hle⟩
  · exact isPercentage_zero

theorem isFinite_usedPercentage (used total : UInt64) :
    (usedPercentage used total).isFinite = true := by
  unfold usedPercentage
  split
  · next hpos =>
      have htotal : total ≠ 0 := UInt64.pos_iff_ne_zero.mp hpos
      exact (F64.isAmount_percent used (F64.one_le_u64 htotal)).isFinite
  · exact F64.isAmount_zero.isFinite

section Disks

variable {π : Type} [DecidableEq π] {path : String → π} {windows : Bool}

theorem isFinite_diskUsage (disks : List (Disk π)) :
    (diskUsage path windows disks).usedPercentage.isFinite = true := by
  unfold diskUsage
  split
  · exact F64.isAmount_zero.isFinite
  · exact isFinite_usedPercentage _ _

variable (path windows) in
/-- The disk is the root filesystem. -/
def AtRoot (d : Disk π) : Prop := ∃ c ∈ rootDiskCandidates windows, d.mountPoint = path c

/-- The disk picked is one of the disks, and the root filesystem if one is. -/
theorem pickRootDisk_spec {disks : List (Disk π)} {d : Disk π}
    (h : pickRootDisk path windows disks = some d) :
    d ∈ disks ∧ ((∃ d' ∈ disks, AtRoot path windows d') → AtRoot path windows d) := by
  rcases Option.or_eq_some_iff.mp h with hroot | ⟨hnone, hhead⟩
  · obtain ⟨c, hc, hfind⟩ := List.exists_of_findSome?_eq_some hroot
    have hmount := List.find?_some hfind
    exact ⟨List.mem_of_find?_eq_some hfind, fun _ ↦ ⟨c, hc, of_decide_eq_true hmount⟩⟩
  · refine ⟨List.mem_of_mem_head? hhead, ?_⟩
    rintro ⟨d', hd', c, hc, hmount⟩
    have hfind := List.findSome?_eq_none_iff.mp hnone c hc
    exact absurd (decide_eq_true hmount) (List.find?_eq_none.mp hfind d' hd')

/-- A disk is picked if there is one. -/
theorem pickRootDisk_eq_none {disks : List (Disk π)} :
    pickRootDisk path windows disks = none ↔ disks = [] := by
  constructor
  · intro h
    exact List.head?_eq_none_iff.mp (Option.or_eq_none_iff.mp h).2
  · rintro rfl
    cases windows <;> rfl

/-- **Figures of a disk.**  They are those of a disk, of the root filesystem if there is one, and
all zero only if there is no disk.  What is used is a part of the disk, and what is used and what is
free make up the disk exactly if no more is free than there is. -/
theorem diskUsage_spec (disks : List (Disk π)) :
    let disk := diskUsage path windows disks
    (disks ≠ [] → ∃ d ∈ disks, disk.total = d.totalSpace ∧ disk.free = d.availableSpace ∧
      ((∃ d' ∈ disks, AtRoot path windows d') → AtRoot path windows d)) ∧
      disk.used ≤ disk.total ∧ IsPercentage disk.usedPercentage ∧
      (disk.used.toNat + disk.free.toNat = disk.total.toNat ↔ disk.free ≤ disk.total) := by
  cases hpick : pickRootDisk path windows disks with
  | none =>
      simp only [diskUsage, hpick]
      refine ⟨fun hne ↦ absurd (pickRootDisk_eq_none.mp hpick) hne, UInt64.le_refl 0,
        isPercentage_zero, by decide⟩
  | some d =>
      obtain ⟨hmem, hroot⟩ := pickRootDisk_spec hpick
      have hle : saturatingSub d.totalSpace d.availableSpace ≤ d.totalSpace := by
        rw [UInt64.le_iff_toNat_le, toNat_saturatingSub]
        exact Nat.sub_le _ _
      simp only [diskUsage, hpick]
      refine ⟨fun _ ↦ ⟨d, hmem, rfl, rfl, hroot⟩, hle,
        isPercentage_usedPercentage hle, ?_⟩
      rw [UInt64.le_iff_toNat_le, toNat_saturatingSub]
      omega

end Disks

end Swarmagent.Host
