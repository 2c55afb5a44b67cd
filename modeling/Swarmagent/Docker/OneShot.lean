import Swarmagent.Docker.CpuShare

/-!
# One-shot stats

The agent asks Docker for a single one-shot snapshot of each container.  Docker answers such a
request at once, without waiting for a second sample, and so has no sample before the current one
to give: its CPU counters are empty.  What the formula takes for the usage since the last sample
is then the usage since the container was started, and for the time since then the time since the
host was.

The percentage posted is therefore the container's share of all CPU time so far, whatever it does
at present (`History.value_posted`).  It tells shares apart as far as they differ by more than a
small part of them, which may be lost when the percentage is rounded.
-/

namespace Swarmagent.Docker

open Machine (Format)
open Rust

/-- The options of a stats request. -/
structure StatsOptions where
  stream : Bool
  oneShot : Bool
deriving DecidableEq

section OneShot

variable (instantOf : String → Option Int) {ε : Type*}

/-- Fetches a single one-shot stats snapshot.  `docker` gives the first item of the stream that a
request opens, if it has one. -/
def containerStatsOne (docker : String → StatsOptions → Option (Except ε Stats))
    (id osType : String) : ContainerStatus :=
  match docker id { stream := false, oneShot := true } with
  | some (.ok stats) => containerStatusFromStats instantOf stats osType id
  | some (.error _) => .empty id
  | none => .empty id

/-- A Linux container over the ticks of the agent. -/
structure History (ε : Type*) where
  id : String
  osType : String
  linux : isWindows osType = false
  /-- The CPU time the container has consumed so far. -/
  total : ℕ → UInt64
  /-- The CPU time of the host so far. -/
  system : ℕ → UInt64
  /-- The number of CPUs online. -/
  cpus : ℕ → UInt64
  total_le : ∀ i, total i ≤ total (i + 1)
  system_le : ∀ i, system i ≤ system (i + 1)
  /-- The answers to the requests of each tick. -/
  docker : ℕ → String → StatsOptions → Option (Except ε Stats)
  /-- A one-shot answer carries the current counters, and none for the sample before. -/
  oneShot : ∀ i, ∃ stats, docker i id { stream := false, oneShot := true } = some (.ok stats) ∧
    stats.cpuStats.cpuUsage.totalUsage = total i ∧
    stats.cpuStats.systemCpuUsage = some (system i) ∧
    onlineCpus stats.cpuStats = ((cpus i).toNat : F64) ∧
    stats.precpuStats.cpuUsage.totalUsage = 0 ∧ stats.precpuStats.systemCpuUsage = none

/-- In the interval before a tick, both containers and both hosts consume the same, on the same
number of CPUs. -/
structure SameInterval {ε' : Type*} (h : History ε) (h' : History ε') (i : ℕ) : Prop where
  total : (h.total (i + 1)).toNat - (h.total i).toNat =
    (h'.total (i + 1)).toNat - (h'.total i).toNat
  system : (h.system (i + 1)).toNat - (h.system i).toNat =
    (h'.system (i + 1)).toNat - (h'.system i).toNat
  cpus : h.cpus (i + 1) = h'.cpus (i + 1)

namespace History

/-- The CPU percentage posted at a tick. -/
def posted (h : History ε) (i : ℕ) : F64 :=
  (containerStatsOne instantOf (h.docker i) h.id h.osType).cpuPercentage

/-- The container's share of all CPU time so far. -/
def share (h : History ε) (i : ℕ) : ℚ := cpuShare (h.total i) (h.system i)

/-- **What is posted**: the share of all CPU time so far. -/
theorem value_posted (h : History ε) (i : ℕ) :
    (h.posted instantOf i).value = some (sharePercent (h.share i) (h.cpus i)) := by
  obtain ⟨stats, hdocker, htotal, hsystem, hcpus, hprev, hprevSystem⟩ := h.oneShot i
  rw [posted, containerStatsOne, hdocker]
  let status : ContainerStatus := containerStatusFromStats instantOf stats h.osType h.id
  show status.cpuPercentage.value = _
  rw [cpuPercentage_of_linux instantOf stats h.linux, value_calculateCpuPercentUnix hcpus, htotal,
    hsystem, hprev, hprevSystem]
  simp only [Option.getD_some, Option.getD_none, saturatingSub_zero]
  rfl

/-- Nothing is posted for a container that has consumed nothing at all. -/
theorem posted_eq_zero_iff (h : History ε) (i : ℕ) :
    h.posted instantOf i = 0 ↔ h.cpus i = 0 ∨ h.total i = 0 ∨ h.system i = 0 := by
  have hvalue := h.value_posted instantOf i
  have hzero : h.posted instantOf i = 0 ↔ sharePercent (h.share i) (h.cpus i) = 0 := by
    refine ⟨fun heq ↦ ?_, fun heq ↦ F64.eq_of_value hvalue (heq ▸ F64.value_zero)⟩
    rw [heq, F64.value_zero, Option.some.injEq] at hvalue
    exact hvalue.symm
  rw [hzero, History.share, sharePercent_eq_zero_iff (cpuShare_eq_zero_or_le _ _),
    cpuShare_eq_zero_iff]

end History

/-- **When the percentage reflects the last interval.**  Of two containers that consume the same in
the interval before a tick, the same is posted if no CPU is online or their shares of all CPU time
so far agree; and if the same is posted, then no CPU is online or their shares agree but for what is
lost in rounding.  Of one that consumed nothing in the interval, 0 is posted exactly if no CPU is
online, it has consumed nothing so far, or the host has not. -/
theorem posted_eq {ε' : Type*} (h : History ε) (h' : History ε') (i : ℕ)
    (hsame : SameInterval h h' i) :
    (h.cpus (i + 1) = 0 ∨ h.share (i + 1) = h'.share (i + 1) →
        h.posted instantOf (i + 1) = h'.posted instantOf (i + 1)) ∧
      (h.posted instantOf (i + 1) = h'.posted instantOf (i + 1) →
        h.cpus (i + 1) = 0 ∨ |h.share (i + 1) - h'.share (i + 1)| ≤
          (h.share (i + 1) + h'.share (i + 1)) / 2 ^ 51) ∧
      (h.posted instantOf (i + 1) = 0 ↔
        h.cpus (i + 1) = 0 ∨ h.total (i + 1) = 0 ∨ h.system (i + 1) = 0) := by
  have hvalue := h.value_posted instantOf (i + 1)
  have hvalue' := h'.value_posted instantOf (i + 1)
  rw [← hsame.cpus] at hvalue'
  refine ⟨fun hcond ↦ F64.eq_of_value hvalue ?_, fun heq ↦ ?_,
    h.posted_eq_zero_iff instantOf (i + 1)⟩
  · rw [hvalue']
    rcases hcond with hcpus | hshare
    · rw [hcpus, sharePercent_zero, sharePercent_zero]
    · rw [hshare]
  · rw [heq, hvalue', Option.some.injEq] at hvalue
    refine or_iff_not_imp_left.mpr fun hcpus ↦ sharePercent_inj hcpus ?_ ?_ hvalue.symm
    · exact cpuShare_eq_zero_or_le _ _
    · exact cpuShare_eq_zero_or_le _ _

/-! ### Two containers with the same last interval -/

/-- The answer with the given counters, on one CPU. -/
def sample (total : UInt64) (system : Option UInt64) : CPUStats where
  cpuUsage := .ofTotal total
  systemCpuUsage := system
  onlineCpus := some 1

theorem onlineCpus_sample (total : UInt64) (system : Option UInt64) :
    onlineCpus (sample total system) = ((1 : UInt64).toNat : F64) :=
  if_neg (F64.u64_eq_zero_iff.not.mpr (show (1 : UInt64) ≠ 0 by decide))

/-- A container whose counters, and those of its host, are `before` at the first tick and `after`
from then on. -/
def twoTicks (before after : UInt64 × UInt64) (h : before.1 ≤ after.1 ∧ before.2 ≤ after.2) :
    History Empty where
  id := "web"
  osType := "linux"
  linux := by decide
  total i := if i = 0 then before.1 else after.1
  system i := if i = 0 then before.2 else after.2
  cpus _ := 1
  total_le i := by cases i <;> simp [h.1]
  system_le i := by cases i <;> simp [h.2]
  docker i _ _ := some (.ok {
    name := "/web"
    id := "web"
    read := ""
    preread := ""
    numProcs := 0
    networks := none
    pidsCurrent := none
    ioServiceBytesRecursive := none
    cpuStats := sample (if i = 0 then before.1 else after.1)
      (some (if i = 0 then before.2 else after.2))
    precpuStats := sample 0 none
    memoryStats := { stats := none, usage := none, limit := none, privateworkingset := none } })
  oneShot i := ⟨_, rfl, rfl, rfl, onlineCpus_sample _ _, rfl, rfl⟩

/-- A share of one CPU that needs no rounding, in percent. -/
theorem value_posted_of_share {h : History Empty} {i : ℕ} (total system percent : ℕ) (share : ℚ)
    (hcpus : h.cpus i = 1) (htotal : (h.total i).toNat = total)
    (hsystem : (h.system i).toNat = system) (hshare : (total : ℚ) / system = share)
    (hrep : binary64.Representable share) (hpercent : share * 100 = percent)
    (hle : total ≤ 2 ^ 53 ∧ system ≤ 2 ^ 53 ∧ percent ≤ 2 ^ 53) :
    (h.posted instantOf i).value = some (percent : ℚ) := by
  rw [h.value_posted, History.share, cpuShare, htotal, hsystem, F64.nearest_natCast hle.1,
    F64.nearest_natCast hle.2.1, hshare, Format.nearest_eq_self hrep, sharePercent, hcpus,
    UInt64.toNat_one, Nat.cast_one, F64.nearest_one, mul_one, Format.nearest_eq_self hrep, hpercent,
    F64.nearest_natCast hle.2.2]

/-- Half of all CPU time in the last interval is posted as 25 percent for a container that has
consumed a quarter of it so far, and as 50 percent for one that has consumed half.  A container
that has been idle since the last tick is posted with what it consumed before. -/
theorem posted_depends_on_past :
    let instantOf : String → Option Int := fun _ ↦ none
    let h := twoTicks (0, 100) (50, 200) (by decide)
    let h' := twoTicks (1000, 2000) (1050, 2100) (by decide)
    let idle := twoTicks (1000, 2000) (1000, 2500) (by decide)
    (SameInterval h h' 0 ∧ h.posted instantOf 1 ≠ h'.posted instantOf 1) ∧
      idle.total 0 = idle.total 1 ∧ idle.posted instantOf 1 ≠ 0 := by
  intro instantOf h h' idle
  have hquarter : (h.posted instantOf 1).value = some ((25 : ℕ) : ℚ) :=
    value_posted_of_share instantOf 50 200 25 (1 / 4) rfl rfl rfl
      (by norm_num) ⟨1, -2, by decide, by decide, by norm_num⟩ (by norm_num) (by decide)
  have hhalf : (h'.posted instantOf 1).value = some ((50 : ℕ) : ℚ) :=
    value_posted_of_share instantOf 1050 2100 50 (1 / 2) rfl rfl rfl
      (by norm_num) ⟨1, -1, by decide, by decide, by norm_num⟩ (by norm_num) (by decide)
  refine ⟨⟨⟨by decide, by decide, rfl⟩, fun heq ↦ ?_⟩, rfl, ?_⟩
  · rw [heq, hhalf] at hquarter
    norm_num at hquarter
  · exact (idle.posted_eq_zero_iff instantOf 1).not.mpr (by decide)

/-- Containers with the same share of all CPU time so far are no such case. -/
theorem posted_eq_half :
    let instantOf : String → Option Int := fun _ ↦ none
    let h := twoTicks (50, 100) (100, 200) (by decide)
    let h' := twoTicks (1000, 2000) (1050, 2100) (by decide)
    h.posted instantOf 1 = h'.posted instantOf 1 ∧ h.posted instantOf 1 ≠ 0 := by
  intro instantOf h h'
  have hsame : SameInterval h h' 0 := ⟨by decide, by decide, rfl⟩
  have hshare : h.share 1 = h'.share 1 := by
    have hexact : ∀ total system : ℕ, total ≤ 2 ^ 53 ∧ system ≤ 2 ^ 53 →
        binary64.nearest (binary64.nearest (total : ℚ) / binary64.nearest (system : ℚ)) =
          binary64.nearest ((total : ℚ) / system) := fun total system hle ↦ by
      rw [F64.nearest_natCast hle.1, F64.nearest_natCast hle.2]
    refine (hexact 100 200 (by decide)).trans (Eq.trans ?_ (hexact 1050 2100 (by decide)).symm)
    norm_num
  obtain ⟨hequal, -, hzero⟩ := posted_eq instantOf h h' 0 hsame
  exact ⟨hequal (Or.inr hshare), hzero.not.mpr (by decide)⟩

end OneShot

end Swarmagent.Docker
