import Swarmagent.Docker.Stats
import Swarmagent.Kubernetes.Summary
import Mathlib.Tactic.FieldSimp
import Mathlib.Tactic.NormNum

/-!
# One percentage, two scales

Both providers report the CPU usage of a container in `cpuPercentage`, relative to the host.  The
Docker provider computes it as the Docker CLI does, so that a container which keeps all `n` CPUs
busy is at `100 * n` percent.  The Kubernetes provider divides by the capacity of the node, so
that the same container is at 100 percent.

For the same usage the two figures differ by the factor `n`, whatever the counters and the
interval: they agree on hosts with one CPU only (`cpuPercentage_eq_iff`).
-/

namespace Swarmagent

open Docker Kubernetes

/-- Between the two samples of the answer, an interval of `t` nanoseconds on a host with `n` CPUs,
the container used `u` nanoseconds of CPU time. -/
structure Spends (stats : Stats) (n t u : ℕ) : Prop where
  total : stats.cpuStats.cpuUsage.totalUsage.toNat =
    stats.precpuStats.cpuUsage.totalUsage.toNat + u
  /-- The host's counter sums the time of all CPUs. -/
  system : ∃ s₀ s, stats.precpuStats.systemCpuUsage = some s₀ ∧
    stats.cpuStats.systemCpuUsage = some s ∧ s.toNat = s₀.toNat + n * t
  cpus : ∃ c, stats.cpuStats.onlineCpus = some c ∧ c.toNat = n

/-- Every container of the summary uses `u` nanoseconds of CPU time in `t` nanoseconds. -/
def UsesNanoCores (summary : Summary) (t u : ℕ) : Prop :=
  ∀ pod ∈ summary.pods, ∀ c ∈ pod.containers, ∃ sample w, c.cpu = some sample ∧
    sample.usageNanoCores = some w ∧ w.toNat * t = u * 10 ^ 9

section CpuPercentage

variable (instantOf : String → Option Int) {n t u : ℕ}

/-- What Docker's figure comes to: the CPUs in use, in percent. -/
theorem cpuPercentage_of_spends {stats : Stats} (hn : 0 < n) (h : Spends stats n t u)
    {osType : String} (hos : isWindows osType = false) (id : String) :
    (containerStatusFromStats instantOf stats osType id).cpuPercentage = (u : ℚ) / t * 100 := by
  obtain ⟨s₀, s, hs₀, hs, hsystem⟩ := h.system
  obtain ⟨c, hc, hcpus⟩ := h.cpus
  have hnq : (n : ℚ) ≠ 0 := by exact_mod_cast hn.ne'
  have honline : onlineCpus stats.cpuStats = (n : ℚ) := by
    simp [onlineCpus, hc, hcpus, hn.ne']
  rw [cpuPercentage_of_linux instantOf stats hos, calculateCpuPercentUnix_eq, h.total, hs₀, hs,
    honline]
  simp only [Option.getD_some, hsystem, Nat.add_sub_cancel_left, Nat.cast_mul]
  rcases eq_or_ne (t : ℚ) 0 with ht | ht
  · simp [ht]
  · field_simp

/-- What the kubelet's figure comes to: the part of all CPUs in use, in percent. -/
theorem cpuPercentage_of_usesNanoCores {summary : Summary} (hn : 0 < n) (ht : 0 < t)
    (h : UsesNanoCores summary t u) {metas : Finmap fun _ : String ↦ PodMeta}
    {e : ContainerStatus ℚ} (he : e ∈ summary.containerStatuses metas (n : ℚ)) :
    e.cpuPercentage = (u : ℚ) / t / n * 100 := by
  obtain ⟨pod, hpod, c, hc, podMeta, idx, rfl⟩ := exists_of_mem_containerStatuses he
  obtain ⟨sample, w, hcpu, hw, husage⟩ := h pod hpod c hc
  have hnq : (n : ℚ) ≠ 0 := by exact_mod_cast hn.ne'
  have htq : (t : ℚ) ≠ 0 := by exact_mod_cast ht.ne'
  have hcapacity : (n : ℚ) * 10 ^ 9 > 0 := by positivity
  have husage : (w.toNat : ℚ) * t = 10 ^ 9 * u := by
    rw [mul_comm ((10 : ℚ) ^ 9)]
    exact_mod_cast husage
  show (pct ((c.cpu.bind fun s ↦ s.usageNanoCores).getD 0).toNat ((n : ℚ) * 10 ^ 9) : ℚ) = _
  rw [hcpu, Option.bind_some, hw, Option.getD_some, pct, if_pos hcapacity]
  field_simp
  exact husage

/-- **When the two providers agree.**  For the same usage, on a host with `n` CPUs, they report
the same percentage exactly if `n` is 1. -/
theorem cpuPercentage_eq_iff (hn : 1 ≤ n) (ht : 0 < t) (hu : 0 < u) {stats : Stats}
    (hstats : Spends stats n t u) {osType : String} (hos : isWindows osType = false) (id : String)
    {summary : Summary} (hsummary : UsesNanoCores summary t u)
    (metas : Finmap fun _ : String ↦ PodMeta) :
    ∀ e ∈ summary.containerStatuses metas (n : ℚ),
      (containerStatusFromStats instantOf stats osType id).cpuPercentage = e.cpuPercentage ↔
        n = 1 := by
  intro e he
  have hnq : (n : ℚ) ≠ 0 := by exact_mod_cast (Nat.pos_of_ne_zero (by omega)).ne'
  have hshare : (u : ℚ) / t ≠ 0 :=
    div_ne_zero (by exact_mod_cast hu.ne') (by exact_mod_cast ht.ne')
  rw [cpuPercentage_of_spends instantOf hn hstats hos,
    cpuPercentage_of_usesNanoCores hn ht hsummary he]
  constructor
  · intro h
    have hscale : (u : ℚ) / t = u / t / n := mul_right_cancel₀ (by norm_num) h
    rw [eq_div_iff hnq, mul_eq_left₀ hshare] at hscale
    exact_mod_cast hscale
  · rintro rfl
    simp

/-! ### A container that keeps one CPU busy -/

/-- One second on a host with `n` CPUs, of which the container used one. -/
def busyStats (n : UInt64) : Stats where
  name := "/web"
  id := "web"
  read := ""
  preread := ""
  numProcs := 0
  networks := none
  pidsCurrent := none
  ioServiceBytesRecursive := none
  cpuStats := { cpuUsage := .ofTotal 3000000000,
                systemCpuUsage := some (9000000000 + n * 1000000000), onlineCpus := some n }
  precpuStats := { cpuUsage := .ofTotal 2000000000,
                   systemCpuUsage := some 9000000000, onlineCpus := some n }
  memoryStats := { stats := none, usage := none, limit := none, privateworkingset := none }

/-- The same usage, as the kubelet reports it. -/
def busySummary : Summary where
  pods := [{ name := "web-1", ns := "prod", network := none,
             containers := [{ name := "web", cpu := some { usageNanoCores := some 1000000000 },
                              memory := none }] }]

theorem busySummary_usesNanoCores : UsesNanoCores busySummary 1000000000 1000000000 := by
  intro pod hpod c hc
  rw [List.mem_singleton.mp hpod, List.mem_singleton] at hc
  exact ⟨_, 1000000000, by rw [hc], rfl, by decide⟩

/-- On two CPUs, the same usage is 100 percent for Docker and 50 percent for the kubelet. -/
theorem cpuPercentage_ne :
    let instantOf : String → Option Int := fun _ ↦ none
    Spends (busyStats 2) 2 1000000000 1000000000 ∧
      UsesNanoCores busySummary 1000000000 1000000000 ∧
      ∃ e ∈ busySummary.containerStatuses ∅ ((2 : ℕ) : ℚ),
        (containerStatusFromStats instantOf (busyStats 2) "linux" "web").cpuPercentage ≠
          e.cpuPercentage := by
  intro instantOf
  have hspends : Spends (busyStats 2) 2 1000000000 1000000000 :=
    ⟨by decide, ⟨_, _, rfl, rfl, by decide⟩, ⟨_, rfl, by decide⟩⟩
  refine ⟨hspends, busySummary_usesNanoCores, _, List.mem_singleton_self _, ?_⟩
  rw [cpuPercentage_of_spends instantOf (by decide) hspends (by decide),
    cpuPercentage_of_usesNanoCores (by decide) (by decide) busySummary_usesNanoCores
      (List.mem_singleton_self _)]
  norm_num

/-- On one CPU the two agree. -/
theorem cpuPercentage_eq_iff_one :
    let instantOf : String → Option Int := fun _ ↦ none
    ∀ e ∈ busySummary.containerStatuses ∅ ((1 : ℕ) : ℚ),
      (containerStatusFromStats instantOf (busyStats 1) "linux" "web").cpuPercentage =
        e.cpuPercentage ↔ 1 = 1 :=
  cpuPercentage_eq_iff _ (by decide) (by decide) (by decide)
    ⟨by decide, ⟨_, _, rfl, rfl, by decide⟩, ⟨_, rfl, by decide⟩⟩ (by decide) "web"
    busySummary_usesNanoCores ∅

end CpuPercentage

end Swarmagent
