import Swarmagent.Docker.Stats
import Mathlib.Tactic.NormNum
import Mathlib.Tactic.Positivity

/-!
# Shares of CPU time

What the CPU formula comes to when it is computed with `f64`.  Nothing overflows, so a percentage
is always a finite number (`value_calculateCpuPercentUnix`).  It says which share of the CPU time it
was computed from, but for what is lost in rounding (`sharePercent_inj`), and in particular whether
there was one (`sharePercent_eq_zero_iff`).
-/

namespace Swarmagent.Docker

open Machine (Format)
open Rust

/-- The share `total / system` of all CPU time, as an `f64`, 0 if there was none. -/
def cpuShare (total system : UInt64) : ℚ :=
  binary64.nearest (binary64.nearest (total.toNat : ℚ) / binary64.nearest (system.toNat : ℚ))

/-- A share of so many CPUs in percent, as an `f64`. -/
def sharePercent (share : ℚ) (cpus : UInt64) : ℚ :=
  binary64.nearest (binary64.nearest (share * binary64.nearest (cpus.toNat : ℚ)) * 100)

section Share

variable {total system cpus : UInt64} {share share' : ℚ}

theorem cpuShare_eq_zero (h : total = 0 ∨ system = 0) : cpuShare total system = 0 := by
  unfold cpuShare
  rcases h with rfl | rfl
  · rw [F64.nearest_u64_zero, zero_div, Format.nearest_zero]
  · rw [F64.nearest_u64_zero, div_zero, Format.nearest_zero]

/-- A share that is not 0 is not very small. -/
theorem le_cpuShare (htotal : total ≠ 0) (hsystem : system ≠ 0) :
    1 / 2 ^ 64 ≤ cpuShare total system := by
  have hpos := zero_lt_one.trans_le (F64.one_le_nearest_u64 hsystem)
  refine F64.le_nearest ((div_le_div_iff₀ (by positivity) hpos).mpr ?_)
  rw [one_mul]
  calc binary64.nearest (system.toNat : ℚ) ≤ 1 * 2 ^ 64 := by
        rw [one_mul]
        exact F64.nearest_u64_le system
    _ ≤ binary64.nearest (total.toNat : ℚ) * 2 ^ 64 :=
        mul_le_mul_of_nonneg_right (F64.one_le_nearest_u64 htotal) (by positivity)

theorem cpuShare_eq_zero_iff : cpuShare total system = 0 ↔ total = 0 ∨ system = 0 := by
  refine ⟨fun h ↦ ?_, cpuShare_eq_zero⟩
  by_contra! hne
  have hle := le_cpuShare hne.1 hne.2
  rw [h] at hle
  exact absurd hle (by norm_num)

theorem cpuShare_eq_zero_or_le (total system : UInt64) :
    cpuShare total system = 0 ∨ 1 / 2 ^ 64 ≤ cpuShare total system := by
  by_cases h : total = 0 ∨ system = 0
  · exact Or.inl (cpuShare_eq_zero h)
  · exact Or.inr (le_cpuShare (not_or.mp h).1 (not_or.mp h).2)

/-- No share is larger than if all the time there can be was consumed in one nanosecond. -/
theorem quotient_le (total : UInt64) (hsystem : system ≠ 0) :
    binary64.nearest (total.toNat : ℚ) / binary64.nearest (system.toNat : ℚ) ≤ 2 ^ 64 := by
  have hone := F64.one_le_nearest_u64 hsystem
  refine (div_le_iff₀ (zero_lt_one.trans_le hone)).mpr ?_
  exact (F64.nearest_u64_le total).trans (le_mul_of_one_le_right (by positivity) hone)

@[simp] theorem sharePercent_zero (share : ℚ) : sharePercent share 0 = 0 := by
  simp [sharePercent]

@[simp] theorem zero_sharePercent (cpus : UInt64) : sharePercent 0 cpus = 0 := by
  simp [sharePercent]

/-- **What is lost in rounding** a percentage. -/
theorem abs_sharePercent_sub_le (hcpus : cpus ≠ 0) (hshare : share = 0 ∨ 1 / 2 ^ 64 ≤ share) :
    |sharePercent share cpus - share * binary64.nearest (cpus.toNat : ℚ) * 100| ≤
      share * binary64.nearest (cpus.toNat : ℚ) * 100 / 2 ^ 51 := by
  unfold sharePercent
  generalize hc : binary64.nearest (cpus.toNat : ℚ) = c
  have hone : 1 ≤ c := hc ▸ F64.one_le_nearest_u64 hcpus
  rcases hshare with rfl | hshare
  · simp
  · have hx : 1 / 2 ^ 64 ≤ share * c := hshare.trans (le_mul_of_one_le_right (by linarith) hone)
    have hy := F64.le_nearest hx
    have hfirst := F64.abs_nearest_sub_le hx
    generalize binary64.nearest (share * c) = y at hy hfirst
    have hsecond := F64.abs_nearest_sub_le (q := y * 100) (by linarith)
    rw [abs_le] at hfirst hsecond ⊢
    generalize binary64.nearest (y * 100) = z at hsecond
    constructor <;> linarith [hfirst.1, hfirst.2, hsecond.1, hsecond.2]

theorem sharePercent_eq_zero_iff (hshare : share = 0 ∨ 1 / 2 ^ 64 ≤ share) :
    sharePercent share cpus = 0 ↔ cpus = 0 ∨ share = 0 := by
  constructor
  · intro h
    by_contra! hne
    obtain ⟨hcpus, hne⟩ := hne
    have hnear := abs_sharePercent_sub_le hcpus hshare
    have hone := F64.one_le_nearest_u64 hcpus
    have hpos : 0 < share * binary64.nearest (cpus.toNat : ℚ) * 100 := by
      have : 0 < share := lt_of_lt_of_le (by norm_num) (hshare.resolve_left hne)
      positivity
    rw [h, zero_sub, abs_neg, abs_of_pos hpos] at hnear
    linarith
  · rintro (rfl | rfl)
    · exact sharePercent_zero share
    · exact zero_sharePercent cpus

/-- Percentages that are equal are those of shares that nearly are. -/
theorem sharePercent_inj (hcpus : cpus ≠ 0) (hshare : share = 0 ∨ 1 / 2 ^ 64 ≤ share)
    (hshare' : share' = 0 ∨ 1 / 2 ^ 64 ≤ share')
    (h : sharePercent share cpus = sharePercent share' cpus) :
    |share - share'| ≤ (share + share') / 2 ^ 51 := by
  have hnear := abs_sharePercent_sub_le hcpus hshare
  have hnear' := abs_sharePercent_sub_le hcpus hshare'
  have hone := F64.one_le_nearest_u64 hcpus
  rw [h] at hnear
  generalize sharePercent share' cpus = p at hnear hnear'
  generalize binary64.nearest (cpus.toNat : ℚ) = c at *
  rw [abs_le] at hnear hnear' ⊢
  have hc : 0 < c * 100 := by linarith
  constructor <;> refine le_of_mul_le_mul_right ?_ hc <;>
    linarith [hnear.1, hnear.2, hnear'.1, hnear'.2]

end Share

/-! ## The formula -/

section Formula

variable {total system cpus : UInt64}

/-- The number of CPUs is one that an integer can have. -/
theorem exists_onlineCpus (cur : CPUStats) :
    ∃ cpus : UInt64, onlineCpus cur = (cpus.toNat : F64) := by
  by_cases h : cur.onlineCpus.getD 0 = 0
  · have hlt : (cur.cpuUsage.percpuUsage.map List.length).getD 0 < 2 ^ 64 := by
      cases hlist : cur.cpuUsage.percpuUsage with
      | none => decide
      | some l => exact cur.cpuUsage.percpu_lt l hlist
    refine ⟨.ofNat ((cur.cpuUsage.percpuUsage.map List.length).getD 0), ?_⟩
    rw [UInt64.toNat_ofNat_of_lt' hlt]
    exact if_pos (F64.u64_eq_zero_iff.mpr h)
  · exact ⟨cur.onlineCpus.getD 0, if_neg (F64.u64_eq_zero_iff.not.mpr h)⟩

/-- The formula, for a system that has consumed something. -/
theorem value_share_mul (hsystem : system ≠ 0) :
    ((total.toNat : F64) / system.toNat * cpus.toNat * 100).value =
      some (sharePercent (cpuShare total system) cpus) := by
  have hsystemPos := zero_lt_one.trans_le (F64.one_le_nearest_u64 hsystem)
  have hle := quotient_le total hsystem
  have hshare : 0 ≤ cpuShare total system :=
    Format.nearest_nonneg (div_nonneg (F64.nearest_u64_nonneg total) hsystemPos.le)
  have hshareLe : cpuShare total system ≤ 2 ^ 64 := F64.nearest_le_two_pow hle
  have hquotient : ((total.toNat : F64) / system.toNat).value = some (cpuShare total system) :=
    F64.value_div_of_le (F64.value_u64 _) (F64.value_u64 _) (F64.nearest_u64_nonneg total)
      hsystemPos (k := 64) (by decide) hle
  have hproductLe : cpuShare total system * binary64.nearest (cpus.toNat : ℚ) ≤ 2 ^ 128 :=
    (mul_le_mul hshareLe (F64.nearest_u64_le cpus) (F64.nearest_u64_nonneg cpus)
      (by positivity)).trans_eq (by norm_num)
  have hproduct := F64.value_mul_of_le (j := 64) (k := 64) hquotient (F64.value_u64 cpus) hshare
    (F64.nearest_u64_nonneg cpus) (by decide) hshareLe (F64.nearest_u64_le cpus)
  exact F64.value_mul_of_le (j := 128) (k := 7) hproduct F64.value_hundred
    (Format.nearest_nonneg (mul_nonneg hshare (F64.nearest_u64_nonneg cpus))) (by norm_num)
    (by decide) (F64.nearest_le_two_pow hproductLe) (by norm_num)

/-- **The CPU formula** gives the share of the CPU time that was consumed between the samples. -/
theorem value_calculateCpuPercentUnix {cur : CPUStats} (hcpus : onlineCpus cur = (cpus.toNat : F64))
    (previousCpu previousSystem : UInt64) :
    (calculateCpuPercentUnix previousCpu previousSystem cur : F64).value =
      some (sharePercent (cpuShare (saturatingSub cur.cpuUsage.totalUsage previousCpu)
        (saturatingSub (cur.systemCpuUsage.getD 0) previousSystem)) cpus) := by
  unfold calculateCpuPercentUnix
  simp only [F64.u64_pos_iff, hcpus]
  split
  · next h => exact value_share_mul h.1
  · next h =>
      rw [not_and_or, not_not, not_not, or_comm] at h
      rw [cpuShare_eq_zero h, zero_sharePercent]
      exact F64.value_zero

theorem isAmount_calculateCpuPercentUnix (previousCpu previousSystem : UInt64) (cur : CPUStats) :
    (calculateCpuPercentUnix previousCpu previousSystem cur : F64).IsAmount := by
  obtain ⟨cpus, hcpus⟩ := exists_onlineCpus cur
  refine ⟨_, value_calculateCpuPercentUnix hcpus previousCpu previousSystem, ?_⟩
  have hshare : 0 ≤ cpuShare (saturatingSub cur.cpuUsage.totalUsage previousCpu)
      (saturatingSub (cur.systemCpuUsage.getD 0) previousSystem) :=
    Format.nearest_nonneg (div_nonneg (F64.nearest_u64_nonneg _) (F64.nearest_u64_nonneg _))
  have hproduct := mul_nonneg hshare (F64.nearest_u64_nonneg cpus)
  exact Format.nearest_nonneg (mul_nonneg (Format.nearest_nonneg hproduct) (by norm_num))

end Formula

end Swarmagent.Docker
