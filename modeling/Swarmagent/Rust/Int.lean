import Mathlib.Algebra.BigOperators.Group.List.Basic
import Mathlib.Algebra.GroupWithZero.Nat

/-!
# Saturating arithmetic

The saturating operations on `u64`, which stop at the ends of the range instead of wrapping
around, and what they compute as numbers.

A sum that is taken with them is the exact sum, or the largest number if that is less
(`toNat_foldl_saturatingAdd`), so that the order of the summands does not matter
(`cappedSum_perm`).
-/

namespace Swarmagent.Rust

/-- `a.saturating_sub(b)`. -/
def saturatingSub (a b : UInt64) : UInt64 := .ofNat (a.toNat - b.toNat)

/-- `a.saturating_add(b)`. -/
def saturatingAdd (a b : UInt64) : UInt64 := .ofNat (min (a.toNat + b.toNat) (2 ^ 64 - 1))

/-- `a.saturating_mul(b)`. -/
def saturatingMul (a b : UInt64) : UInt64 := .ofNat (min (a.toNat * b.toNat) (2 ^ 64 - 1))

@[simp] theorem toNat_max (a b : UInt64) : (max a b).toNat = max a.toNat b.toNat := by
  rw [Nat.max_def]
  exact apply_ite UInt64.toNat (a ≤ b) b a

@[simp] theorem toNat_min (a b : UInt64) : (min a b).toNat = min a.toNat b.toNat := by
  rw [Nat.min_def]
  exact apply_ite UInt64.toNat (a ≤ b) a b

theorem max_of_le {a b : UInt64} (h : b ≤ a) : max a b = a :=
  UInt64.toNat_inj.mp ((toNat_max a b).trans (Nat.max_eq_left (UInt64.le_iff_toNat_le.mp h)))

theorem min_of_le {a b : UInt64} (h : a ≤ b) : min a b = a :=
  UInt64.toNat_inj.mp ((toNat_min a b).trans (Nat.min_eq_left (UInt64.le_iff_toNat_le.mp h)))

@[simp] theorem toNat_saturatingSub (a b : UInt64) :
    (saturatingSub a b).toNat = a.toNat - b.toNat := by
  have ha : a.toNat < 2 ^ 64 := a.toNat_lt
  rw [saturatingSub, UInt64.toNat_ofNat_of_lt']
  show a.toNat - b.toNat < 2 ^ 64
  omega

@[simp] theorem saturatingSub_zero (a : UInt64) : saturatingSub a 0 = a :=
  UInt64.toNat_inj.mp (toNat_saturatingSub a 0)

@[simp] theorem toNat_saturatingAdd (a b : UInt64) :
    (saturatingAdd a b).toNat = min (a.toNat + b.toNat) (2 ^ 64 - 1) := by
  rw [saturatingAdd, UInt64.toNat_ofNat_of_lt']
  show min (a.toNat + b.toNat) (2 ^ 64 - 1) < 2 ^ 64
  omega

/-! ## Sums -/

/-- The sum of some counters, or the largest `u64` if that is less. -/
def cappedSum {ι : Type*} (counter : ι → UInt64) (l : List ι) : ℕ :=
  min (2 ^ 64 - 1) (l.map fun x ↦ (counter x).toNat).sum

section Sums

variable {ι : Type*} (counter : ι → UInt64)

theorem cappedSum_perm {l l' : List ι} (h : l.Perm l') :
    cappedSum counter l = cappedSum counter l' := by
  rw [cappedSum, cappedSum, (h.map _).sum_eq]

/-- A saturating sum that has come to some number goes on from there. -/
theorem toNat_foldl_saturatingAdd_from (l : List ι) (a : UInt64) :
    (l.foldl (fun a x ↦ saturatingAdd a (counter x)) a).toNat =
      min (2 ^ 64 - 1) (a.toNat + (l.map fun x ↦ (counter x).toNat).sum) := by
  induction l generalizing a with
  | nil =>
      have ha : a.toNat < 2 ^ 64 := a.toNat_lt
      rw [List.foldl_nil, List.map_nil, List.sum_nil]
      omega
  | cons x l ih =>
      rw [List.foldl_cons, ih, toNat_saturatingAdd, List.map_cons, List.sum_cons]
      omega

/-- **A saturating sum** is the exact sum, cut off at the end of the range. -/
theorem toNat_foldl_saturatingAdd (l : List ι) :
    (l.foldl (fun a x ↦ saturatingAdd a (counter x)) 0).toNat = cappedSum counter l := by
  rw [toNat_foldl_saturatingAdd_from, UInt64.toNat_zero, Nat.zero_add]
  rfl

end Sums

/-- Two accumulators that have nothing to do with each other. -/
theorem foldl_pair {ι α β : Type*} (f : α → ι → α) (g : β → ι → β) (l : List ι) (a : α) (b : β) :
    l.foldl (fun (a, b) x ↦ (f a x, g b x)) (a, b) = (l.foldl f a, l.foldl g b) := by
  induction l generalizing a b with
  | nil => rfl
  | cons x l ih => exact ih (f a x) (g b x)

end Swarmagent.Rust
