import Swarmagent.Machine.Rounding
import Mathlib.Algebra.Order.Field.Rat
import Mathlib.Data.Rat.Floor

/-!
# `f64`

The numbers of `f64`, which are rational numbers of the binary format with 53 bits, two infinities
and one that is none.  The result of an operation is the exact one, rounded.

The sign of a zero is not kept.  It shows when something is divided by it, and when it is written.
Nothing is divided by a zero here, and figures that may be zero with a sign are not written.

The formulas of the agent are stated for any arithmetic (`Arith`), as some of what is to be shown
of them is about exact numbers.
-/

namespace Swarmagent.Rust

open Machine (Format)

/-! ## Integers from numbers -/

/-- `x.round()`, to the nearest integer and away from zero if there are two. -/
def roundF64 (x : ℚ) : ℤ := if 0 ≤ x then ⌊x + 1 / 2⌋ else ⌈x - 1 / 2⌉

/-- `x as u64` of an integer, which stops at the ends of the range. -/
def asU64 (n : ℤ) : UInt64 := .ofNat (min n.toNat (2 ^ 64 - 1))

/-- `x as i32` of an integer. -/
def asI32 (n : ℤ) : ℤ := max (-2 ^ 31) (min n (2 ^ 31 - 1))

/-! ## Arithmetic -/

/-- What the formulas of the agent are computed in. -/
class Arith (F : Type) extends Zero F, One F, NatCast F, Mul F, Div F, LT F, LE F where
  /-- A literal. -/
  ofRat : ℚ → F
  isFinite : F → Bool
  /-- `x.round() as u64`. -/
  roundU64 : F → UInt64
  /-- `x.round() as i32`. -/
  roundI32 : F → ℤ
  decEq : DecidableEq F
  decLT : DecidableLT F
  decLE : DecidableLE F
  natCast_zero : ((0 : ℕ) : F) = 0

attribute [instance (50)] Arith.toZero Arith.toOne Arith.toNatCast Arith.toMul Arith.toDiv
attribute [instance (50)] Arith.toLT Arith.toLE
attribute [reducible, instance (50)] Arith.decEq Arith.decLT Arith.decLE

/-- For the literal of percentages. -/
instance atLeastTwo_hundred : Nat.AtLeastTwo 100 := inferInstance

/-- Exact arithmetic. -/
instance : Arith ℚ where
  ofRat x := x
  isFinite _ := true
  roundU64 x := asU64 (roundF64 x)
  roundI32 x := asI32 (roundF64 x)
  decEq := inferInstance
  decLT := inferInstance
  decLE := inferInstance
  natCast_zero := Nat.cast_zero

@[simp] theorem ofRat_rat (x : ℚ) : (Arith.ofRat x : ℚ) = x := rfl

/-! ## Numbers -/

/-- The format of `f64`. -/
def binary64 : Format where
  prec := 53
  minExp := -1074
  prec_pos := by decide

/-- A number of `f64` that is finite. -/
def IsF64 (x : ℚ) : Prop := binary64.nearest x = x ∧ |x| < 2 ^ 1024

inductive F64 where
  | finite (x : ℚ) (h : IsF64 x)
  | inf (negative : Bool)
  | nan
deriving DecidableEq

namespace F64

/-- The nearest number, which is infinite if that is too large. -/
def ofRat (x : ℚ) : F64 :=
  if h : |binary64.nearest x| < 2 ^ 1024 then
    .finite (binary64.nearest x) ⟨Format.nearest_nearest x, h⟩
  else .inf (x < 0)

def isFinite : F64 → Bool
  | finite _ _ => true
  | _ => false

def mul : F64 → F64 → F64
  | finite x _, finite y _ => ofRat (x * y)
  | finite x _, inf s => if x = 0 then nan else inf ((x < 0) != s)
  | inf s, finite y _ => if y = 0 then nan else inf (s != (y < 0))
  | inf s, inf s' => inf (s != s')
  | _, _ => nan

def div : F64 → F64 → F64
  | finite x _, finite y _ => if y = 0 then if x = 0 then nan else inf (x < 0) else ofRat (x / y)
  | finite _ _, inf _ => ofRat 0
  | inf s, finite y _ => inf (s != (y < 0))
  | _, _ => nan

def lt : F64 → F64 → Prop
  | finite x _, finite y _ => x < y
  | finite _ _, inf s => s = false
  | inf s, finite _ _ => s = true
  | inf s, inf s' => s = true ∧ s' = false
  | _, _ => False

instance : Zero F64 := ⟨ofRat 0⟩
instance : One F64 := ⟨ofRat 1⟩
instance : NatCast F64 := ⟨fun n ↦ ofRat n⟩
instance : Mul F64 := ⟨mul⟩
instance : Div F64 := ⟨div⟩
instance : LT F64 := ⟨lt⟩
instance : LE F64 := ⟨fun x y ↦ x < y ∨ x = y ∧ x ≠ nan⟩

instance : DecidableLT F64 := fun x y ↦
  match x, y with
  | finite x _, finite y _ => inferInstanceAs (Decidable (x < y))
  | finite _ _, inf s => inferInstanceAs (Decidable (s = false))
  | inf s, finite _ _ => inferInstanceAs (Decidable (s = true))
  | inf s, inf s' => inferInstanceAs (Decidable (s = true ∧ s' = false))
  | finite _ _, nan | inf _, nan | nan, _ => inferInstanceAs (Decidable False)

instance : DecidableLE F64 := fun x y ↦ inferInstanceAs (Decidable (x < y ∨ x = y ∧ x ≠ nan))

def roundU64 : F64 → UInt64
  | finite x _ => asU64 (roundF64 x)
  | inf s => if s then 0 else .ofNat (2 ^ 64 - 1)
  | nan => 0

def roundI32 : F64 → ℤ
  | finite x _ => asI32 (roundF64 x)
  | inf s => if s then -2 ^ 31 else 2 ^ 31 - 1
  | nan => 0

theorem roundI32_range (x : F64) : -2 ^ 31 ≤ x.roundI32 ∧ x.roundI32 < 2 ^ 31 := by
  unfold roundI32
  split
  · rw [asI32]
    omega
  · split <;> decide
  · decide

instance : Arith F64 where
  ofRat := ofRat
  isFinite := isFinite
  roundU64 := roundU64
  roundI32 := roundI32
  decEq := inferInstance
  decLT := inferInstance
  decLE := inferInstance
  natCast_zero := congrArg ofRat Nat.cast_zero

/-! ### Results of operations -/

/-- The number, if it is finite. -/
def value : F64 → Option ℚ
  | finite x _ => some x
  | _ => none

/-- From here on, numbers are rounded to an infinity. -/
def overflow : ℚ := 2 ^ 1024 - 2 ^ 970

theorem abs_nearest_lt_iff {x : ℚ} : |binary64.nearest x| < 2 ^ 1024 ↔ |x| < overflow := by
  rw [Format.abs_nearest]
  exact Format.nearest_lt_iff (e := 1024) (by decide)

section Values

variable {x y : F64} {a b q : ℚ}

theorem value_eq_some_iff : x.value = some a ↔ ∃ h, x = finite a h := by
  constructor
  · intro h
    cases x with
    | finite b hb =>
        obtain rfl := Option.some.inj h
        exact ⟨hb, rfl⟩
    | _ => cases h
  · rintro ⟨h, rfl⟩
    rfl

theorem eq_of_value (hx : x.value = some a) (hy : y.value = some a) : x = y := by
  obtain ⟨_, rfl⟩ := value_eq_some_iff.mp hx
  obtain ⟨_, rfl⟩ := value_eq_some_iff.mp hy
  rfl

theorem isFinite_iff : x.isFinite = true ↔ ∃ a, x.value = some a := by
  cases x <;> simp [value, isFinite]

theorem isFinite_of_value (h : x.value = some a) : x.isFinite = true := isFinite_iff.mpr ⟨a, h⟩

theorem value_ofRat (h : |q| < overflow) : (ofRat q).value = some (binary64.nearest q) := by
  rw [ofRat, dif_pos (abs_nearest_lt_iff.mpr h)]
  rfl

theorem ofRat_of_overflow (h : overflow ≤ |q|) : ofRat q = inf (q < 0) :=
  dif_neg fun hlt ↦ absurd (abs_nearest_lt_iff.mp hlt) (not_lt.mpr h)

theorem isFinite_ofRat_iff : (ofRat q).isFinite = true ↔ |q| < overflow := by
  rcases lt_or_ge |q| overflow with h | h
  · exact iff_of_true (isFinite_of_value (value_ofRat h)) h
  · rw [ofRat_of_overflow h]
    exact iff_of_false Bool.false_ne_true (not_lt.mpr h)

theorem ofRat_value (h : x.value = some a) : ofRat a = x := by
  obtain ⟨ha, rfl⟩ := value_eq_some_iff.mp h
  have hlt : |a| < overflow := abs_nearest_lt_iff.mp (by rw [ha.1]; exact ha.2)
  refine eq_of_value (value_ofRat hlt) ?_
  rw [ha.1, h]

theorem mul_eq (hx : x.value = some a) (hy : y.value = some b) : x * y = ofRat (a * b) := by
  obtain ⟨_, rfl⟩ := value_eq_some_iff.mp hx
  obtain ⟨_, rfl⟩ := value_eq_some_iff.mp hy
  rfl

theorem div_eq (hx : x.value = some a) (hy : y.value = some b) (hb : b ≠ 0) :
    x / y = ofRat (a / b) := by
  obtain ⟨_, rfl⟩ := value_eq_some_iff.mp hx
  obtain ⟨_, rfl⟩ := value_eq_some_iff.mp hy
  exact if_neg hb

theorem lt_iff (hx : x.value = some a) (hy : y.value = some b) : x < y ↔ a < b := by
  obtain ⟨_, rfl⟩ := value_eq_some_iff.mp hx
  obtain ⟨_, rfl⟩ := value_eq_some_iff.mp hy
  rfl

theorem le_iff (hx : x.value = some a) (hy : y.value = some b) : x ≤ y ↔ a ≤ b := by
  obtain ⟨_, rfl⟩ := value_eq_some_iff.mp hx
  obtain ⟨_, rfl⟩ := value_eq_some_iff.mp hy
  show a < b ∨ _ ↔ _
  simp [le_iff_lt_or_eq]

end Values

/-! ### Integers and quotients -/

theorem representable_natCast {n : ℕ} (h : n ≤ 2 ^ 53) : binary64.Representable (n : ℚ) :=
  ⟨n, 0, by rw [Nat.abs_cast]; exact_mod_cast h, by decide, by simp⟩

theorem nearest_natCast {n : ℕ} (h : n ≤ 2 ^ 53) : binary64.nearest (n : ℚ) = n :=
  Format.nearest_eq_self (representable_natCast h)

/-- A power of 2 bounds what is rounded, too. -/
theorem nearest_le_two_pow {q : ℚ} {k : ℕ} (h : q ≤ 2 ^ k) : binary64.nearest q ≤ 2 ^ k := by
  have hrep : binary64.Representable ((2 : ℚ) ^ k) := by
    rw [← zpow_natCast]
    exact Format.representable_zpow (le_trans (by decide : (-1074 : ℤ) ≤ 0) (Int.natCast_nonneg k))
  exact (Format.nearest_mono h).trans_eq (Format.nearest_eq_self hrep)

theorem two_pow_lt_overflow {k : ℕ} (h : k < 1024) : (2 : ℚ) ^ k < overflow := by
  have hle : (2 : ℚ) ^ k ≤ 2 ^ 1023 := pow_le_pow_right₀ one_le_two (by omega)
  have hlt : (2 : ℚ) ^ 970 < 2 ^ 1023 := pow_lt_pow_right₀ one_lt_two (by decide)
  have hdouble : (2 : ℚ) ^ 1024 = 2 * 2 ^ 1023 := pow_succ' 2 1023
  rw [overflow, hdouble]
  generalize (2 : ℚ) ^ 1023 = x at *
  generalize (2 : ℚ) ^ 970 = y at *
  linarith

/-- What is bounded by a power of 2 that is not too large stays finite. -/
theorem value_ofRat_of_le {q : ℚ} {k : ℕ} (hk : k < 1024) (h : |q| ≤ 2 ^ k) :
    (ofRat q).value = some (binary64.nearest q) :=
  value_ofRat (h.trans_lt (two_pow_lt_overflow hk))

@[simp] theorem value_zero : (0 : F64).value = some 0 :=
  (value_ofRat_of_le (k := 0) (by decide) (by simp)).trans (congrArg some Format.nearest_zero)

theorem value_natCast {n : ℕ} {k : ℕ} (hk : k < 1024) (h : n ≤ 2 ^ k) :
    (n : F64).value = some (binary64.nearest (n : ℚ)) :=
  value_ofRat_of_le hk (by rw [Nat.abs_cast]; exact_mod_cast h)

theorem nearest_one : binary64.nearest (1 : ℚ) = 1 := by
  simpa using nearest_natCast (n := 1) (by decide)

theorem value_one : (1 : F64).value = some 1 :=
  (value_ofRat_of_le (k := 0) (by decide) (by simp)).trans (congrArg some nearest_one)

theorem value_hundred : (100 : F64).value = some 100 :=
  (value_natCast (n := 100) (k := 7) (by decide) (by decide)).trans
    (congrArg some (nearest_natCast (n := 100) (by decide)))

section Products

variable {a b : ℚ}

/-- A product is finite if its factors are and its exact value is not too large. -/
theorem isFinite_mul_iff (hb : |b| < overflow) : (ofRat a * ofRat b).isFinite = true ↔
    |a| < overflow ∧ |binary64.nearest a * binary64.nearest b| < overflow := by
  rcases lt_or_ge |a| overflow with ha | ha
  · rw [mul_eq (value_ofRat ha) (value_ofRat hb), isFinite_ofRat_iff]
    simp only [ha, true_and]
  · refine iff_of_false (fun h ↦ ?_) fun h ↦ absurd h.1 (not_lt.mpr ha)
    -- an infinity times a number is an infinity or no number
    obtain ⟨_, hb⟩ := value_eq_some_iff.mp (value_ofRat hb)
    rw [ofRat_of_overflow ha, hb] at h
    change (if binary64.nearest b = 0 then nan else inf _).isFinite = true at h
    split at h <;> cases h

/-- A product is not negative if it is rounded to 0. -/
theorem mul_nonneg_iff (ha : |a| < overflow) (hb : |b| < overflow)
    (h : |binary64.nearest a * binary64.nearest b| < overflow) :
    ofRat a * ofRat b ≥ 0 ↔ -2 ^ (-1075 : ℤ) ≤ binary64.nearest a * binary64.nearest b := by
  rw [mul_eq (value_ofRat ha) (value_ofRat hb), ge_iff_le, le_iff value_zero (value_ofRat h)]
  exact Format.nearest_nonneg_iff

end Products

section U64

variable (n : UInt64)

theorem value_u64 : (n.toNat : F64).value = some (binary64.nearest (n.toNat : ℚ)) :=
  value_natCast (k := 64) (by decide) n.toNat_lt.le

theorem nearest_u64_le : binary64.nearest (n.toNat : ℚ) ≤ 2 ^ 64 :=
  nearest_le_two_pow (by exact_mod_cast n.toNat_lt.le)

theorem nearest_u64_nonneg : 0 ≤ binary64.nearest (n.toNat : ℚ) :=
  Format.nearest_nonneg (Nat.cast_nonneg _)

variable {n} in
theorem one_le_nearest_u64 (h : n ≠ 0) : 1 ≤ binary64.nearest (n.toNat : ℚ) := by
  have hpos : 1 ≤ n.toNat := Nat.pos_of_ne_zero fun hzero ↦ h (UInt64.toNat_inj.mp hzero)
  exact nearest_one.symm.trans_le (Format.nearest_mono (by exact_mod_cast hpos))

@[simp] theorem nearest_u64_zero : binary64.nearest (((0 : UInt64).toNat : ℕ) : ℚ) = 0 := by
  rw [UInt64.toNat_zero, Nat.cast_zero, Format.nearest_zero]

variable {n} in
theorem u64_pos_iff : (n.toNat : F64) > 0 ↔ n ≠ 0 := by
  rw [gt_iff_lt, lt_iff value_zero (value_u64 n)]
  constructor
  · rintro hpos rfl
    rw [nearest_u64_zero] at hpos
    exact lt_irrefl 0 hpos
  · exact fun h ↦ zero_lt_one.trans_le (one_le_nearest_u64 h)

variable {n} in
theorem u64_eq_zero_iff : (n.toNat : F64) = 0 ↔ n = 0 := by
  constructor
  · intro h
    by_contra hne
    have hvalue := value_u64 n
    rw [h, value_zero, Option.some.injEq] at hvalue
    exact absurd (hvalue ▸ one_le_nearest_u64 hne) (by norm_num)
  · rintro rfl
    exact eq_of_value (value_u64 0) (by rw [nearest_u64_zero]; exact value_zero)

end U64

/-- Numbers that are not very small are changed by a small part of them. -/
theorem abs_nearest_sub_le {q : ℚ} (h : 1 / 2 ^ 64 ≤ q) :
    |binary64.nearest q - q| ≤ q / 2 ^ 53 := by
  have hpos : 0 ≤ q := le_trans (by norm_num) h
  have hle : (2 : ℚ) ^ (-1022 : ℤ) ≤ 1 / 2 ^ 64 := by
    have hzpow : (1 : ℚ) / 2 ^ 64 = 2 ^ (-64 : ℤ) := by norm_num
    rw [hzpow]
    exact zpow_le_zpow_right₀ one_le_two (by decide)
  have habs : |q| = q := abs_of_nonneg hpos
  have hnear : |binary64.nearest q - q| ≤ |q| / 2 ^ 53 :=
    Format.abs_nearest_sub_le_div ((hle.trans h).trans_eq habs.symm)
  rwa [habs] at hnear

/-- What is bounded below by a power of 2 stays so. -/
theorem le_nearest {q : ℚ} (h : 1 / 2 ^ 64 ≤ q) : 1 / 2 ^ 64 ≤ binary64.nearest q := by
  have hrep : binary64.Representable ((1 : ℚ) / 2 ^ 64) := by
    rw [show (1 : ℚ) / 2 ^ 64 = 2 ^ (-64 : ℤ) by norm_num]
    exact Format.representable_zpow (by decide)
  exact (Format.nearest_eq_self hrep).symm.trans_le (Format.nearest_mono h)

section Percent

variable {x y : F64} {a b : ℚ}

/-- A quotient that is bounded. -/
theorem value_div_of_le (hx : x.value = some a) (hy : y.value = some b) (ha : 0 ≤ a) (hb : 0 < b)
    {k : ℕ} (hk : k < 1024) (h : a / b ≤ 2 ^ k) :
    (x / y).value = some (binary64.nearest (a / b)) := by
  rw [div_eq hx hy hb.ne']
  exact value_ofRat_of_le hk ((abs_of_nonneg (div_nonneg ha hb.le)).trans_le h)

/-- A product of bounded factors. -/
theorem value_mul_of_le (hx : x.value = some a) (hy : y.value = some b) (ha : 0 ≤ a) (hb : 0 ≤ b)
    {j k : ℕ} (hjk : j + k < 1024) (hj : a ≤ 2 ^ j) (hk : b ≤ 2 ^ k) :
    (x * y).value = some (binary64.nearest (a * b)) := by
  rw [mul_eq hx hy]
  refine value_ofRat_of_le hjk ?_
  rw [abs_of_nonneg (mul_nonneg ha hb), pow_add]
  exact mul_le_mul hj hk hb (by positivity)

/-- A part of something in percent, which is finite unless what it is a part of is very small. -/
theorem value_percent (hx : x.value = some a) (hy : y.value = some b) (ha : 0 ≤ a) (hb : 0 < b)
    {k : ℕ} (hk : k ≤ 1000) (h : a / b ≤ 2 ^ k) :
    (x / y * 100).value = some (binary64.nearest (binary64.nearest (a / b) * 100)) :=
  value_mul_of_le (k := 7) (value_div_of_le hx hy ha hb (by omega) h) value_hundred
    (Format.nearest_nonneg (div_nonneg ha hb.le)) (by norm_num) (by omega)
    (nearest_le_two_pow h) (by norm_num)

/-- A part of something is at most 100 percent of it. -/
theorem exists_percent (hx : x.value = some a) (hy : y.value = some b) (ha : 0 ≤ a) (hb : 0 < b)
    (h : a ≤ b) : ∃ p, (x / y * 100).value = some p ∧ 0 ≤ p ∧ p ≤ 100 := by
  have hone : a / b ≤ 1 := div_le_one_of_le₀ h hb.le
  have hquotient : 0 ≤ binary64.nearest (a / b) := Format.nearest_nonneg (div_nonneg ha hb.le)
  have hle : binary64.nearest (a / b) ≤ 1 := by
    have := nearest_le_two_pow (k := 0) (q := a / b) (by rwa [pow_zero])
    rwa [pow_zero] at this
  refine ⟨_, value_percent hx hy ha hb (k := 0) (by decide) (by rwa [pow_zero]), ?_, ?_⟩
  · exact Format.nearest_nonneg (mul_nonneg hquotient (by norm_num))
  · have hhundred := nearest_natCast (n := 100) (by decide)
    rw [Nat.cast_ofNat] at hhundred
    refine (Format.nearest_mono ?_).trans_eq hhundred
    linarith

end Percent

/-! ### Amounts -/

theorem lt_inf {x : F64} {a : ℚ} (h : x.value = some a) : x < inf false := by
  obtain ⟨_, rfl⟩ := value_eq_some_iff.mp h
  rfl

/-- A comparison with `nan` is false. -/
theorem not_le_nan (x : F64) : ¬x ≤ nan := by
  rintro (h | ⟨rfl, h⟩)
  · cases x <;> exact h
  · exact h rfl

/-- A finite number that is not negative. -/
def IsAmount (x : F64) : Prop := ∃ a, x.value = some a ∧ 0 ≤ a

section Amounts

variable {x y : F64}

theorem div_inf {a : ℚ} (hx : x.value = some a) (s : Bool) : x / inf s = 0 := by
  obtain ⟨_, rfl⟩ := value_eq_some_iff.mp hx
  rfl

theorem IsAmount.isFinite (h : x.IsAmount) : x.isFinite = true := by
  obtain ⟨a, ha, -⟩ := h
  exact isFinite_of_value ha

theorem isAmount_zero : (0 : F64).IsAmount := ⟨0, value_zero, le_rfl⟩

theorem isAmount_u64 (n : UInt64) : (n.toNat : F64).IsAmount :=
  ⟨_, value_u64 n, nearest_u64_nonneg n⟩

theorem one_le_ofRat {q : ℚ} (h : 1 ≤ q) : (1 : F64) ≤ ofRat q := by
  rcases lt_or_ge |q| overflow with hlt | hge
  · refine (le_iff value_one (value_ofRat hlt)).mpr ?_
    exact nearest_one.symm.trans_le (Format.nearest_mono h)
  · rw [ofRat_of_overflow hge, decide_eq_false (by linarith)]
    exact Or.inl (lt_inf value_one)

/-- A percentage is finite unless what it is of is very small. -/
theorem isAmount_percent (n : UInt64) (h : (1 : F64) ≤ y) : (n.toNat / y * 100).IsAmount := by
  have hn := nearest_u64_nonneg n
  cases y with
  | finite b hb =>
      have hone : 1 ≤ b := (le_iff value_one rfl).mp h
      have hpos : 0 < b := zero_lt_one.trans_le hone
      have hle : binary64.nearest (n.toNat : ℚ) / b ≤ 2 ^ 64 :=
        (div_le_self hn hone).trans (nearest_u64_le n)
      refine ⟨_, value_percent (value_u64 n) rfl hn hpos (by decide) hle, ?_⟩
      exact Format.nearest_nonneg (mul_nonneg (Format.nearest_nonneg (div_nonneg hn hpos.le))
        (by norm_num))
  | inf s =>
      rw [div_inf (value_u64 n), mul_eq value_zero value_hundred, zero_mul]
      exact isAmount_zero
  | nan => exact absurd h (not_le_nan 1)

theorem one_le_u64 {n : UInt64} (h : n ≠ 0) : (1 : F64) ≤ n.toNat :=
  (le_iff value_one (value_u64 n)).mpr (one_le_nearest_u64 h)

end Amounts

end F64

end Swarmagent.Rust
