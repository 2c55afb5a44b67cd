import Mathlib.Algebra.Order.Round
import Mathlib.Data.Int.Log
import Mathlib.Tactic.Linarith
import Mathlib.Tactic.Positivity
import Mathlib.Tactic.Ring

/-!
# Rounding to binary formats

A binary format has the numbers `k * 2 ^ e`, where `k` has a given number of bits and `e` is at
least a given exponent.  Any other number is rounded to the nearest of them, and halfway between
two of them to the one whose `k` is even.

* No number of the format is nearer than the one rounded to (`abs_nearest_sub_le`).  So rounding
  keeps the numbers of the format (`nearest_eq_self`) and the order (`nearest_mono`).
* What is rounded to 0 is at most half the least positive number (`nearest_eq_zero_iff`,
  `nearest_nonneg_iff`), and what is rounded to a number below a bound does not reach half a step
  below that bound (`nearest_lt_iff`).
* Elsewhere rounding changes a number by a small part of it (`abs_nearest_sub_le_div`).

How large a number of the format may be is left open here.
-/

namespace Machine

section Even

variable {K : Type*} [Field K] [LinearOrder K] [IsStrictOrderedRing K] [FloorRing K]

/-- The nearest integer, and the even one of two. -/
def roundEven (x : K) : ℤ := if 2 * Int.fract x = 1 ∧ Even ⌊x⌋ then ⌊x⌋ else round x

theorem abs_sub_roundEven (x : K) : |x - roundEven x| = |x - round x| := by
  unfold roundEven
  split
  · next h =>
      have hfract : Int.fract x = 1 - Int.fract x := by linarith [h.1]
      rw [abs_sub_round_eq_min, ← hfract, min_self, Int.self_sub_floor, Int.abs_fract]
  · rfl

theorem roundEven_le (x : K) (k : ℤ) : |x - roundEven x| ≤ |x - k| :=
  (abs_sub_roundEven x).trans_le (round_le x k)

theorem abs_sub_roundEven_le (x : K) : |x - roundEven x| ≤ 1 / 2 :=
  (abs_sub_roundEven x).trans_le (abs_sub_round x)

@[simp] theorem roundEven_intCast (k : ℤ) : roundEven (k : K) = k := by
  rw [roundEven, Int.fract_intCast, if_neg (by simp), round_intCast]

/-- Halfway between two integers. -/
theorem roundEven_add_half (k : ℤ) :
    roundEven ((k : K) + 1 / 2) = if Even k then k else k + 1 := by
  have hfract : Int.fract (1 / 2 : K) = 1 / 2 := by
    rw [Int.fract_eq_self]
    constructor <;> norm_num
  have hfloor : ⌊(k : K) + 1 / 2⌋ = k := by
    rw [Int.floor_intCast_add, Int.floor_eq_zero_iff.mpr, add_zero]
    constructor <;> norm_num
  have hround : round ((k : K) + 1 / 2) = k + 1 := by
    rw [round_intCast_add, one_div, round_two_inv]
  have htie : 2 * Int.fract ((k : K) + 1 / 2) = 1 := by
    rw [Int.fract_intCast_add, hfract]
    norm_num
  rw [roundEven, hfloor, hround]
  simp only [htie, true_and]

/-- A number that is not halfway is nearer to one integer than to all others. -/
theorem eq_roundEven_of_lt {x : K} {k : ℤ} (h : |x - k| < 1 / 2) : roundEven x = k := by
  have hle := abs_sub_roundEven_le x
  rw [abs_lt] at h
  rw [abs_le] at hle
  have hlt : ((roundEven x - k : ℤ) : K) < 1 := by
    push_cast
    linarith [h.2, hle.1]
  have hgt : ((-1 : ℤ) : K) < (roundEven x - k : ℤ) := by
    push_cast
    linarith [h.1, hle.2]
  have hlt : roundEven x - k < 1 := by exact_mod_cast hlt
  have hgt : -1 < roundEven x - k := by exact_mod_cast hgt
  omega

theorem roundEven_eq_zero {x : K} (h : |x| ≤ 1 / 2) : roundEven x = 0 := by
  rcases h.lt_or_eq with hlt | heq
  · exact eq_roundEven_of_lt (by rwa [Int.cast_zero, sub_zero])
  · rcases (abs_eq (by positivity)).mp heq with rfl | rfl
    · rw [← zero_add (1 / 2 : K), ← Int.cast_zero, roundEven_add_half, if_pos Even.zero]
    · rw [show (-(1 / 2) : K) = ((-1 : ℤ) : K) + 1 / 2 by norm_num, roundEven_add_half,
        if_neg (by decide)]
      rfl

theorem roundEven_neg (x : K) : roundEven (-x) = -roundEven x := by
  by_cases h : |x - round x| < 1 / 2
  · have hx := eq_roundEven_of_lt h
    rw [hx]
    refine eq_roundEven_of_lt ?_
    rwa [Int.cast_neg, ← neg_sub', abs_neg]
  · -- halfway, so both are given by the parity of the floor
    have heq : |x - round x| = 1 / 2 := le_antisymm (abs_sub_round x) (not_lt.mp h)
    rw [abs_sub_round_eq_min] at heq
    have hfract : Int.fract x = 1 / 2 := by
      rcases min_choice (Int.fract x) (1 - Int.fract x) with hmin | hmin <;> rw [hmin] at heq <;>
        linarith
    have hx : x = (⌊x⌋ : K) + 1 / 2 := by rw [← hfract, Int.floor_add_fract]
    have hneg : -x = ((-⌊x⌋ - 1 : ℤ) : K) + 1 / 2 := by
      rw [hx, Int.floor_intCast_add, show ⌊(1 / 2 : K)⌋ = 0 from
        Int.floor_eq_zero_iff.mpr ⟨by norm_num, by norm_num⟩]
      push_cast
      ring
    rw [hneg, roundEven_add_half]
    conv_rhs => rw [hx, roundEven_add_half]
    have hparity : Even (-⌊x⌋ - 1) ↔ ¬Even ⌊x⌋ := by
      rw [Int.even_sub_one, even_neg]
    simp only [hparity]
    by_cases heven : Even ⌊x⌋
    · simp only [heven, not_true_eq_false, if_true, if_false]
      ring
    · simp only [heven, not_false_eq_true, if_true, if_false]
      ring

end Even

/-! ## Formats -/

/-- A binary format: the number of bits of a significand, and the exponent of the least positive
number. -/
structure Format where
  prec : ℕ
  minExp : ℤ
  prec_pos : 0 < prec

namespace Format

variable {K : Type*} [Field K] [LinearOrder K] [IsStrictOrderedRing K] [FloorRing K]
variable (fmt : Format)

/-- The numbers of the format. -/
def Representable (x : K) : Prop :=
  ∃ k e : ℤ, |k| ≤ 2 ^ fmt.prec ∧ fmt.minExp ≤ e ∧ x = k * 2 ^ e

/-- Around `x`, the numbers of the format are the multiples of 2 to this power. -/
def exponent (x : K) : ℤ := max (Int.log 2 |x| + 1 - fmt.prec) fmt.minExp

/-- The nearest number of the format, and the even one of two. -/
def nearest (x : K) : K := roundEven (x / 2 ^ fmt.exponent x) * 2 ^ fmt.exponent x

theorem two_zpow_pos (e : ℤ) : (0 : K) < 2 ^ e := zpow_pos two_pos e

theorem two_zpow_sub_one (e : ℤ) : (2 : K) ^ (e - 1) = 2 ^ e / 2 := by
  rw [zpow_sub_one₀ two_pos.ne', div_eq_mul_inv]

variable {fmt} {x y : K}

@[simp] theorem nearest_zero : fmt.nearest (0 : K) = 0 := by
  rw [nearest, zero_div, ← Int.cast_zero, roundEven_intCast, Int.cast_zero, zero_mul]

@[simp] theorem nearest_neg (x : K) : fmt.nearest (-x) = -fmt.nearest x := by
  rw [nearest, exponent, abs_neg, ← exponent, neg_div, roundEven_neg, Int.cast_neg, neg_mul,
    ← nearest]

omit [LinearOrder K] [IsStrictOrderedRing K] [FloorRing K] in
theorem Representable.neg (h : fmt.Representable x) : fmt.Representable (-x) := by
  obtain ⟨k, e, hk, he, rfl⟩ := h
  exact ⟨-k, e, by rwa [abs_neg], he, by push_cast; ring⟩

/-- A number is less than `2 ^ prec` of its steps. -/
theorem abs_lt_exponent (x : K) : |x| < 2 ^ fmt.prec * 2 ^ fmt.exponent x := by
  have hlog := Int.lt_zpow_succ_log_self (b := 2) (by decide) |x|
  rw [← zpow_natCast, ← zpow_add₀ two_ne_zero]
  refine lt_of_lt_of_le (by exact_mod_cast hlog) (zpow_le_zpow_right₀ one_le_two ?_)
  rw [exponent]
  omega

/-- Unless its exponent is the least, a number is at least `2 ^ (prec - 1)` of its steps. -/
theorem exponent_le_abs (hx : x ≠ 0) (h : fmt.minExp < fmt.exponent x) :
    2 ^ (fmt.prec - 1) * 2 ^ fmt.exponent x ≤ |x| := by
  have hlog := Int.zpow_log_le_self (b := 2) (by decide) (abs_pos.mpr hx)
  have hpos := fmt.prec_pos
  rw [← zpow_natCast, ← zpow_add₀ two_ne_zero]
  refine le_trans (zpow_le_zpow_right₀ one_le_two ?_) (by exact_mod_cast hlog)
  rw [exponent] at h ⊢
  omega

/-- How far a number is rounded, in steps. -/
theorem abs_nearest_sub (x : K) : |fmt.nearest x - x| =
    |x / 2 ^ fmt.exponent x - roundEven (x / 2 ^ fmt.exponent x)| * 2 ^ fmt.exponent x := by
  have hpos := two_zpow_pos (K := K) (fmt.exponent x)
  conv_rhs => rw [← abs_of_pos hpos, ← abs_mul, sub_mul, abs_of_pos hpos,
    div_mul_cancel₀ _ hpos.ne', abs_sub_comm]
  rfl

/-- No multiple of a step is nearer. -/
theorem abs_nearest_sub_le_mul (x : K) (k : ℤ) :
    |fmt.nearest x - x| ≤ |k * 2 ^ fmt.exponent x - x| := by
  have hpos := two_zpow_pos (K := K) (fmt.exponent x)
  calc |fmt.nearest x - x|
      = |x / 2 ^ fmt.exponent x - roundEven (x / 2 ^ fmt.exponent x)| * 2 ^ fmt.exponent x :=
        abs_nearest_sub x
    _ ≤ |x / 2 ^ fmt.exponent x - k| * 2 ^ fmt.exponent x :=
        mul_le_mul_of_nonneg_right (roundEven_le _ k) hpos.le
    _ = |k * 2 ^ fmt.exponent x - x| := by
        rw [← abs_of_pos hpos, ← abs_mul, sub_mul, abs_of_pos hpos, div_mul_cancel₀ _ hpos.ne',
          abs_sub_comm]

/-- Towards 0 from `x`, the least number with the same steps. -/
theorem exists_mul_sub_eq (hx : x ≠ 0) (h : fmt.minExp < fmt.exponent x) :
    ∃ m : ℤ, |m * 2 ^ fmt.exponent x - x| = |x| - 2 ^ (fmt.prec - 1) * 2 ^ fmt.exponent x := by
  have hle := exponent_le_abs hx h
  rcases lt_or_gt_of_ne hx with hneg | hpos
  · refine ⟨-2 ^ (fmt.prec - 1), ?_⟩
    rw [abs_of_neg hneg] at hle ⊢
    push_cast
    rw [neg_mul, abs_of_nonneg (by linarith)]
    ring
  · refine ⟨2 ^ (fmt.prec - 1), ?_⟩
    rw [abs_of_pos hpos] at hle ⊢
    push_cast
    rw [abs_of_nonpos (by linarith)]
    ring

/-- **No number of the format is nearer** than the one rounded to. -/
theorem abs_nearest_sub_le {z : K} (hz : fmt.Representable z) (x : K) :
    |fmt.nearest x - x| ≤ |z - x| := by
  obtain ⟨k, e, hk, he, rfl⟩ := hz
  rcases le_or_gt (fmt.exponent x) e with hle | hlt
  · -- a multiple of the step
    obtain ⟨n, hn⟩ := Int.eq_ofNat_of_zero_le (sub_nonneg.mpr hle)
    have hmul : (k : K) * 2 ^ e = (k * 2 ^ n : ℤ) * 2 ^ fmt.exponent x := by
      rw [show e = n + fmt.exponent x by omega, zpow_add₀ two_ne_zero, zpow_natCast]
      push_cast
      ring
    rw [hmul]
    exact abs_nearest_sub_le_mul x _
  · -- in smaller steps, so it is not beyond the least number with the steps of `x`
    rcases eq_or_ne x 0 with rfl | hx
    · rw [nearest_zero, sub_zero, abs_zero]
      exact abs_nonneg _
    · obtain ⟨m, hm⟩ := exists_mul_sub_eq hx (he.trans_lt hlt)
      have hk : |(k : K)| ≤ 2 ^ fmt.prec := by exact_mod_cast hk
      have hsmall : |(k : K) * 2 ^ e| ≤ 2 ^ (fmt.prec - 1) * 2 ^ fmt.exponent x := by
        have hpos := fmt.prec_pos
        calc |(k : K) * 2 ^ e| = |(k : K)| * 2 ^ e := by
              rw [abs_mul, abs_of_pos (two_zpow_pos (K := K) e)]
          _ ≤ 2 ^ fmt.prec * 2 ^ e := mul_le_mul_of_nonneg_right hk (two_zpow_pos e).le
          _ ≤ 2 ^ (fmt.prec - 1) * 2 ^ fmt.exponent x := by
              rw [← zpow_natCast, ← zpow_natCast, ← zpow_add₀ two_ne_zero,
                ← zpow_add₀ two_ne_zero]
              exact zpow_le_zpow_right₀ one_le_two (by omega)
      calc |fmt.nearest x - x| ≤ |m * 2 ^ fmt.exponent x - x| := abs_nearest_sub_le_mul x m
        _ = |x| - 2 ^ (fmt.prec - 1) * 2 ^ fmt.exponent x := hm
        _ ≤ |x| - |(k : K) * 2 ^ e| := sub_le_sub_left hsmall _
        _ ≤ |k * 2 ^ e - x| := by
            rw [abs_sub_comm _ x]
            exact abs_sub_abs_le_abs_sub x _

/-- What is rounded to is a number of the format. -/
theorem representable_nearest (x : K) : fmt.Representable (fmt.nearest x) := by
  refine ⟨_, _, ?_, le_max_right _ _, rfl⟩
  have hpos := two_zpow_pos (K := K) (fmt.exponent x)
  have hlt : |x / 2 ^ fmt.exponent x| < 2 ^ fmt.prec := by
    rw [abs_div, abs_of_pos hpos, div_lt_iff₀ hpos]
    exact abs_lt_exponent x
  have hnear := abs_sub_roundEven_le (x / 2 ^ fmt.exponent x)
  have hround : |(roundEven (x / 2 ^ fmt.exponent x) : K)| < 2 ^ fmt.prec + 1 := by
    have := abs_sub_abs_le_abs_sub (roundEven (x / 2 ^ fmt.exponent x) : K)
      (x / 2 ^ fmt.exponent x)
    rw [abs_sub_comm] at this
    linarith
  have hround : |roundEven (x / 2 ^ fmt.exponent x)| < 2 ^ fmt.prec + 1 := by exact_mod_cast hround
  omega

/-- The numbers of the format are kept. -/
theorem nearest_eq_self (h : fmt.Representable x) : fmt.nearest x = x := by
  have hle := abs_nearest_sub_le h x
  rw [sub_self, abs_zero] at hle
  exact sub_eq_zero.mp (abs_eq_zero.mp (le_antisymm hle (abs_nonneg _)))

@[simp] theorem nearest_nearest (x : K) : fmt.nearest (fmt.nearest x) = fmt.nearest x :=
  nearest_eq_self (representable_nearest x)

/-- **Rounding keeps the order.** -/
theorem nearest_mono (h : x ≤ y) : fmt.nearest x ≤ fmt.nearest y := by
  rcases h.eq_or_lt with rfl | hlt
  · exact le_rfl
  · by_contra! hgt
    -- each is at least as near to the one as to the other, so `y` is not above `x`
    have hx := abs_nearest_sub_le (representable_nearest y : fmt.Representable _) x
    have hy := abs_nearest_sub_le (representable_nearest x : fmt.Representable _) y
    rw [← sq_le_sq] at hx hy
    nlinarith

theorem nearest_nonneg (h : 0 ≤ x) : 0 ≤ fmt.nearest x := nearest_zero (K := K) ▸ nearest_mono h

theorem nearest_nonpos (h : x ≤ 0) : fmt.nearest x ≤ 0 := nearest_zero (K := K) ▸ nearest_mono h

theorem abs_nearest (x : K) : |fmt.nearest x| = fmt.nearest |x| := by
  rcases le_total 0 x with h | h
  · rw [abs_of_nonneg h, abs_of_nonneg (nearest_nonneg h)]
  · rw [abs_of_nonpos h, abs_of_nonpos (nearest_nonpos h), nearest_neg]

omit [LinearOrder K] [IsStrictOrderedRing K] [FloorRing K] in
theorem representable_zpow {e : ℤ} (h : fmt.minExp ≤ e) : fmt.Representable ((2 : K) ^ e) :=
  ⟨1, e, by simpa using one_le_pow₀ (one_le_two : (1 : ℤ) ≤ 2), h, by rw [Int.cast_one, one_mul]⟩

/-! ### Where rounding matters -/

/-- **Underflow.**  What is rounded to 0 is at most half the least positive number. -/
theorem nearest_eq_zero_iff : fmt.nearest x = 0 ↔ |x| ≤ 2 ^ (fmt.minExp - 1) := by
  have hhalf : (2 : K) ^ (fmt.minExp - 1) = 2 ^ fmt.minExp / 2 := two_zpow_sub_one _
  constructor
  · intro h
    have hnearest : fmt.nearest |x| = 0 := by rw [← abs_nearest, h, abs_zero]
    have hle := abs_nearest_sub_le (representable_zpow (K := K) (le_refl fmt.minExp)) |x|
    rw [hnearest, zero_sub, abs_neg, abs_abs] at hle
    have hpos := two_zpow_pos (K := K) fmt.minExp
    rcases le_abs'.mp hle with hle | hle <;> linarith
  · intro h
    rcases eq_or_ne x 0 with rfl | hx
    · exact nearest_zero
    · have hexp : fmt.exponent x = fmt.minExp := by
        have hlog := (Int.zpow_log_le_self (b := 2) (by decide) (abs_pos.mpr hx)).trans h
        have hlog : Int.log 2 |x| ≤ fmt.minExp - 1 :=
          (zpow_le_zpow_iff_right₀ (one_lt_two : (1 : K) < 2)).mp (by exact_mod_cast hlog)
        have hpos := fmt.prec_pos
        rw [exponent]
        omega
      have hpos := two_zpow_pos (K := K) fmt.minExp
      have hround : roundEven (x / 2 ^ fmt.minExp) = 0 := by
        refine roundEven_eq_zero ?_
        rw [abs_div, abs_of_pos hpos, div_le_iff₀ hpos]
        linarith
      rw [nearest, hexp, hround, Int.cast_zero, zero_mul]

/-- A negative number is not kept negative if it is rounded to 0. -/
theorem nearest_nonneg_iff : 0 ≤ fmt.nearest x ↔ -2 ^ (fmt.minExp - 1) ≤ x := by
  constructor
  · intro h
    rcases le_total 0 x with hx | hx
    · exact (neg_nonpos.mpr (two_zpow_pos _).le).trans hx
    · have hzero := nearest_eq_zero_iff.mp (le_antisymm (nearest_nonpos hx) h)
      exact (abs_le.mp hzero).1
  · intro h
    have hzero : fmt.nearest (-2 ^ (fmt.minExp - 1) : K) = 0 := by
      rw [nearest_eq_zero_iff, abs_neg, abs_of_pos (two_zpow_pos _)]
    exact hzero.symm.trans_le (nearest_mono h)

/-- Half a step below a power of 2, a number is rounded to that power. -/
theorem nearest_sub_half {e : ℤ} (h : fmt.minExp + fmt.prec ≤ e) :
    fmt.nearest ((2 : K) ^ e - 2 ^ (e - fmt.prec - 1)) = 2 ^ e := by
  have hpos := fmt.prec_pos
  have hsplit : (2 : K) ^ e = 2 ^ fmt.prec * 2 ^ (e - fmt.prec) := by
    rw [← zpow_natCast, ← zpow_add₀ two_ne_zero]
    congr 1
    ring
  have hhalf : (2 : K) ^ (e - fmt.prec - 1) = 2 ^ (e - fmt.prec) / 2 := two_zpow_sub_one _
  have hstep := two_zpow_pos (K := K) (e - fmt.prec)
  have htwo : (2 : K) ≤ 2 ^ fmt.prec := le_self_pow₀ one_le_two hpos.ne'
  have hx : (0 : K) < 2 ^ e - 2 ^ (e - fmt.prec - 1) := by
    rw [hsplit, hhalf]
    nlinarith
  have hlog : Int.log 2 ((2 : K) ^ e - 2 ^ (e - fmt.prec - 1)) = e - 1 := by
    refine le_antisymm ?_ ?_
    · have := (Int.lt_zpow_iff_log_lt (b := 2) (x := e) (by decide) hx).mp
        (by rw [Nat.cast_ofNat, hhalf]; linarith)
      omega
    · refine (Int.zpow_le_iff_le_log (by decide) hx).mp ?_
      rw [Nat.cast_ofNat, two_zpow_sub_one, hsplit, hhalf]
      nlinarith
  have hexp : fmt.exponent ((2 : K) ^ e - 2 ^ (e - fmt.prec - 1)) = e - fmt.prec := by
    rw [exponent, abs_of_pos hx, hlog]
    omega
  have hquotient : ((2 : K) ^ e - 2 ^ (e - fmt.prec - 1)) / 2 ^ (e - fmt.prec) =
      ((2 ^ fmt.prec - 1 : ℤ) : K) + 1 / 2 := by
    rw [hsplit, hhalf]
    push_cast
    field_simp
    ring
  have hodd : ¬Even ((2 : ℤ) ^ fmt.prec - 1) := by
    rw [Int.even_sub_one, not_not]
    exact Even.pow_of_ne_zero even_two hpos.ne'
  rw [nearest, hexp, hquotient, roundEven_add_half, if_neg hodd, sub_add_cancel, hsplit]
  push_cast
  rfl

/-- **Overflow.**  What is rounded to a number below a power of 2 is half a step below it. -/
theorem nearest_lt_iff {e : ℤ} (h : fmt.minExp + fmt.prec ≤ e) :
    fmt.nearest x < 2 ^ e ↔ x < 2 ^ e - 2 ^ (e - fmt.prec - 1) := by
  constructor
  · intro hlt
    by_contra! hle
    exact absurd ((nearest_sub_half h).symm.trans_le (nearest_mono hle)) (not_le.mpr hlt)
  · intro hlt
    refine lt_of_le_of_ne ((nearest_mono hlt.le).trans_eq (nearest_sub_half h)) fun heq ↦ ?_
    -- the number one step below would be nearer
    have hstep := two_zpow_pos (K := K) (e - fmt.prec)
    have hhalf : (2 : K) ^ (e - fmt.prec - 1) = 2 ^ (e - fmt.prec) / 2 := two_zpow_sub_one _
    have hbelow : fmt.Representable ((2 : K) ^ e - 2 ^ (e - fmt.prec)) := by
      refine ⟨2 ^ fmt.prec - 1, e - fmt.prec, ?_, by omega, ?_⟩
      · have hone : (1 : ℤ) ≤ 2 ^ fmt.prec := one_le_pow₀ one_le_two
        rw [abs_of_nonneg (by omega)]
        omega
      · push_cast
        rw [sub_mul, one_mul, ← zpow_natCast, ← zpow_add₀ two_ne_zero]
        congr 2
        ring
    have hnear := abs_nearest_sub_le hbelow x
    rw [heq, abs_of_pos (by linarith)] at hnear
    rcases le_abs'.mp hnear with hle | hle <;> linarith

/-- **Elsewhere** a number is changed by a small part of it. -/
theorem abs_nearest_sub_le_div (h : 2 ^ (fmt.minExp + fmt.prec - 1) ≤ |x|) :
    |fmt.nearest x - x| ≤ |x| / 2 ^ fmt.prec := by
  have hx : 0 < |x| := (two_zpow_pos _).trans_le h
  have hlog := (Int.zpow_le_iff_le_log (b := 2) (by decide) hx).mp (by exact_mod_cast h)
  have hexp : fmt.exponent x = Int.log 2 |x| + 1 - fmt.prec := by
    rw [exponent]
    omega
  have hle := Int.zpow_log_le_self (b := 2) (by decide) hx
  have hpos := two_zpow_pos (K := K) (fmt.exponent x)
  calc |fmt.nearest x - x|
      = |x / 2 ^ fmt.exponent x - roundEven (x / 2 ^ fmt.exponent x)| * 2 ^ fmt.exponent x :=
        abs_nearest_sub x
    _ ≤ 1 / 2 * 2 ^ fmt.exponent x :=
        mul_le_mul_of_nonneg_right (abs_sub_roundEven_le _) hpos.le
    _ = 2 ^ Int.log 2 |x| / 2 ^ fmt.prec := by
        rw [hexp, zpow_sub₀ two_ne_zero, zpow_add_one₀ two_ne_zero, zpow_natCast]
        ring
    _ ≤ |x| / 2 ^ fmt.prec :=
        div_le_div_of_nonneg_right (by exact_mod_cast hle) (by positivity)

end Format

end Machine
