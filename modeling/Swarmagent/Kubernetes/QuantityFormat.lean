import Swarmagent.Kubernetes.Quantity
import Mathlib.Tactic.NormNum
import Mathlib.Tactic.Positivity

/-!
# The format of quantities

A quantity is a decimal number with a sign or without, in front of one suffix or one exponent.  The
parsers are to read every quantity that is not negative, and nothing else.

They miss this in three ways.  Two are that `e` and `E` stand in numbers and in suffixes:

* `1Ei` is split in front of the `i`, so that no quantity with the suffix `Ei` is read;
* a suffix is looked for behind an exponent too, and `e` is taken for one, so that `1e3Ki` and `1e`
  are read, which are no quantities.

The third is that numbers are rounded before they are compared with 0: `-1e-400` is read as 0.

There is nothing else.  In exact arithmetic every other quantity is read for what it is
(`parseQuantity_iff`), and with `f64` nothing else is read (`quantity_of_parse_iff`).
-/

namespace Swarmagent.Kubernetes

open Swarmagent.Rust
open Machine (Format)

/-! ## Quantities -/

/-- The documented suffixes. -/
inductive Suffix where
  | none | m | k | M | G | T | P | E | Ki | Mi | Gi | Ti | Pi | Ei
deriving DecidableEq

namespace Suffix

def text : Suffix → String
  | none => "" | m => "m" | k => "k" | M => "M" | G => "G" | T => "T" | P => "P" | E => "E"
  | Ki => "Ki" | Mi => "Mi" | Gi => "Gi" | Ti => "Ti" | Pi => "Pi" | Ei => "Ei"

/-- A decimal suffix stands for a power of 1000, a binary one for a power of 1024. -/
def factor : Suffix → ℚ
  | none => 1 | m => 1 / 1000
  | k => 1000 | M => 1000 ^ 2 | G => 1000 ^ 3 | T => 1000 ^ 4 | P => 1000 ^ 5 | E => 1000 ^ 6
  | Ki => 1024 | Mi => 1024 ^ 2 | Gi => 1024 ^ 3 | Ti => 1024 ^ 4 | Pi => 1024 ^ 5 | Ei => 1024 ^ 6

theorem factor_pos (s : Suffix) : 0 < s.factor := by
  cases s <;> norm_num [factor]

end Suffix

/-- A quantity, as it is written. -/
inductive Quantity where
  | suffixed (sign : Sign) (d : Decimal) (s : Suffix)
  | exponential (sign : Sign) (d : Decimal) (e : Exponent)

namespace Quantity

/-- The number that the quantity begins with. -/
def numeral : Quantity → Numeral
  | suffixed sign d _ => ⟨d, sign, none⟩
  | exponential sign d e => ⟨d, sign, some e⟩

def suffix : Quantity → Suffix
  | suffixed _ _ s => s
  | exponential _ _ _ => .none

def chars (q : Quantity) : List Char := q.numeral.chars ++ q.suffix.text.toList

def value (q : Quantity) : ℚ := q.numeral.value * q.suffix.factor

end Quantity

/-! ## Suffixes -/

/-- The factor, as it is written in the code, and rounded. -/
theorem multiplier_eq_map {F : Type} [Arith F] (suffix : String) :
    (multiplier suffix : Option F) = (multiplier suffix).map Arith.ofRat := by
  unfold multiplier
  split <;> rfl

/-- The suffixes of the code are the documented ones and `e`. -/
theorem multiplier_eq_some_iff {suffix : String} {factor : ℚ} :
    multiplier suffix = some factor ↔
      (∃ s : Suffix, suffix = s.text ∧ factor = s.factor) ∨ suffix = "e" ∧ factor = 10 ^ 18 := by
  constructor
  · intro h
    unfold multiplier at h
    split at h
    case h_9 => exact Or.inr ⟨rfl, (Option.some.inj h).symm⟩
    case h_16 => cases h
    all_goals
      obtain rfl := Option.some.inj h
      left
    · exact ⟨.none, rfl, rfl⟩
    · exact ⟨.m, rfl, by norm_num [Suffix.factor]⟩
    · exact ⟨.k, rfl, by norm_num [Suffix.factor]⟩
    · exact ⟨.M, rfl, by norm_num [Suffix.factor]⟩
    · exact ⟨.G, rfl, by norm_num [Suffix.factor]⟩
    · exact ⟨.T, rfl, by norm_num [Suffix.factor]⟩
    · exact ⟨.P, rfl, by norm_num [Suffix.factor]⟩
    · exact ⟨.E, rfl, by norm_num [Suffix.factor]⟩
    · exact ⟨.Ki, rfl, rfl⟩
    · exact ⟨.Mi, rfl, by norm_num [Suffix.factor]⟩
    · exact ⟨.Gi, rfl, by norm_num [Suffix.factor]⟩
    · exact ⟨.Ti, rfl, rfl⟩
    · exact ⟨.Pi, rfl, rfl⟩
    · exact ⟨.Ei, rfl, rfl⟩
  · rintro (⟨s, rfl, rfl⟩ | ⟨rfl, rfl⟩)
    · cases s <;> norm_num [multiplier, Suffix.text, Suffix.factor]
    · rfl

theorem multiplier_text (s : Suffix) : multiplier s.text = some s.factor :=
  multiplier_eq_some_iff.mpr (Or.inl ⟨s, rfl, rfl⟩)

theorem multiplier_e : multiplier "e" = some ((10 : ℚ) ^ 18) := rfl

theorem multiplier_pos {suffix : String} {factor : ℚ} (h : multiplier suffix = some factor) :
    0 < factor := by
  rcases multiplier_eq_some_iff.mp h with ⟨s, -, rfl⟩ | ⟨-, rfl⟩
  · exact s.factor_pos
  · positivity

theorem multiplier_le {suffix : String} {factor : ℚ} (h : multiplier suffix = some factor) :
    factor ≤ 2 ^ 60 := by
  rcases multiplier_eq_some_iff.mp h with ⟨s, -, rfl⟩ | ⟨-, rfl⟩
  · cases s <;> norm_num [Suffix.factor]
  · norm_num

theorem Suffix.text_eq_Ei_iff {s : Suffix} : s.text = "Ei" ↔ s = .Ei := by
  cases s <;> simp [Suffix.text]

/-- The number and the suffix are determined by the string. -/
theorem numeral_suffix_inj {n n' : Numeral} {suffix suffix' : String} {factor factor' : ℚ}
    (h : multiplier suffix = some factor) (hEi : suffix ≠ "Ei")
    (h' : multiplier suffix' = some factor') (hEi' : suffix' ≠ "Ei")
    (heq : n.chars ++ suffix.toList = n'.chars ++ suffix'.toList) : n = n' ∧ suffix = suffix' := by
  have hsplit := splitAt_numeral n h hEi
  rw [heq, splitAt_numeral n' h' hEi', Option.some.injEq, Prod.mk.injEq] at hsplit
  obtain ⟨hnumber, hsuffix⟩ := hsplit
  have hread := n.readNumeral_chars
  rw [← hnumber, n'.readNumeral_chars] at hread
  exact ⟨(Option.some.inj hread).symm, (String.toList_inj.mp hsuffix).symm⟩

/-! ## The suffix `Ei` -/

/-- In front of `Ei` the split comes too late. -/
theorem splitAt_Ei (n : Numeral) :
    splitAt (n.chars ++ "Ei".toList) (splitPoint (n.chars ++ "Ei".toList)) =
      some (n.chars ++ ['E'], ['i']) := by
  have hnum : ∀ c ∈ n.chars ++ ['E'], isNumeric c = true := by
    intro c hc
    rcases List.mem_append.mp hc with hc | hc
    · exact isNumeric_of_mem_chars hc
    · rw [List.mem_singleton.mp hc]
      decide
  have hsuffix : ∀ c ∈ ['i'].head?, isNumeric c = false := by
    intro c hc
    obtain rfl : 'i' = c := Option.some.inj hc
    decide
  have h := splitAt_suffix hnum hsuffix fun hnil ↦ absurd hnil (List.cons_ne_nil _ _)
  rwa [List.append_assoc] at h

theorem splitQuantity_Ei {raw : String} {n : Numeral}
    (h : (trim raw).toList = n.chars ++ "Ei".toList) :
    (splitQuantity raw : Option (ℚ × ℚ)) = none := by
  rw [Option.eq_none_iff_forall_ne_some]
  rintro ⟨q, m⟩ hread
  obtain ⟨n', suffix, hs, -, hm, hEi⟩ := splitQuantity_eq_some_iff.mp hread
  have hsplit := splitAt_Ei n
  rw [← h, hs, splitAt_numeral n' hm hEi, Option.some.injEq, Prod.mk.injEq] at hsplit
  have hi : suffix = "i" := String.toList_inj.mp hsplit.2
  rw [hi] at hm
  cases hm

/-! ## Every quantity is read -/

theorem isWhitespace_of_isNumeric {c : Char} (h : isNumeric c = true) : isWhitespace c = false := by
  unfold isNumeric at h
  simp only [Bool.or_eq_true, decide_eq_true_eq] at h
  rcases h with ((((h | rfl) | rfl) | rfl) | rfl) | rfl
  · have hrange : 48 ≤ c.toNat ∧ c.toNat ≤ 57 := by
      simpa [Char.isDigit, UInt32.le_iff_toNat_le] using h
    simp only [isWhitespace, Bool.or_eq_false_iff, Bool.and_eq_false_iff, decide_eq_false_iff_not]
    omega
  all_goals decide

theorem Suffix.not_isWhitespace {s : Suffix} {c : Char} (h : c ∈ s.text.toList) :
    isWhitespace c = false := by
  have hall : (s.text.toList.all fun c ↦ !isWhitespace c) = true := by cases s <;> rfl
  exact (Bool.not_eq_true' _).mp (List.all_eq_true.mp hall c h)

/-- A decimal number without sign and exponent in front of a suffix, between white space. -/
def decimalText (pre : List Char) (d : Decimal) (s : Suffix) (post : List Char) : String :=
  String.ofList (pre ++ (d.chars ++ s.text.toList) ++ post)

/-- A decimal number, as a number. -/
def decimalNumeral (d : Decimal) : Numeral := ⟨d, .absent, none⟩

theorem chars_decimalNumeral (d : Decimal) : (decimalNumeral d).chars = d.chars := by
  simp [decimalNumeral, Numeral.chars, Decimal.chars, Sign.chars, Numeral.exponentPart]

theorem value_decimalNumeral (d : Decimal) : (decimalNumeral d).value = d.value := by
  simp [decimalNumeral, Numeral.value, Sign.value]

theorem trim_decimalText {pre post : List Char} (hpre : ∀ c ∈ pre, isWhitespace c = true)
    (hpost : ∀ c ∈ post, isWhitespace c = true) (d : Decimal) (s : Suffix) :
    (trim (decimalText pre d s post)).toList = (decimalNumeral d).chars ++ s.text.toList := by
  have hblack : ∀ c ∈ d.chars ++ s.text.toList, isWhitespace c = false := by
    intro c hc
    rcases List.mem_append.mp hc with hc | hc
    · rw [← chars_decimalNumeral] at hc
      exact isWhitespace_of_isNumeric (isNumeric_of_mem_chars hc)
    · exact Suffix.not_isWhitespace hc
  rw [decimalText, trim_surrounded hpre hpost (fun c hc ↦ hblack c (List.mem_of_mem_head? hc))
    fun c hc ↦ hblack c (List.mem_of_mem_getLast? hc), chars_decimalNumeral]

/-- The two parsers, on a string that is split. -/
theorem parse_of_splitQuantity {raw : String} {q m : ℚ} (h : splitQuantity raw = some (q, m))
    (hnonneg : 0 ≤ q * m) : parseQuantityCores raw = some (q * m) ∧
      parseQuantityBytes ℚ raw = some (asU64 ⌊q * m + 1 / 2⌋) := by
  unfold parseQuantityCores parseQuantityBytes
  rw [h, Option.bind_some, Option.bind_some]
  have hround : roundF64 (q * m) = ⌊q * m + 1 / 2⌋ := if_pos hnonneg
  refine ⟨if_pos ⟨rfl, hnonneg⟩, (if_pos ⟨rfl, hnonneg⟩).trans (congrArg (some ∘ asU64) hround)⟩

/-- **Quantities are read for what they are**, with any suffix but `Ei`. -/
theorem parseQuantity_iff (d : Decimal) (s : Suffix) {pre post : List Char}
    (hpre : ∀ c ∈ pre, isWhitespace c = true) (hpost : ∀ c ∈ post, isWhitespace c = true) :
    (parseQuantityCores (decimalText pre d s post) = some (d.value * s.factor) ∧
        parseQuantityBytes ℚ (decimalText pre d s post) =
          some (.ofNat (min ⌊d.value * s.factor + 1 / 2⌋.toNat (2 ^ 64 - 1)))) ↔
      s ≠ .Ei := by
  have htrim := trim_decimalText hpre hpost d s
  constructor
  · rintro ⟨hcores, -⟩ rfl
    rw [parseQuantityCores, splitQuantity_Ei htrim] at hcores
    cases hcores
  · intro hEi
    have hsplit := splitQuantity_eq_some_iff.mpr ⟨decimalNumeral d, s.text, htrim,
      value_decimalNumeral d, multiplier_text s, fun h ↦ hEi (Suffix.text_eq_Ei_iff.mp h)⟩
    exact parse_of_splitQuantity hsplit (mul_nonneg d.value_nonneg s.factor_pos.le)

/-- `1`. -/
def oneDecimal : Decimal := ⟨⟨['1'], List.forall_mem_singleton.mpr rfl⟩, none, by decide⟩

theorem value_oneDecimal : oneDecimal.value = 1 := by
  have hdigits : oneDecimal.digits.value = 1 := by decide
  rw [Decimal.value, hdigits]
  norm_num [oneDecimal, fracChars]

theorem parseQuantity_iff_oneKi :
    (parseQuantityCores (decimalText [' '] oneDecimal .Ki ['\n']) =
          some (oneDecimal.value * Suffix.Ki.factor) ∧
        parseQuantityBytes ℚ (decimalText [' '] oneDecimal .Ki ['\n']) =
          some (.ofNat (min ⌊oneDecimal.value * Suffix.Ki.factor + 1 / 2⌋.toNat (2 ^ 64 - 1)))) ↔
      Suffix.Ki ≠ .Ei :=
  parseQuantity_iff oneDecimal .Ki (List.forall_mem_singleton.mpr rfl)
    (List.forall_mem_singleton.mpr rfl)

/-- `1Ei` is not read at all. -/
theorem exbi_not_read :
    decimalText [] oneDecimal .Ei [] = "1Ei" ∧ (parseQuantityCores "1Ei" : Option ℚ) = none ∧
      parseQuantityBytes ℚ "1Ei" = none ∧
      oneDecimal.value * Suffix.Ei.factor = 1024 ^ 6 := by
  have htext : decimalText [] oneDecimal .Ei [] = "1Ei" := by decide
  have hsplit : (splitQuantity "1Ei" : Option (ℚ × ℚ)) = none := by
    rw [← htext]
    exact splitQuantity_Ei
      (trim_decimalText (List.forall_mem_nil _) (List.forall_mem_nil _) oneDecimal .Ei)
  have hcores : (parseQuantityCores "1Ei" : Option ℚ) = none := by
    rw [parseQuantityCores, hsplit]
    rfl
  have hbytes : parseQuantityBytes ℚ "1Ei" = none := by
    rw [parseQuantityBytes, hsplit]
    rfl
  refine ⟨htext, hcores, hbytes, ?_⟩
  rw [value_oneDecimal, one_mul, Suffix.factor]

/-! ## What else is read -/

/-- Either parser returns something. -/
def IsRead (raw : String) : Prop :=
  (parseQuantityBytes F64 raw).isSome = true ∨ (parseQuantityCores raw : Option F64).isSome = true

/-- Neither the number nor its product with the factor is too large for `f64`, and the product is
not negative, or so little that it is rounded to 0. -/
def Acceptable (q factor : ℚ) : Prop :=
  |q| < F64.overflow ∧ |binary64.nearest q * binary64.nearest factor| < F64.overflow ∧
    -2 ^ (-1075 : ℤ) ≤ binary64.nearest q * binary64.nearest factor

theorem multiplier_lt_overflow {suffix : String} {factor : ℚ}
    (h : multiplier suffix = some factor) : |factor| < F64.overflow :=
  ((abs_of_pos (multiplier_pos h)).trans_le (multiplier_le h)).trans_lt
    (F64.two_pow_lt_overflow (by decide))

theorem acceptable_iff {q factor : ℚ} (hfactor : |factor| < F64.overflow) :
    (F64.ofRat q * F64.ofRat factor).isFinite = true ∧ F64.ofRat q * F64.ofRat factor ≥ 0 ↔
      Acceptable q factor := by
  rw [F64.isFinite_mul_iff hfactor, Acceptable, and_assoc]
  exact and_congr_right fun hq ↦ and_congr_right fun h ↦ F64.mul_nonneg_iff hq hfactor h

theorem isRead_iff_splitQuantity {raw : String} : IsRead raw ↔
    ∃ q m : F64, splitQuantity raw = some (q, m) ∧ (q * m).isFinite = true ∧ q * m ≥ 0 := by
  unfold IsRead parseQuantityBytes parseQuantityCores
  cases hsplit : (splitQuantity raw : Option (F64 × F64)) with
  | none => simp
  | some parts =>
      obtain ⟨q, m⟩ := parts
      have hif : ∀ {α : Type} (a : α), (if Arith.isFinite (q * m) = true ∧ q * m ≥ 0 then some a
          else none).isSome = true ↔ (q * m).isFinite = true ∧ q * m ≥ 0 := by
        intro α a
        split
        · next h => exact iff_of_true rfl h
        · next h => exact iff_of_false Bool.false_ne_true h
      rw [Option.bind_some, Option.bind_some, hif, hif, or_self]
      refine ⟨fun h ↦ ⟨q, m, rfl, h⟩, ?_⟩
      rintro ⟨q', m', heq, h⟩
      obtain ⟨rfl, rfl⟩ := Prod.mk.inj (Option.some.inj heq)
      exact h

/-- What is read is a number that is acceptable, then a suffix other than `Ei`. -/
theorem isRead_iff {raw : String} : IsRead raw ↔ ∃ (n : Numeral) (suffix : String) (factor : ℚ),
    (trim raw).toList = n.chars ++ suffix.toList ∧ multiplier suffix = some factor ∧
      suffix ≠ "Ei" ∧ Acceptable n.value factor := by
  rw [isRead_iff_splitQuantity]
  constructor
  · rintro ⟨q, m, hsplit, hread⟩
    obtain ⟨n, suffix, hs, rfl, hm, hEi⟩ := splitQuantity_eq_some_iff.mp hsplit
    rw [multiplier_eq_map] at hm
    obtain ⟨factor, hfactor, rfl⟩ := Option.map_eq_some_iff.mp hm
    exact ⟨n, suffix, factor, hs, hfactor, hEi,
      (acceptable_iff (multiplier_lt_overflow hfactor)).mp hread⟩
  · rintro ⟨n, suffix, factor, hs, hfactor, hEi, haccept⟩
    refine ⟨F64.ofRat n.value, F64.ofRat factor, splitQuantity_eq_some_iff.mpr
      ⟨n, suffix, hs, rfl, ?_, hEi⟩, (acceptable_iff (multiplier_lt_overflow hfactor)).mpr haccept⟩
    rw [multiplier_eq_map, hfactor]
    rfl

/-- An acceptable number, and behind it a suffix that does not belong there: any suffix but `Ei`
behind an exponent, or `e`, or any but `Ei` behind a negative number. -/
inductive Misread : List Char → Prop
  | suffix {n : Numeral} (s : Suffix) : Acceptable n.value s.factor → n.exponent ≠ none →
      s ≠ .none → s ≠ .Ei → Misread (n.chars ++ s.text.toList)
  | bareE {n : Numeral} : Acceptable n.value (10 ^ 18) → Misread (n.chars ++ ['e'])
  | negative {n : Numeral} (s : Suffix) : Acceptable n.value s.factor → n.value < 0 →
      s ≠ .Ei → Misread (n.chars ++ s.text.toList)

/-- What is misread is a number and a suffix that the code knows, which together are no quantity
that is not negative. -/
theorem Misread.exists_suffix {l : List Char} (h : Misread l) :
    ∃ (n : Numeral) (suffix : String) (factor : ℚ), l = n.chars ++ suffix.toList ∧
      multiplier suffix = some factor ∧ suffix ≠ "Ei" ∧ Acceptable n.value factor ∧
        ∀ s : Suffix, suffix = s.text → n.value < 0 ∨ n.exponent ≠ none ∧ s ≠ .none := by
  cases h with
  | @suffix n s haccept hexponent hnone hEi =>
      refine ⟨n, s.text, s.factor, rfl, multiplier_text s,
        fun h ↦ hEi (Suffix.text_eq_Ei_iff.mp h), haccept, fun s' hs' ↦ Or.inr ⟨hexponent, ?_⟩⟩
      rintro rfl
      cases s <;> simp [Suffix.text] at hs' hnone
  | @bareE n haccept =>
      refine ⟨n, "e", 10 ^ 18, rfl, multiplier_e, by decide, haccept, fun s hs ↦ ?_⟩
      cases s <;> simp [Suffix.text] at hs
  | @negative n s haccept hnegative hEi =>
      exact ⟨n, s.text, s.factor, rfl, multiplier_text s,
        fun h ↦ hEi (Suffix.text_eq_Ei_iff.mp h), haccept, fun _ _ ↦ Or.inl hnegative⟩

/-- A quantity that is split is split between its number and its suffix. -/
theorem Quantity.eq_of_chars {quantity : Quantity} {n : Numeral} {suffix : String} {factor : ℚ}
    (hfactor : multiplier suffix = some factor) (hEi : suffix ≠ "Ei")
    (h : n.chars ++ suffix.toList = quantity.chars) :
    n = quantity.numeral ∧ suffix = quantity.suffix.text := by
  by_cases hsuffix : quantity.suffix = .Ei
  · -- of a quantity with `Ei`, only the `i` is split off
    have hsplit := splitAt_Ei quantity.numeral
    rw [Quantity.chars, hsuffix, show Suffix.Ei.text = "Ei" from rfl] at h
    rw [← h, splitAt_numeral n hfactor hEi, Option.some.injEq, Prod.mk.injEq] at hsplit
    have hi : suffix = "i" := String.toList_inj.mp hsplit.2
    rw [hi] at hfactor
    cases hfactor
  · exact numeral_suffix_inj hfactor hEi (multiplier_text quantity.suffix)
      (fun h ↦ hsuffix (Suffix.text_eq_Ei_iff.mp h)) h

theorem Quantity.value_nonneg_of_chars {quantity : Quantity} {n : Numeral} {suffix : String}
    {factor : ℚ} (hfactor : multiplier suffix = some factor) (hEi : suffix ≠ "Ei")
    (h : n.chars ++ suffix.toList = quantity.chars) (hn : 0 ≤ n.value) : 0 ≤ quantity.value := by
  obtain ⟨rfl, -⟩ := Quantity.eq_of_chars hfactor hEi h
  exact mul_nonneg hn quantity.suffix.factor_pos.le

/-- What is misread is read, and is no quantity that is not negative. -/
theorem Misread.isRead {raw : String} (h : Misread (trim raw).toList) : IsRead raw ∧
    ∀ quantity : Quantity, (trim raw).toList = quantity.chars → quantity.value < 0 := by
  obtain ⟨n, suffix, factor, hs, hfactor, hEi, haccept, hwrong⟩ := h.exists_suffix
  refine ⟨isRead_iff.mpr ⟨n, suffix, factor, hs, hfactor, hEi, haccept⟩, ?_⟩
  intro quantity hquantity
  obtain ⟨rfl, hsuffix⟩ := Quantity.eq_of_chars hfactor hEi (hs ▸ hquantity)
  rcases hwrong quantity.suffix hsuffix with hnegative | ⟨hexponent, hnone⟩
  · exact mul_neg_of_neg_of_pos hnegative quantity.suffix.factor_pos
  · cases quantity with
    | suffixed sign d s => exact absurd rfl hexponent
    | exponential sign d e => exact absurd rfl hnone

/-- What is read is a quantity that is not negative, or misread. -/
theorem quantity_or_misread {raw : String} (h : IsRead raw) :
    (∃ quantity : Quantity, (trim raw).toList = quantity.chars ∧ 0 ≤ quantity.value) ∨
      Misread (trim raw).toList := by
  obtain ⟨n, suffix, factor, hs, hfactor, hEi, haccept⟩ := isRead_iff.mp h
  rw [hs]
  rcases multiplier_eq_some_iff.mp hfactor with ⟨s, rfl, rfl⟩ | ⟨rfl, rfl⟩
  · have hEi : s ≠ .Ei := fun hs' ↦ hEi (Suffix.text_eq_Ei_iff.mpr hs')
    rcases lt_or_ge n.value 0 with hnegative | hnonneg
    · exact Or.inr (.negative s haccept hnegative hEi)
    · have hvalue : 0 ≤ n.value * s.factor := mul_nonneg hnonneg s.factor_pos.le
      obtain ⟨d, sign, exponent⟩ := n
      cases exponent with
      | none => exact Or.inl ⟨.suffixed sign d s, rfl, hvalue⟩
      | some e =>
          by_cases hnone : s = .none
          · subst hnone
            exact Or.inl ⟨.exponential sign d e, rfl, hvalue⟩
          · exact Or.inr (.suffix s haccept (Option.some_ne_none e) hnone hEi)
  · exact Or.inr (.bareE haccept)

/-- **What is read is a quantity**, unless it is misread; and reading never panics. -/
theorem quantity_of_parse_iff (raw : String) :
    ((IsRead raw → ∃ quantity : Quantity,
        (trim raw).toList = quantity.chars ∧ 0 ≤ quantity.value) ↔
      ¬Misread (trim raw).toList) ∧
    ∀ s, (splitAt s (splitPoint s)).isSome = true := by
  refine ⟨⟨fun h hmisread ↦ ?_, fun h hread ↦ ?_⟩, isSome_splitAt_splitPoint⟩
  · obtain ⟨hread, hno⟩ := hmisread.isRead
    obtain ⟨quantity, hquantity, hnonneg⟩ := h hread
    exact absurd (hno quantity hquantity) (not_lt.mpr hnonneg)
  · exact (quantity_or_misread hread).resolve_right h

/-! ### What is misread -/

/-- Numbers that are not negative are acceptable if they are not too large. -/
theorem acceptable_of_le {q factor : ℚ} {suffix : String}
    (hfactor : multiplier suffix = some factor) {k : ℕ} (hk : k ≤ 900) (hnonneg : 0 ≤ q)
    (hle : q ≤ 2 ^ k) : Acceptable q factor := by
  have hq : 0 ≤ binary64.nearest q := Format.nearest_nonneg hnonneg
  have hm : 0 ≤ binary64.nearest factor := Format.nearest_nonneg (multiplier_pos hfactor).le
  have hproduct : binary64.nearest q * binary64.nearest factor ≤ 2 ^ (k + 60) := by
    rw [pow_add]
    exact mul_le_mul (F64.nearest_le_two_pow hle) (F64.nearest_le_two_pow (multiplier_le hfactor))
      hm (pow_nonneg two_pos.le _)
  refine ⟨?_, ?_, ?_⟩
  · rw [abs_of_nonneg hnonneg]
    exact hle.trans_lt (F64.two_pow_lt_overflow (by omega))
  · rw [abs_of_nonneg (mul_nonneg hq hm)]
    exact hproduct.trans_lt (F64.two_pow_lt_overflow (by omega))
  · exact (neg_nonpos.mpr (zpow_pos two_pos _).le).trans (mul_nonneg hq hm)

/-- Numbers that are rounded to 0 are acceptable. -/
theorem acceptable_of_nearest_eq_zero {q factor : ℚ} (h : binary64.nearest q = 0) :
    Acceptable q factor := by
  have hoverflow : 0 < F64.overflow :=
    (pow_pos two_pos 0).trans (F64.two_pow_lt_overflow (by decide))
  refine ⟨F64.abs_nearest_lt_iff.mp ?_, ?_, ?_⟩
  · rw [h, abs_zero]
    exact pow_pos two_pos _
  · rwa [h, zero_mul, abs_zero]
  · rw [h, zero_mul]
    exact neg_nonpos.mpr (zpow_pos two_pos _).le

/-- `1e3`. -/
def oneE3 : Numeral where
  toDecimal := oneDecimal
  sign := .absent
  exponent := some ⟨'e', .absent, ⟨['3'], List.forall_mem_singleton.mpr rfl⟩, Or.inl rfl, by decide⟩

/-- `-1e-400`. -/
def minusOneE400 : Numeral where
  toDecimal := oneDecimal
  sign := .minus
  exponent := some ⟨'e', .minus, ⟨['4', '0', '0'], List.all_eq_true.mp rfl⟩, Or.inl rfl, by decide⟩

theorem value_oneE3 : oneE3.value = 1000 := by
  have hexponent : oneE3.exponent.elim 0 Exponent.value = 3 := by decide
  rw [Numeral.value, hexponent, show oneE3.toDecimal = oneDecimal from rfl, value_oneDecimal]
  norm_num [oneE3, Sign.value]

theorem value_minusOneE400 : minusOneE400.value = -10 ^ (-400 : ℤ) := by
  have hexponent : minusOneE400.exponent.elim 0 Exponent.value = -400 := by decide
  rw [Numeral.value, hexponent, show minusOneE400.toDecimal = oneDecimal from rfl,
    value_oneDecimal, mul_one, show minusOneE400.sign.value = -1 from rfl, Int.cast_neg,
    Int.cast_one, neg_one_mul]

theorem nearest_minusOneE400 : binary64.nearest minusOneE400.value = 0 := by
  rw [Format.nearest_eq_zero_iff, value_minusOneE400, abs_neg, abs_of_pos (zpow_pos (by decide) _),
    zpow_neg, show binary64.minExp - 1 = -1075 from rfl, zpow_neg]
  refine inv_anti₀ (zpow_pos two_pos _) ?_
  have hpow : ((2 : ℚ) ^ 3) ^ 400 ≤ 10 ^ 400 := pow_le_pow_left₀ (by norm_num) (by norm_num) 400
  rw [← pow_mul] at hpow
  exact_mod_cast (pow_le_pow_right₀ one_le_two (by decide : 1075 ≤ 3 * 400)).trans hpow

/-- `1e3Ki` and `1e` are read, and `-1e-400` too. -/
theorem misread_read :
    (IsRead "1e3Ki" ∧ ∀ quantity : Quantity, (trim "1e3Ki").toList ≠ quantity.chars) ∧
      (IsRead "1e" ∧ ∀ quantity : Quantity, (trim "1e").toList ≠ quantity.chars) ∧
        IsRead "-1e-400" ∧
          ∀ quantity : Quantity, (trim "-1e-400").toList = quantity.chars → quantity.value < 0 := by
  have hKi : (trim "1e3Ki").toList = oneE3.chars ++ Suffix.Ki.text.toList := by decide
  have he : (trim "1e").toList = (decimalNumeral oneDecimal).chars ++ ['e'] := by decide
  have hminus : (trim "-1e-400").toList = minusOneE400.chars ++ Suffix.none.text.toList := by decide
  have hone : (decimalNumeral oneDecimal).value = 1 :=
    (value_decimalNumeral oneDecimal).trans value_oneDecimal
  have hthousand : 0 ≤ oneE3.value := value_oneE3 ▸ by norm_num
  refine ⟨?_, ?_, ?_⟩
  · have hmisread : Misread (trim "1e3Ki").toList := by
      rw [hKi]
      exact .suffix .Ki (acceptable_of_le (k := 10) (multiplier_text .Ki) (by decide) hthousand
        (by rw [value_oneE3]; norm_num)) (by simp [oneE3]) (by decide) (by decide)
    refine ⟨hmisread.isRead.1, fun quantity hquantity ↦ ?_⟩
    have hnonneg := Quantity.value_nonneg_of_chars (multiplier_text .Ki) (by decide)
      (hKi.symm.trans hquantity) hthousand
    exact absurd (hmisread.isRead.2 quantity hquantity) (not_lt.mpr hnonneg)
  · have hmisread : Misread (trim "1e").toList := by
      rw [he]
      exact .bareE (acceptable_of_le (k := 0) multiplier_e (by decide) (by simp [hone])
        (by simp [hone]))
    refine ⟨hmisread.isRead.1, fun quantity hquantity ↦ ?_⟩
    have hnonneg := Quantity.value_nonneg_of_chars multiplier_e (by decide)
      (he.symm.trans hquantity) (by simp [hone])
    exact absurd (hmisread.isRead.2 quantity hquantity) (not_lt.mpr hnonneg)
  · apply Misread.isRead
    rw [hminus]
    refine .negative .none (acceptable_of_nearest_eq_zero nearest_minusOneE400) ?_ (by decide)
    rw [value_minusOneE400]
    exact neg_lt_zero.mpr (zpow_pos (by decide) _)

end Swarmagent.Kubernetes
