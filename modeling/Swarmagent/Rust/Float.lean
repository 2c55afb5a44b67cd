import Swarmagent.Rust.F64
import Mathlib.Data.List.TakeWhile

/-!
# Reading numbers

How `str::parse::<f64>` reads a number.  It gives the nearest `f64` to what is written
(`parseF64_eq_some_iff`).

The grammar is the documented one:

* a number is an optional sign, then digits with at most one point in front of, between or after
  them, then an optional exponent;
* an exponent is `e` or `E`, an optional sign and digits.

`inf`, `infinity` and `nan`, which are read too, are left out, as they have letters that the agent
lets no number have.
-/

namespace Swarmagent.Rust

/-! ## Syntax -/

/-- A run of decimal digits, possibly empty. -/
@[ext]
structure Digits where
  chars : List Char
  isDigit : ∀ c ∈ chars, c.isDigit = true

/-- The number that the digits stand for. -/
def Digits.value (d : Digits) : ℕ := d.chars.foldl (fun n c ↦ 10 * n + (c.toNat - '0'.toNat)) 0

inductive Sign where
  | absent
  | plus
  | minus

def Sign.chars : Sign → List Char
  | .absent => []
  | .plus => ['+']
  | .minus => ['-']

def Sign.value : Sign → ℤ
  | .absent => 1
  | .plus => 1
  | .minus => -1

structure Exponent where
  marker : Char
  sign : Sign
  digits : Digits
  isMarker : marker = 'e' ∨ marker = 'E'
  hasDigit : digits.chars ≠ []

def Exponent.chars (e : Exponent) : List Char := e.marker :: (e.sign.chars ++ e.digits.chars)

def Exponent.value (e : Exponent) : ℤ := e.sign.value * e.digits.value

/-- The digits after the point, if there is a point. -/
def fracChars : Option Digits → List Char
  | none => []
  | some d => d.chars

/-- Digits with at most one point. -/
structure Decimal where
  int : Digits
  frac : Option Digits
  hasDigit : int.chars ++ fracChars frac ≠ []

namespace Decimal

/-- The point and what follows it. -/
def fracPart : Option Digits → List Char
  | none => []
  | some d => '.' :: d.chars

def chars (d : Decimal) : List Char := d.int.chars ++ fracPart d.frac

def digits (d : Decimal) : Digits where
  chars := d.int.chars ++ fracChars d.frac
  isDigit := by
    intro c hc
    rcases List.mem_append.mp hc with hc | hc
    · exact d.int.isDigit c hc
    · cases hfrac : d.frac with
      | none => simp [hfrac, fracChars] at hc
      | some d' =>
          rw [hfrac] at hc
          exact d'.isDigit c hc

/-- The number that is written. -/
def value (d : Decimal) : ℚ := d.digits.value / 10 ^ (fracChars d.frac).length

theorem value_nonneg (d : Decimal) : 0 ≤ d.value :=
  div_nonneg (Nat.cast_nonneg _) (pow_nonneg (by decide) _)

end Decimal

/-- A number, as it is written. -/
structure Numeral extends Decimal where
  sign : Sign
  exponent : Option Exponent

namespace Numeral

open Decimal (fracPart)

def exponentPart : Option Exponent → List Char
  | none => []
  | some e => e.chars

def chars (n : Numeral) : List Char :=
  n.sign.chars ++ (n.int.chars ++ (fracPart n.frac ++ exponentPart n.exponent))

/-- The number that is written. -/
def value (n : Numeral) : ℚ :=
  n.sign.value * n.toDecimal.value * 10 ^ (n.exponent.elim 0 Exponent.value)

theorem value_nonneg {n : Numeral} (h : n.sign ≠ .minus) : 0 ≤ n.value := by
  have hsign : (0 : ℚ) ≤ n.sign.value := by
    cases hs : n.sign with
    | minus => exact absurd hs h
    | _ => exact zero_le_one
  exact mul_nonneg (mul_nonneg hsign n.toDecimal.value_nonneg) (zpow_nonneg (by decide) _)

end Numeral

/-! ### The characters of a number -/

namespace Numeral

open Decimal (fracPart)

theorem mem_chars {n : Numeral} {c : Char} (h : c ∈ n.chars) :
    c.isDigit = true ∨ c = '+' ∨ c = '-' ∨ c = '.' ∨ c = 'e' ∨ c = 'E' := by
  have hsign : ∀ {s : Sign}, c ∈ s.chars → c = '+' ∨ c = '-' := by
    intro s hs
    cases s <;> simp [Sign.chars] at hs <;> simp [hs]
  simp only [chars, List.mem_append] at h
  rcases h with h | h | h | h
  · rcases hsign h with rfl | rfl <;> simp
  · exact Or.inl (n.int.isDigit c h)
  · cases hfrac : n.frac with
    | none => simp [hfrac, fracPart] at h
    | some d =>
        rw [hfrac, fracPart, List.mem_cons] at h
        rcases h with rfl | h
        · simp
        · exact Or.inl (d.isDigit c h)
  · cases hexponent : n.exponent with
    | none => simp [hexponent, exponentPart] at h
    | some e =>
        simp only [hexponent, exponentPart, Exponent.chars, List.mem_cons, List.mem_append] at h
        rcases h with rfl | h | h
        · rcases e.isMarker with hc | hc <;> simp [hc]
        · rcases hsign h with rfl | rfl <;> simp
        · exact Or.inl (e.digits.isDigit c h)

end Numeral

theorem Digits.exists_last {d : Digits} (h : d.chars ≠ []) :
    ∃ c, c.isDigit = true ∧ d.chars.getLast? = some c :=
  ⟨d.chars.getLast h, d.isDigit _ (List.getLast_mem h), List.getLast?_eq_some_getLast h⟩

/-- A number ends with a digit or, if it has no exponent, with the point. -/
theorem Numeral.exists_last (n : Numeral) :
    ∃ c, (c.isDigit = true ∨ n.exponent = none ∧ c = '.') ∧ n.chars.getLast? = some c := by
  obtain ⟨⟨int, frac, hasDigit⟩, sign, exponent⟩ := n
  simp only [chars, List.getLast?_append]
  cases exponent with
  | some e =>
      obtain ⟨c, hc, hlast⟩ := Digits.exists_last e.hasDigit
      refine ⟨c, Or.inl hc, ?_⟩
      rw [exponentPart, Exponent.chars, ← List.cons_append, List.getLast?_append, hlast]
      rfl
  | none =>
      cases frac with
      | none =>
          have hint : int.chars ≠ [] := by simpa [fracChars] using hasDigit
          obtain ⟨c, hc, hlast⟩ := Digits.exists_last hint
          exact ⟨c, Or.inl hc, by simp [Decimal.fracPart, exponentPart, hlast]⟩
      | some d =>
          by_cases hd : d.chars = []
          · exact ⟨'.', Or.inr ⟨rfl, rfl⟩, by simp [Decimal.fracPart, exponentPart, hd]⟩
          · obtain ⟨c, hc, hlast⟩ := Digits.exists_last hd
            refine ⟨c, Or.inl hc, ?_⟩
            rw [Decimal.fracPart, ← List.singleton_append, List.getLast?_append, hlast]
            rfl

/-! ## Reading -/

def readSign : List Char → Sign × List Char
  | '+' :: l => (.plus, l)
  | '-' :: l => (.minus, l)
  | l => (.absent, l)

def readDigits (l : List Char) : Digits × List Char :=
  (⟨l.takeWhile Char.isDigit, fun _ hc ↦ List.mem_takeWhile_imp hc⟩, l.dropWhile Char.isDigit)

def readFrac : List Char → Option Digits × List Char
  | '.' :: l => (some (readDigits l).1, (readDigits l).2)
  | l => (none, l)

def readExponent : List Char → Option Exponent
  | [] => none
  | c :: l =>
      let (sign, l) := readSign l
      let (digits, l) := readDigits l
      if h : (c = 'e' ∨ c = 'E') ∧ digits.chars ≠ [] ∧ l = [] then
        some ⟨c, sign, digits, h.1, h.2.1⟩
      else none

def readNumeral (l : List Char) : Option Numeral :=
  let (sign, l) := readSign l
  let (int, l) := readDigits l
  let (frac, l) := readFrac l
  if h : int.chars ++ fracChars frac ≠ [] then
    if l = [] then some ⟨⟨int, frac, h⟩, sign, none⟩
    else (readExponent l).map fun e ↦ ⟨⟨int, frac, h⟩, sign, some e⟩
  else none

/-- `s.parse::<f64>().ok()`. -/
def parseF64 {F : Type} [Arith F] (l : List Char) : Option F :=
  (readNumeral l).map fun n ↦ Arith.ofRat n.value

/-! ### Round trips

What is read is what is written, part by part: the parts of a number, put together again, are the
string that was read, and a number is read from its own characters. -/

theorem chars_readSign (l : List Char) : (readSign l).1.chars ++ (readSign l).2 = l := by
  unfold readSign
  split <;> rfl

/-- The end of a sign is seen from what follows it. -/
theorem readSign_append (sign : Sign) {l : List Char} (h : ∀ c ∈ l.head?, c ≠ '+' ∧ c ≠ '-') :
    readSign (sign.chars ++ l) = (sign, l) := by
  cases sign with
  | absent =>
      cases l with
      | nil => rfl
      | cons c l =>
          obtain ⟨hplus, hminus⟩ := h c rfl
          show readSign (c :: l) = _
          unfold readSign
          split
          · exact absurd (List.cons.inj ‹_›).1 hplus
          · exact absurd (List.cons.inj ‹_›).1 hminus
          · rfl
  | plus => rfl
  | minus => rfl

theorem chars_readDigits (l : List Char) : (readDigits l).1.chars ++ (readDigits l).2 = l :=
  List.takeWhile_append_dropWhile

theorem readDigits_append (d : Digits) {l : List Char} (h : ∀ c ∈ l.head?, c.isDigit = false) :
    readDigits (d.chars ++ l) = (d, l) := by
  have htake : l.takeWhile Char.isDigit = [] := by
    cases l with
    | nil => rfl
    | cons c l => rw [List.takeWhile_cons, if_neg (by simp [h c rfl])]
  have hdrop : l.dropWhile Char.isDigit = l := by
    cases l with
    | nil => rfl
    | cons c l => rw [List.dropWhile_cons, if_neg (by simp [h c rfl])]
  unfold readDigits
  simp only [Prod.mk.injEq, Digits.ext_iff]
  rw [List.takeWhile_append_of_pos d.isDigit, List.dropWhile_append_of_pos d.isDigit, htake, hdrop]
  exact ⟨List.append_nil d.chars, rfl⟩

theorem chars_readFrac (l : List Char) :
    Decimal.fracPart (readFrac l).1 ++ (readFrac l).2 = l := by
  unfold readFrac
  split
  · exact congrArg (List.cons '.') (chars_readDigits _)
  · rfl

theorem readFrac_append (frac : Option Digits) {l : List Char}
    (h : ∀ c ∈ l.head?, c ≠ '.' ∧ c.isDigit = false) :
    readFrac (Decimal.fracPart frac ++ l) = (frac, l) := by
  cases frac with
  | none =>
      cases l with
      | nil => rfl
      | cons c l =>
          show readFrac (c :: l) = _
          unfold readFrac
          split
          · exact absurd (List.cons.inj ‹_›).1 (h c rfl).1
          · rfl
  | some d =>
      show (some (readDigits (d.chars ++ l)).1, (readDigits (d.chars ++ l)).2) = _
      rw [readDigits_append d fun c hc ↦ (h c hc).2]

theorem not_isSign_of_isDigit {c : Char} (h : c.isDigit = true) : c ≠ '+' ∧ c ≠ '-' := by
  constructor <;> rintro rfl <;> exact absurd h (by decide)

theorem readDigits_chars (d : Digits) : readDigits d.chars = (d, []) := by
  rw [← List.append_nil d.chars]
  exact readDigits_append d fun c hc ↦ absurd hc (by simp)

theorem readExponent_chars (e : Exponent) : readExponent e.chars = some e := by
  have hsign : readSign (e.sign.chars ++ e.digits.chars) = (e.sign, e.digits.chars) :=
    readSign_append e.sign fun c hc ↦
      not_isSign_of_isDigit (e.digits.isDigit c (List.mem_of_mem_head? hc))
  simp only [readExponent, Exponent.chars, hsign, readDigits_chars]
  exact dif_pos ⟨e.isMarker, e.hasDigit, trivial⟩

theorem chars_of_readExponent {l : List Char} {e : Exponent} (h : readExponent l = some e) :
    e.chars = l := by
  cases l with
  | nil => cases h
  | cons c l =>
      simp only [readExponent] at h
      split at h
      · next hread =>
          obtain rfl := Option.some.inj h
          have hdigits := chars_readDigits (readSign l).2
          rw [hread.2.2, List.append_nil] at hdigits
          show c :: ((readSign l).1.chars ++ (readDigits (readSign l).2).1.chars) = c :: l
          rw [hdigits, chars_readSign]
      · cases h

namespace Numeral

open Decimal (fracPart)

/-- An exponent begins with its marker, so neither a point nor a digit. -/
theorem head_exponentPart {e : Option Exponent} {c : Char} (h : c ∈ (exponentPart e).head?) :
    c ≠ '.' ∧ c.isDigit = false := by
  cases e with
  | none => simp [exponentPart] at h
  | some e =>
      obtain rfl : e.marker = c := Option.some.inj h
      rcases e.isMarker with hc | hc <;> rw [hc] <;> decide

theorem head_fracPart {frac : Option Digits} {e : Option Exponent} {c : Char}
    (h : c ∈ (fracPart frac ++ exponentPart e).head?) : c.isDigit = false := by
  cases frac with
  | none => exact (head_exponentPart h).2
  | some d =>
      obtain rfl : '.' = c := Option.some.inj h
      decide

/-- After the sign of a number comes a digit or the point. -/
theorem head_int (n : Numeral) {c : Char}
    (h : c ∈ (n.int.chars ++ (fracPart n.frac ++ exponentPart n.exponent)).head?) :
    c ≠ '+' ∧ c ≠ '-' := by
  obtain ⟨⟨⟨chars, isDigit⟩, frac, hasDigit⟩, _, _⟩ := n
  cases chars with
  | cons c' chars =>
      obtain rfl : c' = c := Option.some.inj h
      exact not_isSign_of_isDigit (isDigit c' List.mem_cons_self)
  | nil =>
      cases frac with
      | none => exact absurd rfl hasDigit
      | some d =>
          obtain rfl : '.' = c := Option.some.inj h
          decide

/-- A number is read from its own characters. -/
theorem readNumeral_chars (n : Numeral) : readNumeral n.chars = some n := by
  have hsign := readSign_append n.sign fun _ hc ↦ n.head_int hc
  have hint : readDigits (n.int.chars ++ (fracPart n.frac ++ exponentPart n.exponent)) = _ :=
    readDigits_append n.int fun _ hc ↦ head_fracPart hc
  have hfrac : readFrac (fracPart n.frac ++ exponentPart n.exponent) = _ :=
    readFrac_append n.frac fun _ hc ↦ head_exponentPart hc
  simp only [readNumeral, chars, hsign, hint, hfrac]
  rw [dif_pos n.hasDigit]
  obtain ⟨⟨int, frac, hasDigit⟩, sign, exponent⟩ := n
  cases exponent with
  | none => exact if_pos rfl
  | some e =>
      rw [if_neg (show exponentPart (some e) ≠ [] from List.cons_ne_nil _ _)]
      show (readExponent e.chars).map _ = _
      rw [readExponent_chars]
      rfl

/-- What is read is what is written. -/
theorem chars_of_readNumeral {l : List Char} {n : Numeral} (h : readNumeral l = some n) :
    n.chars = l := by
  have hsign := chars_readSign l
  have hint := chars_readDigits (readSign l).2
  have hfrac := chars_readFrac (readDigits (readSign l).2).2
  simp only [readNumeral] at h
  split at h
  · split at h
    · next hrest =>
        obtain rfl := Option.some.inj h
        rw [hrest, List.append_nil] at hfrac
        simp only [chars, exponentPart, List.append_nil]
        rw [hfrac, hint, hsign]
    · obtain ⟨e, he, rfl⟩ := Option.map_eq_some_iff.mp h
      simp only [chars, exponentPart]
      rw [chars_of_readExponent he, hfrac, hint, hsign]
  · cases h

end Numeral

/-- **What `parse` accepts**: the numbers of the grammar, and it returns what they stand for. -/
theorem parseF64_eq_some_iff {F : Type} [Arith F] {l : List Char} {x : F} :
    parseF64 l = some x ↔ ∃ n : Numeral, n.chars = l ∧ Arith.ofRat n.value = x := by
  unfold parseF64
  rw [Option.map_eq_some_iff]
  constructor
  · rintro ⟨n, hn, rfl⟩
    exact ⟨n, Numeral.chars_of_readNumeral hn, rfl⟩
  · rintro ⟨n, rfl, rfl⟩
    exact ⟨n, Numeral.readNumeral_chars n, rfl⟩

end Swarmagent.Rust
