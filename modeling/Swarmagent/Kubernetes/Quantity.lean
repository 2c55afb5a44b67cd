import Swarmagent.Rust.Float
import Swarmagent.Rust.Str

/-!
# Quantities

The model of `parse_quantity_bytes` and `parse_quantity_cores` in `pods.rs`, which read memory
limits and node capacities such as `128Mi` and `3800m`.

Both split the string in two.  The number is what comes before the first character that no number
has, the suffix is the rest; as `E` is a suffix and a character of numbers, a string that consists
of such characters only and ends with `e` or `E` is split in front of this last one.  The number is
read by `str::parse::<f64>`, the suffix is looked up.

`splitQuantity_eq_some_iff` says which strings this accepts.
-/

namespace Swarmagent.Kubernetes

open Swarmagent.Rust

/-- A character that may be part of a number. -/
def isNumeric (c : Char) : Bool :=
  c.isDigit || c = '.' || c = '-' || c = '+' || c = 'e' || c = 'E'

/-- The offset at which the suffix begins. -/
def splitPoint (s : List Char) : ℕ :=
  let split := (find (fun c ↦ !isNumeric c) s).getD (byteLen s)
  -- A trailing `E` is the decimal exa suffix, not an exponent marker.
  if split = byteLen s ∧ (s.getLast? = some 'e' ∨ s.getLast? = some 'E') then byteLen s - 1
  else split

section Parse

variable {F : Type} [Arith F]

/-- The factor that a suffix stands for. -/
def multiplier (suffix : String) : Option F :=
  match suffix with
  | "" => some (Arith.ofRat 1)
  | "m" => some (Arith.ofRat (1 / 10 ^ 3))
  | "k" => some (Arith.ofRat (10 ^ 3))
  | "M" => some (Arith.ofRat (10 ^ 6))
  | "G" => some (Arith.ofRat (10 ^ 9))
  | "T" => some (Arith.ofRat (10 ^ 12))
  | "P" => some (Arith.ofRat (10 ^ 15))
  | "E" => some (Arith.ofRat (10 ^ 18))
  | "e" => some (Arith.ofRat (10 ^ 18))
  | "Ki" => some (Arith.ofRat 1024)
  -- a product of powers of 2 needs no rounding
  | "Mi" => some (Arith.ofRat (1024 * 1024))
  | "Gi" => some (Arith.ofRat (1024 * 1024 * 1024))
  | "Ti" => some (Arith.ofRat (1024 ^ 4))
  | "Pi" => some (Arith.ofRat (1024 ^ 5))
  | "Ei" => some (Arith.ofRat (1024 ^ 6))
  | _ => none

/-- `split_quantity`: `"128Mi"` is `(128, 1024 * 1024)`.  A panic of `split_at` would be `none`
here too, but there is none (`isSome_splitAt_splitPoint`). -/
def splitQuantity (raw : String) : Option (F × F) :=
  let s := (trim raw).toList
  if s = [] then none
  else
    (splitAt s (splitPoint s)).bind fun (num, suffix) ↦
      (parseF64 num).bind fun value ↦
        (multiplier (String.ofList suffix)).map fun factor ↦ (value, factor)

variable (F) in
/-- `parse_quantity_bytes`. -/
def parseQuantityBytes (raw : String) : Option UInt64 :=
  (splitQuantity raw).bind fun ((value, factor) : F × F) ↦
    let bytes := value * factor
    if Arith.isFinite bytes ∧ bytes ≥ 0 then some (Arith.roundU64 bytes) else none

/-- `parse_quantity_cores`. -/
def parseQuantityCores (raw : String) : Option F :=
  (splitQuantity raw).bind fun (value, factor) ↦
    let cores := value * factor
    if Arith.isFinite cores ∧ cores ≥ 0 then some cores else none

/-- What is read is finite and not negative. -/
theorem parseQuantityCores_spec {raw : String} {cores : F}
    (h : parseQuantityCores raw = some cores) : Arith.isFinite cores = true ∧ cores ≥ 0 := by
  obtain ⟨⟨value, factor⟩, -, h⟩ := Option.bind_eq_some_iff.mp h
  simp only at h
  split at h
  · next hread =>
      obtain rfl := Option.some.inj h
      exact hread
  · cases h

end Parse

/-! ## Where a string is split -/

/-- Split in front of the last character. -/
theorem splitAt_marker {num : List Char} (hnum : ∀ c ∈ num, isNumeric c = true) {c : Char}
    (hc : c = 'e' ∨ c = 'E') :
    splitAt (num ++ [c]) (splitPoint (num ++ [c])) = some (num, [c]) := by
  have hnumeric : ∀ c' ∈ num ++ [c], (!isNumeric c') = false := by
    intro c' hc'
    rcases List.mem_append.mp hc' with hc' | hc'
    · rw [hnum c' hc', Bool.not_true]
    · rw [List.mem_singleton.mp hc']
      rcases hc with rfl | rfl <;> decide
  have hfind : (find (fun c' ↦ !isNumeric c') (num ++ [c] ++ [])).getD
      (byteLen (num ++ [c] ++ [])) = byteLen (num ++ [c]) :=
    find_append hnumeric fun c' hc' ↦ absurd hc' (by simp)
  rw [List.append_nil] at hfind
  have hsize : c.utf8Size = 1 := by rcases hc with rfl | rfl <;> decide
  have hpoint : splitPoint (num ++ [c]) = byteLen num := by
    unfold splitPoint
    rw [hfind, if_pos ⟨rfl, by simpa using hc⟩, byteLen_append, byteLen_cons, hsize]
    rfl
  rw [hpoint]
  exact splitAt_append num [c]

/-- Split in front of the first character that no number has. -/
theorem splitAt_suffix {num suffix : List Char} (hnum : ∀ c ∈ num, isNumeric c = true)
    (hsuffix : ∀ c ∈ suffix.head?, isNumeric c = false)
    (hlast : suffix = [] → num.getLast? ≠ some 'e' ∧ num.getLast? ≠ some 'E') :
    splitAt (num ++ suffix) (splitPoint (num ++ suffix)) = some (num, suffix) := by
  have hfind := find_append (p := fun c ↦ !isNumeric c)
    (fun c hc ↦ by rw [hnum c hc, Bool.not_true]) fun c hc ↦ by rw [hsuffix c hc, Bool.not_false]
  have hpoint : splitPoint (num ++ suffix) = byteLen num := by
    unfold splitPoint
    rw [hfind, if_neg]
    rintro ⟨hend, hmarker⟩
    cases suffix with
    | nil =>
        rw [List.append_nil] at hmarker
        exact hmarker.elim (hlast rfl).1 (hlast rfl).2
    | cons c suffix =>
        have hpos : 0 < c.utf8Size := c.utf8Size_pos
        rw [byteLen_append, byteLen_cons] at hend
        omega
  rw [hpoint]
  exact splitAt_append num suffix

/-- Every string is split in one of the two ways. -/
theorem split_cases (s : List Char) :
    (∃ num c, s = num ++ [c] ∧ (∀ c' ∈ num, isNumeric c' = true) ∧ (c = 'e' ∨ c = 'E')) ∨
      ∃ num suffix, s = num ++ suffix ∧ (∀ c ∈ num, isNumeric c = true) ∧
        (∀ c ∈ suffix.head?, isNumeric c = false) ∧
        (suffix = [] → num.getLast? ≠ some 'e' ∧ num.getLast? ≠ some 'E') := by
  by_cases hmarker : s.dropWhile isNumeric = [] ∧ (s.getLast? = some 'e' ∨ s.getLast? = some 'E')
  · obtain ⟨hdrop, hlast⟩ := hmarker
    have hnumeric : ∀ c ∈ s, isNumeric c = true := List.dropWhile_eq_nil_iff.mp hdrop
    have hne : s ≠ [] := by
      rintro rfl
      simp at hlast
    refine Or.inl ⟨s.dropLast, s.getLast hne, (List.dropLast_append_getLast hne).symm,
      fun c hc ↦ hnumeric c (List.dropLast_subset s hc), ?_⟩
    rw [List.getLast?_eq_some_getLast hne] at hlast
    exact hlast.imp Option.some.inj Option.some.inj
  · refine Or.inr ⟨s.takeWhile isNumeric, s.dropWhile isNumeric,
      List.takeWhile_append_dropWhile.symm, fun c hc ↦ List.mem_takeWhile_imp hc, ?_, ?_⟩
    · intro c hc
      have := List.head?_dropWhile_not isNumeric s
      rw [hc] at this
      simpa using this
    · intro hdrop
      have htake : s.takeWhile isNumeric = s := by
        conv_rhs => rw [← List.takeWhile_append_dropWhile (p := isNumeric) (l := s), hdrop,
          List.append_nil]
      rw [htake]
      exact ⟨fun h ↦ hmarker ⟨hdrop, Or.inl h⟩, fun h ↦ hmarker ⟨hdrop, Or.inr h⟩⟩

/-- `split_at` does not panic. -/
theorem isSome_splitAt_splitPoint (s : List Char) : (splitAt s (splitPoint s)).isSome = true := by
  rcases split_cases s with ⟨num, c, rfl, hnum, hc⟩ | ⟨num, suffix, rfl, hnum, hsuffix, hlast⟩
  · rw [splitAt_marker hnum hc]
    rfl
  · rw [splitAt_suffix hnum hsuffix hlast]
    rfl

/-! ## What is accepted -/

section Accepted

variable {F : Type} [Arith F]

/-- A known suffix is empty, a marker of exponents, or begins with a character no number has. The
only other one is `Ei`. -/
theorem suffix_cases {suffix : String} {factor : F} (h : multiplier suffix = some factor)
    (hEi : suffix ≠ "Ei") : suffix.toList = [] ∨
      (∃ c, suffix.toList = [c] ∧ (c = 'e' ∨ c = 'E')) ∨
        ∃ c l, suffix.toList = c :: l ∧ isNumeric c = false := by
  unfold multiplier at h
  split at h
  · exact Or.inl (by decide)
  case h_8 => exact Or.inr (Or.inl ⟨'E', by decide⟩)
  case h_9 => exact Or.inr (Or.inl ⟨'e', by decide⟩)
  case h_15 => exact absurd rfl hEi
  case h_16 => cases h
  all_goals exact Or.inr (Or.inr ⟨_, _, by rfl, by decide⟩)

theorem isNumeric_of_mem_chars {n : Numeral} {c : Char} (h : c ∈ n.chars) :
    isNumeric c = true := by
  unfold isNumeric
  rcases Numeral.mem_chars h with h | rfl | rfl | rfl | rfl | rfl <;> simp_all

/-- A number in front of a suffix is split off. -/
theorem splitAt_numeral (n : Numeral) {suffix : String} {factor : F}
    (h : multiplier suffix = some factor) (hEi : suffix ≠ "Ei") :
    splitAt (n.chars ++ suffix.toList) (splitPoint (n.chars ++ suffix.toList)) =
      some (n.chars, suffix.toList) := by
  have hnum : ∀ c ∈ n.chars, isNumeric c = true := fun c hc ↦ isNumeric_of_mem_chars hc
  rcases suffix_cases h hEi with hnil | ⟨c, hmarker, hc⟩ | ⟨c, l, hcons, hc⟩
  · rw [hnil]
    refine splitAt_suffix hnum (fun c hc ↦ absurd hc (by simp)) fun _ ↦ ?_
    obtain ⟨c, hc, hlast⟩ := n.exists_last
    rw [hlast, ne_eq, Option.some.injEq, ne_eq, Option.some.injEq]
    constructor <;> rintro rfl <;> simp at hc
  · rw [hmarker]
    exact splitAt_marker hnum hc
  · refine splitAt_suffix hnum ?_ ?_ <;> rw [hcons]
    · intro c' hc'
      obtain rfl : c = c' := Option.some.inj hc'
      exact hc
    · exact fun hnil ↦ absurd hnil (List.cons_ne_nil c l)

theorem splitQuantity_of_split {raw : String} {num suffix : List Char}
    (hne : (trim raw).toList ≠ [])
    (h : splitAt (trim raw).toList (splitPoint (trim raw).toList) = some (num, suffix)) {q m : F} :
    splitQuantity raw = some (q, m) ↔
      parseF64 num = some q ∧ multiplier (String.ofList suffix) = some m := by
  unfold splitQuantity
  simp only [if_neg hne, h, Option.bind_some]
  cases (parseF64 num : Option F) <;> cases (multiplier (String.ofList suffix) : Option F) <;> simp

/-- **What `split_quantity` accepts**: a number, then a suffix other than `Ei`.  This one it cannot
find, as it takes the `E` for a part of the number. -/
theorem splitQuantity_eq_some_iff {raw : String} {q m : F} :
    splitQuantity raw = some (q, m) ↔ ∃ (n : Numeral) (suffix : String),
      (trim raw).toList = n.chars ++ suffix.toList ∧ Arith.ofRat n.value = q ∧
        multiplier suffix = some m ∧ suffix ≠ "Ei" := by
  constructor
  · intro h
    have hne : (trim raw).toList ≠ [] := by
      intro hnil
      simp [splitQuantity, hnil] at h
    rcases split_cases (trim raw).toList with
      ⟨num, c, hs, hnum, hc⟩ | ⟨num, suffix, hs, hnum, hsuffix, hlast⟩
    · have hsplit := splitAt_marker hnum hc
      rw [← hs] at hsplit
      obtain ⟨hq, hm⟩ := (splitQuantity_of_split hne hsplit).mp h
      obtain ⟨n, rfl, hvalue⟩ := parseF64_eq_some_iff.mp hq
      refine ⟨n, String.ofList [c], by rw [hs, String.toList_ofList], hvalue, hm, fun hEi ↦ ?_⟩
      have hlength : 1 = "Ei".toList.length := by rw [← hEi, String.toList_ofList]; rfl
      exact absurd hlength (by decide)
    · have hsplit := splitAt_suffix hnum hsuffix hlast
      rw [← hs] at hsplit
      obtain ⟨hq, hm⟩ := (splitQuantity_of_split hne hsplit).mp h
      obtain ⟨n, rfl, hvalue⟩ := parseF64_eq_some_iff.mp hq
      refine ⟨n, String.ofList suffix, by rw [hs, String.toList_ofList], hvalue, hm, fun hEi ↦ ?_⟩
      have hE : suffix = ['E', 'i'] := by rw [← String.toList_ofList (l := suffix), hEi]; decide
      exact absurd (hsuffix 'E' (by rw [hE]; rfl)) (by decide)
  · rintro ⟨n, suffix, hs, hvalue, hm, hEi⟩
    have hne : (trim raw).toList ≠ [] := by
      obtain ⟨c, -, hlast⟩ := n.exists_last
      rw [hs]
      intro hnil
      rw [(List.append_eq_nil_iff.mp hnil).1] at hlast
      cases hlast
    have hsplit := splitAt_numeral n hm hEi
    rw [← hs] at hsplit
    rw [splitQuantity_of_split hne hsplit, String.ofList_toList]
    exact ⟨parseF64_eq_some_iff.mpr ⟨n, rfl, hvalue⟩, hm⟩

end Accepted

end Swarmagent.Kubernetes
