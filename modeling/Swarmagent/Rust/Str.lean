import Swarmagent.Machine.Lines
import Mathlib.Data.List.DropRight

/-!
# String slices

The `str` methods the agent calls, on the list of characters of a string, and what the code relies
on about the ones that take a key apart.
-/

namespace Swarmagent.Rust

/-- `s.starts_with(pre)` for a string `pre`. -/
def startsWith (s pre : String) : Bool := pre.toList.isPrefixOf s.toList

/-- `s.rsplit(c).next().unwrap_or_default()`: what stands after the last `c`, all of `s` if there
is none. -/
def rsplitNext (s : String) (c : Char) : String := String.ofList (s.toList.rtakeWhile (· != c))

/-- `c.is_whitespace()`: the Unicode property `White_Space`. -/
def isWhitespace (c : Char) : Bool :=
  (0x09 ≤ c.toNat && c.toNat ≤ 0x0D) || c.toNat = 0x20 || c.toNat = 0x85 || c.toNat = 0xA0 ||
    c.toNat = 0x1680 || (0x2000 ≤ c.toNat && c.toNat ≤ 0x200A) || c.toNat = 0x2028 ||
    c.toNat = 0x2029 || c.toNat = 0x202F || c.toNat = 0x205F || c.toNat = 0x3000

/-- `s.trim()`. -/
def trim (s : String) : String :=
  String.ofList ((s.toList.dropWhile isWhitespace).rdropWhile isWhitespace)

/-- `s.to_ascii_lowercase()`, as a list of characters. -/
def toAsciiLowercase (s : String) : List Char := s.toList.map Char.toLower

/-- `s.eq_ignore_ascii_case(t)`. -/
def eqIgnoreAsciiCase (s t : String) : Bool := toAsciiLowercase s = toAsciiLowercase t

/-- `s.rsplit_once(c)`: what stands before and after the last `c`. -/
def rsplitOnce (s : String) (c : Char) : Option (String × String) :=
  if c ∈ s.toList then
    some (String.ofList (s.toList.rdropWhile (· != c)).dropLast,
      String.ofList (s.toList.rtakeWhile (· != c)))
  else none

/-- `s.trim_end_matches(c)`. -/
def trimEndMatches (s : String) (c : Char) : String := String.ofList (s.toList.rdropWhile (· == c))

/-- `s.strip_suffix(suf)`. -/
def stripSuffix (s suf : String) : Option String :=
  if suf.toList.isSuffixOf s.toList then
    some (String.ofList (s.toList.take (s.toList.length - suf.toList.length)))
  else none

/-- What stands between white space is left by `trim`, if it neither begins nor ends with any. -/
theorem trim_surrounded {pre l post : List Char} (hpre : ∀ c ∈ pre, isWhitespace c = true)
    (hpost : ∀ c ∈ post, isWhitespace c = true) (hhead : ∀ c ∈ l.head?, isWhitespace c = false)
    (hlast : ∀ c ∈ l.getLast?, isWhitespace c = false) :
    (trim (String.ofList (pre ++ l ++ post))).toList = l := by
  rw [trim, String.toList_ofList, String.toList_ofList, List.append_assoc,
    List.dropWhile_append_of_pos hpre]
  cases l with
  | nil => rw [List.nil_append, List.dropWhile_eq_nil_iff.mpr hpost, List.rdropWhile_nil]
  | cons c l =>
      rw [List.cons_append, List.dropWhile_cons, if_neg (by simp [hhead c rfl]), ← List.cons_append,
        List.rdropWhile, List.reverse_append,
        List.dropWhile_append_of_pos fun c hc ↦ hpost c (List.mem_reverse.mp hc)]
      have hstop : (c :: l).reverse.dropWhile isWhitespace = (c :: l).reverse := by
        obtain ⟨x, xs, hx⟩ := List.exists_cons_of_ne_nil (l := (c :: l).reverse) (by simp)
        have hxlast : (c :: l).getLast? = some x := by rw [← List.head?_reverse, hx]; rfl
        rw [hx, List.dropWhile_cons, if_neg (by simp [hlast x hxlast])]
      rw [hstop, List.reverse_reverse]

/-- Without white space there is nothing to trim. -/
theorem trim_eq_self {s : String} (h : ∀ c ∈ s.toList, isWhitespace c = false) : trim s = s := by
  have htrim : (trim (String.ofList ([] ++ s.toList ++ []))).toList = s.toList :=
    trim_surrounded (List.forall_mem_nil _) (List.forall_mem_nil _)
      (fun c hc ↦ h c (List.mem_of_mem_head? hc)) fun c hc ↦ h c (List.mem_of_mem_getLast? hc)
  rw [List.nil_append, List.append_nil, String.ofList_toList] at htrim
  exact String.toList_inj.mp htrim

/-- Characters that were put behind a string are trimmed, if it does not end with one. -/
theorem trimEndMatches_append_replicate {s : String} {c : Char} (n : ℕ)
    (hlast : s.toList.getLast? ≠ some c) :
    trimEndMatches (s ++ String.ofList (List.replicate n c)) c = s := by
  have hkeep : s.toList.rdropWhile (· == c) = s.toList := by
    refine List.rdropWhile_eq_self_iff.mpr fun hne hc ↦ hlast ?_
    rw [List.getLast?_eq_some_getLast hne, eq_of_beq hc]
  rw [trimEndMatches, String.toList_append, String.toList_ofList]
  suffices h : (s.toList ++ List.replicate n c).rdropWhile (· == c) = s.toList by
    rw [h, String.ofList_toList]
  induction n with
  | zero => rw [List.replicate_zero, List.append_nil, hkeep]
  | succ n ih =>
      rw [List.replicate_succ', ← List.append_assoc, List.rdropWhile_concat_pos _ _ _ (by simp), ih]

/-- A suffix can be stripped if it is there. -/
theorem stripSuffix_eq_some_iff {s suf rest : String} :
    stripSuffix s suf = some rest ↔ s = rest ++ suf := by
  unfold stripSuffix
  rw [Option.ite_none_right_eq_some, List.isSuffixOf_iff_suffix]
  constructor
  · rintro ⟨⟨l, hl⟩, hrest⟩
    have htake : s.toList.take (s.toList.length - suf.toList.length) = l := by
      rw [← hl, List.length_append, Nat.add_sub_cancel, List.take_left]
    rw [htake] at hrest
    obtain rfl := Option.some.inj hrest
    apply String.toList_inj.mp
    rw [String.toList_append, String.toList_ofList, hl]
  · rintro rfl
    rw [String.toList_append, List.length_append, Nat.add_sub_cancel, List.take_left,
      String.ofList_toList]
    exact ⟨List.suffix_append _ _, rfl⟩

/-! ## Byte offsets -/

/-- `s.len()`. -/
def byteLen : List Char → ℕ
  | [] => 0
  | c :: l => c.utf8Size + byteLen l

/-- `s.find(p)`: the offset of the first character with the property. -/
def find (p : Char → Bool) : List Char → Option ℕ
  | [] => none
  | c :: l => if p c then some 0 else (find p l).map (c.utf8Size + ·)

/-- `s.split_at(i)`, which panics, for which `none` stands here, unless a character begins or the
string ends at the offset. -/
def splitAt : List Char → ℕ → Option (List Char × List Char)
  | l, 0 => some ([], l)
  | [], _ + 1 => none
  | c :: l, i + 1 =>
      if c.utf8Size ≤ i + 1 then
        (splitAt l (i + 1 - c.utf8Size)).map fun parts ↦ (c :: parts.1, parts.2)
      else none

@[simp] theorem byteLen_nil : byteLen [] = 0 := rfl

@[simp] theorem byteLen_cons (c : Char) (l : List Char) :
    byteLen (c :: l) = c.utf8Size + byteLen l := rfl

@[simp] theorem byteLen_append (l l' : List Char) : byteLen (l ++ l') = byteLen l + byteLen l' := by
  induction l with
  | nil => simp
  | cons c l ih => rw [List.cons_append, byteLen_cons, byteLen_cons, ih, Nat.add_assoc]

/-- The offset behind a part of a string is one to split at. -/
theorem splitAt_append (pre suf : List Char) :
    splitAt (pre ++ suf) (byteLen pre) = some (pre, suf) := by
  induction pre with
  | nil => cases suf <;> rfl
  | cons c pre ih =>
      have hpos : 0 < c.utf8Size := c.utf8Size_pos
      obtain ⟨i, hi⟩ : ∃ i, byteLen (c :: pre) = i + 1 :=
        Nat.exists_eq_succ_of_ne_zero (by rw [byteLen_cons]; omega)
      have hrest : i + 1 - c.utf8Size = byteLen pre := by
        rw [← hi, byteLen_cons]
        omega
      rw [hi, List.cons_append, splitAt, if_pos (by rw [← hi, byteLen_cons]; omega), hrest, ih]
      rfl

/-- The first character with the property is where the part without it ends. -/
theorem find_append {p : Char → Bool} {pre suf : List Char} (hpre : ∀ c ∈ pre, p c = false)
    (hsuf : ∀ c ∈ suf.head?, p c = true) :
    (find p (pre ++ suf)).getD (byteLen (pre ++ suf)) = byteLen pre := by
  induction pre with
  | nil =>
      cases suf with
      | nil => rfl
      | cons c suf => simp [find, hsuf c rfl]
  | cons c pre ih =>
      have hc : p c = false := hpre c List.mem_cons_self
      have hrest := ih fun c' hc' ↦ hpre c' (List.mem_cons_of_mem c hc')
      rw [List.cons_append, find, if_neg (by simp [hc]), byteLen_cons, byteLen_cons]
      cases hfind : find p (pre ++ suf) with
      | none =>
          rw [hfind, Option.getD_none] at hrest
          rw [Option.map_none, Option.getD_none, hrest]
      | some i =>
          rw [hfind, Option.getD_some] at hrest
          rw [Option.map_some, Option.getD_some, hrest]

/-! ## Keys -/

/-- The first separator of a list is determined by the list. -/
theorem append_cons_inj_of_first {α : Type*} {x : α} {l l' rest rest' : List α} (hl : x ∉ l)
    (hl' : x ∉ l') (h : l ++ x :: rest = l' ++ x :: rest') : l = l' ∧ rest = rest' := by
  have hother : ∀ {l : List α}, x ∉ l → ∀ y ∈ l, y ≠ x := by
    rintro l hl _ hy rfl
    exact hl hy
  have hstop : ∀ rest : List α, ∀ y ∈ (x :: rest).head?, ¬y ≠ x :=
    fun _ y hy ↦ not_not_intro (Option.some.inj hy).symm
  obtain ⟨hfront, hback⟩ :=
    Machine.append_inj_of_stop (hother hl) (hother hl') (hstop rest) (hstop rest') h
  exact ⟨hfront, (List.cons.inj hback).2⟩

theorem startsWith_iff {s pre : String} : startsWith s pre = true ↔ ∃ rest, s = pre ++ rest := by
  rw [startsWith, List.isPrefixOf_iff_prefix]
  constructor
  · rintro ⟨rest, h⟩
    refine ⟨String.ofList rest, String.toList_inj.mp ?_⟩
    rw [String.toList_append, String.toList_ofList, h]
  · rintro ⟨rest, rfl⟩
    exact ⟨rest.toList, String.toList_append.symm⟩

@[simp] theorem startsWith_append (pre rest : String) : startsWith (pre ++ rest) pre = true :=
  startsWith_iff.mpr ⟨rest, rfl⟩

/-- Everything after the last separator, when a separator is known to stand there. -/
theorem rsplitNext_append {pre rest : String} {c : Char} {l : List Char}
    (hpre : pre.toList = l ++ [c]) (hrest : c ∉ rest.toList) :
    rsplitNext (pre ++ rest) c = rest := by
  have hkeep : ∀ x ∈ rest.toList, (x != c) = true := by
    intro x hx
    have hne : x ≠ c := fun h ↦ hrest (h ▸ hx)
    simpa using hne
  rw [rsplitNext, String.toList_append, hpre, List.rtakeWhile, List.reverse_append,
    List.takeWhile_append_of_pos (by simpa using hkeep)]
  simp

/-! ## The last separator -/

/-- A last separator takes `rsplit_once` apart again. -/
theorem rsplitOnce_of_last {s pre suf : String} {c : Char}
    (hs : s.toList = pre.toList ++ c :: suf.toList) (hsuf : c ∉ suf.toList) :
    rsplitOnce s c = some (pre, suf) := by
  have hkeep : ∀ x ∈ suf.toList.reverse, (x != c) = true := by
    intro x hx
    have hne : x ≠ c := fun h ↦ hsuf (h ▸ List.mem_reverse.mp hx)
    simpa using hne
  have hrev : s.toList.reverse = suf.toList.reverse ++ c :: pre.toList.reverse := by
    rw [hs, List.reverse_append, List.reverse_cons, List.append_assoc, List.singleton_append]
  have hmem : c ∈ s.toList := by
    rw [hs]
    exact List.mem_append_right _ List.mem_cons_self
  have hbefore : s.toList.rdropWhile (· != c) = pre.toList ++ [c] := by
    rw [List.rdropWhile, hrev, List.dropWhile_append_of_pos hkeep]
    simp
  have hafter : s.toList.rtakeWhile (· != c) = suf.toList := by
    rw [List.rtakeWhile, hrev, List.takeWhile_append_of_pos hkeep]
    simp
  rw [rsplitOnce, if_pos hmem, hbefore, hafter, List.dropLast_concat, String.ofList_toList,
    String.ofList_toList]

/-- `rsplit_once` gives what stands around the last separator, and nothing else. -/
theorem rsplitOnce_eq_some_iff {s pre suf : String} {c : Char} :
    rsplitOnce s c = some (pre, suf) ↔
      s.toList = pre.toList ++ c :: suf.toList ∧ c ∉ suf.toList := by
  refine ⟨fun h ↦ ?_, fun ⟨hs, hsuf⟩ ↦ rsplitOnce_of_last hs hsuf⟩
  have hmem : c ∈ s.toList.reverse := by
    by_contra hmem
    rw [rsplitOnce, if_neg fun hc ↦ hmem (List.mem_reverse.mpr hc)] at h
    cases h
  -- the last separator is the first one from behind
  obtain ⟨l, l', hl, hfirst⟩ := List.eq_append_cons_of_mem hmem
  have hs : s.toList = (String.ofList l'.reverse).toList ++
      c :: (String.ofList l.reverse).toList := by
    rw [← List.reverse_reverse s.toList, hl, List.reverse_append, List.reverse_cons,
      List.append_assoc, List.singleton_append, String.toList_ofList, String.toList_ofList]
  have hlast : c ∉ (String.ofList l.reverse).toList := by
    rw [String.toList_ofList]
    exact fun hc ↦ hfirst (List.mem_reverse.mp hc)
  obtain ⟨rfl, rfl⟩ := Prod.mk.inj (Option.some.inj (h.symm.trans (rsplitOnce_of_last hs hlast)))
  exact ⟨hs, hlast⟩

end Swarmagent.Rust
