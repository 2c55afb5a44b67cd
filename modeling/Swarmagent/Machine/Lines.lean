import Mathlib.Data.List.Basic

/-!
# Lines

A stream is cut into lines at a delimiter.  What stands before the last delimiter are its complete
lines (`lines`), what stands after it is the beginning of a line still to be completed (`rest`).
`splitOn` from core gives both.  What makes a cut unique is that a part stops at an element that
cannot be in it (`append_inj_of_stop`).

The law that matters for a stream received in pieces is `splitOn_append`: of what came so far, only
the unfinished line bears on what is still to come.
-/

universe u

namespace Machine

/-- Two parts of a list can be told apart if the first stops where the second begins: at the first
element of another kind. -/
theorem append_inj_of_stop {α : Type u} {p : α → Prop} :
    ∀ {l l' rest rest' : List α}, (∀ x ∈ l, p x) → (∀ x ∈ l', p x) →
      (∀ x ∈ rest.head?, ¬p x) → (∀ x ∈ rest'.head?, ¬p x) → l ++ rest = l' ++ rest' →
      l = l' ∧ rest = rest'
  | [], [], _, _, _, _, _, _, h => ⟨rfl, h⟩
  | [], a :: l', rest, _, _, hl', hrest, _, h => by
      have ha : a ∈ rest.head? := by
        rw [show rest = a :: (l' ++ _) from h]
        exact rfl
      exact absurd (hl' a List.mem_cons_self) (hrest a ha)
  | a :: l, [], _, rest', hl, _, _, hrest', h => by
      have ha : a ∈ rest'.head? := by
        rw [show rest' = a :: (l ++ _) from h.symm]
        exact rfl
      exact absurd (hl a List.mem_cons_self) (hrest' a ha)
  | a :: l, a' :: l', _, _, hl, hl', hrest, hrest', h => by
      obtain ⟨rfl, htail⟩ := List.cons.inj h
      obtain ⟨rfl, hrest⟩ := append_inj_of_stop (fun x hx ↦ hl x (List.mem_cons_of_mem a hx))
        (fun x hx ↦ hl' x (List.mem_cons_of_mem a hx)) hrest hrest' htail
      exact ⟨rfl, hrest⟩

variable {α : Type u} [BEq α]

/-- The lines of a list that are ended by the delimiter. -/
def lines (d : α) (l : List α) : List (List α) := (l.splitOn d).dropLast

/-- What follows the last delimiter. -/
def rest (d : α) (l : List α) : List α := (l.splitOn d).getLast (List.splitOn_ne_nil d l)

variable [LawfulBEq α] {d : α}

/-- Without a delimiter there is no complete line. -/
theorem lines_of_notMem {l : List α} (h : d ∉ l) : lines d l = [] := by
  rw [lines, List.splitOn_eq_singleton h]
  rfl

theorem rest_of_notMem {l : List α} (h : d ∉ l) : rest d l = l := by
  simp only [rest, List.splitOn_eq_singleton h, List.getLast_singleton]

/-- The first line. -/
theorem lines_cons {l l' : List α} (h : d ∉ l) : lines d (l ++ d :: l') = l :: lines d l' := by
  rw [lines, List.splitOn_append_cons_self, List.splitOn_eq_singleton h, List.singleton_append,
    List.dropLast_cons_of_ne_nil (List.splitOn_ne_nil d l')]
  rfl

theorem rest_cons (l l' : List α) : rest d (l ++ d :: l') = rest d l' := by
  simp only [rest, List.splitOn_append_cons_self]
  exact List.getLast_append_of_ne_nil _ (List.splitOn_ne_nil d l')

/-- **Only the unfinished line matters.**  What comes next completes the line begun before. -/
theorem splitOn_append (l l' : List α) :
    (l ++ l').splitOn d = lines d l ++ (rest d l ++ l').splitOn d := by
  by_cases hd : d ∈ l
  · -- split at the last delimiter
    obtain ⟨t, s, hl, ht⟩ := List.eq_append_cons_of_mem (List.mem_reverse.mpr hd)
    have hl : l = s.reverse ++ d :: t.reverse := by
      rw [← List.reverse_reverse l, hl]
      simp
    have ht : d ∉ t.reverse := fun h ↦ ht (List.mem_reverse.mp h)
    have hlines : lines d l = s.reverse.splitOn d := by
      rw [lines, hl, List.splitOn_append_cons_self, List.splitOn_eq_singleton ht,
        List.dropLast_concat]
    rw [hlines, hl, rest_cons, rest_of_notMem ht, List.append_assoc, List.cons_append,
      List.splitOn_append_cons_self]
  · rw [lines_of_notMem hd, rest_of_notMem hd, List.nil_append]

theorem lines_append (l l' : List α) :
    lines d (l ++ l') = lines d l ++ lines d (rest d l ++ l') := by
  rw [lines, splitOn_append, List.dropLast_append_of_ne_nil (List.splitOn_ne_nil d _)]
  rfl

theorem rest_append (l l' : List α) : rest d (l ++ l') = rest d (rest d l ++ l') := by
  simp only [rest, splitOn_append l l']
  exact List.getLast_append_of_ne_nil _ (List.splitOn_ne_nil d _)

end Machine
