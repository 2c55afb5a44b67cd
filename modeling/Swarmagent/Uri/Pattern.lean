import Mathlib.Computability.RegularExpressions

/-!
# Patterns

The lexical rules of a grammar are written as Mathlib's regular expressions: `+` is an alternative,
`*` puts one thing behind the other, `^ n` repeats.

Some of what holds for every word of a pattern can be computed from the pattern: whether all letters
are of a kind (`all`), and how many times one occurs at least (`least`).
-/

namespace RegularExpression

variable {α : Type*}

/-- One of the letters. -/
def anyOf (l : List α) : RegularExpression α := l.foldr (fun a P ↦ char a + P) 0

/-- The letters, in order. -/
def word (l : List α) : RegularExpression α := l.foldr (fun a P ↦ char a * P) 1

/-- At most so many times. -/
def upTo (n : ℕ) (P : RegularExpression α) : RegularExpression α := (1 + P) ^ n

/-- All letters of the pattern are of the kind. -/
def all (p : α → Bool) : RegularExpression α → Bool
  | 0 => true
  | 1 => true
  | char a => p a
  | P + Q => P.all p && Q.all p
  | P * Q => P.all p && Q.all p
  | star P => P.all p

/-- How many times the letter is in a word, at least. -/
def least [DecidableEq α] (a : α) : RegularExpression α → ℕ
  | 0 => 0
  | 1 => 0
  | char b => if a = b then 1 else 0
  | P + Q => min (P.least a) (Q.least a)
  | P * Q => P.least a + Q.least a
  | star _ => 0

variable {P : RegularExpression α} {w : List α}

theorem forall_mem_of_all {p : α → Bool} (h : P.all p = true) (hw : w ∈ P.matches') :
    ∀ a ∈ w, p a = true := by
  induction P generalizing w with
  | zero => exact absurd hw (Language.notMem_zero w)
  | epsilon =>
      rw [(Language.mem_one w).mp hw]
      exact List.forall_mem_nil _
  | char b =>
      rw [show w = [b] from hw]
      exact List.forall_mem_singleton.mpr h
  | plus P Q hP hQ =>
      obtain ⟨hp, hq⟩ := (Bool.and_eq_true _ _).mp h
      rcases hw with hw | hw
      · exact hP hp hw
      · exact hQ hq hw
  | comp P Q hP hQ =>
      obtain ⟨hp, hq⟩ := (Bool.and_eq_true _ _).mp h
      obtain ⟨u, hu, v, hv, rfl⟩ := Language.mem_mul.mp hw
      exact List.forall_mem_append.mpr ⟨hP hp hu, hQ hq hv⟩
  | star P hP =>
      obtain ⟨ws, rfl, hws⟩ := Language.mem_kstar.mp hw
      intro a ha
      obtain ⟨w, hw, ha⟩ := List.mem_flatten.mp ha
      exact hP h (hws w hw) a ha

/-- A word of letters which match by themselves. -/
theorem mem_star_of_forall (h : ∀ a ∈ w, [a] ∈ P.matches') : w ∈ P.star.matches' := by
  refine Language.mem_kstar.mpr ⟨w.map fun a ↦ [a], ?_, ?_⟩
  · induction w with
    | nil => rfl
    | cons a w ih => exact congrArg (a :: ·) (ih fun b hb ↦ h b (List.mem_cons_of_mem a hb))
  · rintro _ hv
    obtain ⟨a, ha, rfl⟩ := List.mem_map.mp hv
    exact h a ha

theorem least_le_count [DecidableEq α] {a : α} (hw : w ∈ P.matches') : P.least a ≤ w.count a := by
  induction P generalizing w with
  | zero => exact Nat.zero_le _
  | epsilon => exact Nat.zero_le _
  | char b =>
      rw [show w = [b] from hw, List.count_singleton]
      exact (if_congr (eq_comm.trans beq_iff_eq.symm) rfl rfl).le
  | plus P Q hP hQ =>
      rcases hw with hw | hw
      · exact (min_le_left _ _).trans (hP hw)
      · exact (min_le_right _ _).trans (hQ hw)
  | comp P Q hP hQ =>
      obtain ⟨u, hu, v, hv, rfl⟩ := Language.mem_mul.mp hw
      rw [List.count_append]
      exact Nat.add_le_add (hP hu) (hQ hv)
  | star P hP => exact Nat.zero_le _

end RegularExpression
