import Swarmagent.Machine.Run

/-!
# Guarded logs

A log is *guarded* by a relation when each of its entries is allowed by the entries before it.
This is the form of "every `b` is preceded by an `a`" for a machine's outputs, and it is checked
block by block: `guarded_append` splits a log where a step of the machine begins, and
`guarded_filter_iff` splits it by key when what allows an entry depends on the entries of that
key only.
-/

universe u v w

namespace Machine

variable {ο : Type u} {κ : Type v}

/-- Every entry of the log is related to the entries before it. -/
def Guarded (P : List ο → ο → Prop) (log : List ο) : Prop :=
  ∀ before d after, log = before ++ d :: after → P before d

theorem guarded_nil (P : List ο → ο → Prop) : Guarded P [] := by
  intro before d after h
  simp at h

/-- A log of one entry is guarded if nothing before it is needed to allow the entry. -/
theorem guarded_singleton_iff {P : List ο → ο → Prop} {d : ο} : Guarded P [d] ↔ P [] d := by
  constructor
  · intro h
    exact h [] d [] rfl
  · intro h before d' after heq
    cases before with
    | nil =>
        obtain ⟨rfl, -⟩ := List.cons.inj heq
        exact h
    | cons a before => simp at heq

/-- A concatenation is guarded if its first part is, and its second part is when the first
part is counted among the entries before. -/
theorem guarded_append {P : List ο → ο → Prop} {l l' : List ο} :
    Guarded P (l ++ l') ↔ Guarded P l ∧ Guarded (fun before d ↦ P (l ++ before) d) l' := by
  constructor
  · intro h
    refine ⟨fun before d after heq ↦ h before d (after ++ l') ?_, fun before d after heq ↦
      h (l ++ before) d after ?_⟩
    · rw [heq, List.append_assoc, List.cons_append]
    · rw [heq, List.append_assoc]
  · rintro ⟨hl, hl'⟩ before d after heq
    rcases List.append_eq_append_iff.mp heq with ⟨mid, rfl, hd⟩ | ⟨mid, rfl, hd⟩
    · exact hl' mid d after hd
    · cases mid with
      | nil =>
          rw [List.nil_append] at hd
          simpa using hl' [] d after hd.symm
      | cons c mid =>
          rw [List.cons_append, List.cons.injEq] at hd
          obtain ⟨rfl, -⟩ := hd
          exact hl before d mid rfl

/-- A log put together from guarded parts, if whatever else stands before does no harm. -/
theorem guarded_flatten {P : List ο → ο → Prop} (hP : ∀ l before d, P before d → P (l ++ before) d)
    {parts : List (List ο)} (h : ∀ part ∈ parts, Guarded P part) : Guarded P parts.flatten := by
  induction parts with
  | nil => exact guarded_nil P
  | cons part parts ih =>
      obtain ⟨hpart, hparts⟩ := List.forall_mem_cons.mp h
      refine guarded_append.mpr ⟨hpart, fun before d after heq ↦ ?_⟩
      exact hP part before d (ih hparts before d after heq)

/-- When what allows an entry depends on the earlier entries with its key only, a log is
guarded exactly if its part under each key is. -/
theorem guarded_filter_iff [DecidableEq κ] {P : List ο → ο → Prop} (key : ο → κ)
    (hP : ∀ before d, P before d ↔ P (before.filter fun e ↦ key e = key d) d) {log : List ο} :
    Guarded P log ↔ ∀ k, Guarded P (log.filter fun e ↦ key e = k) := by
  constructor
  · intro h k before d after heq
    obtain ⟨l, l', rfl, hl, hl'⟩ := List.filter_eq_append_iff.mp heq
    obtain ⟨m, m', rfl, hm, hd, -⟩ := List.filter_eq_cons_iff.mp hl'
    have hk : key d = k := by simpa using hd
    have hbefore : (l ++ m).filter (fun e ↦ key e = k) = before := by
      rw [List.filter_append, hl, List.filter_eq_nil_iff.mpr hm, List.append_nil]
    have hlog := h (l ++ m) d m' (List.append_assoc l m (d :: m')).symm
    rw [hP, hk, hbefore] at hlog
    exact hlog
  · intro h before d after heq
    rw [hP]
    refine h (key d) _ d (after.filter fun e ↦ key e = key d) ?_
    rw [heq, List.filter_append, List.filter_cons_of_pos (by simp)]

/-- What is made of the entries of a guarded log is guarded, if what allows an entry allows what is
made of it. -/
theorem guarded_filterMap {ρ : Type*} {P : List ο → ο → Prop} {Q : List ρ → ρ → Prop}
    {f : ο → Option ρ} {log : List ο} (h : Guarded P log)
    (hf : ∀ before d r, P before d → f d = some r → Q (before.filterMap f) r) :
    Guarded Q (log.filterMap f) := by
  intro before r after heq
  obtain ⟨l, l', rfl, rfl, hl'⟩ := List.filterMap_eq_append_iff.mp heq
  obtain ⟨m, d, m', rfl, hm, hd, -⟩ := List.filterMap_eq_cons_iff.mp hl'
  have hbefore : (l ++ m).filterMap f = l.filterMap f := by
    rw [List.filterMap_append, List.filterMap_eq_nil_iff.mpr hm, List.append_nil]
  rw [← hbefore]
  exact hf (l ++ m) d r (h (l ++ m) d m' (List.append_assoc l m (d :: m')).symm) hd

end Machine
