/-!
# Programs that check one thing after the other

A program `a()?; b()?; c()?` fails with the error of the first thing that goes wrong.  `Checks x l`
says that `x` is such a program, where `l` lists what can go wrong, in order, and whether it does
not: it fails with the first error whose check is not passed, and succeeds if all are.

The checks of a program are found by following its text: `Checks.pure`, `Checks.bind`.
-/

universe u v

namespace Machine

variable {ε : Type u} {α β : Type v}

/-- The first error whose check is not passed. -/
def firstError (l : List (ε × Bool)) : Option ε := (l.find? fun c ↦ !c.2).map Prod.fst

/-- There is no error if all checks are passed. -/
theorem firstError_eq_none_iff {l : List (ε × Bool)} :
    firstError l = none ↔ ∀ c ∈ l, c.2 = true := by
  simp [firstError, List.find?_eq_none]

/-- The program fails with the first error, if there is one, and else it succeeds. -/
def Checks (x : Except ε α) (l : List (ε × Bool)) : Prop :=
  match firstError l with
  | some e => x = .error e
  | none => ∃ a, x = .ok a

namespace Checks

variable {x : Except ε α} {l : List (ε × Bool)}

theorem pure (a : α) : Checks (.ok a : Except ε α) [] := ⟨a, rfl⟩

/-- **One check after the other.**  The rest need only be looked at if the first is passed. -/
theorem bind {e : ε} {passed : Bool} {f : α → Except ε β} (hx : Checks x [(e, passed)])
    (hf : ∀ a, x = .ok a → Checks (f a) l) : Checks (x >>= f) ((e, passed) :: l) := by
  cases passed with
  | true =>
      obtain ⟨a, rfl⟩ := hx
      exact hf a rfl
  | false =>
      obtain rfl : x = .error e := hx
      exact (rfl : (Except.error e : Except ε β) = .error e)

/-- What is made of the result does not matter. -/
theorem map {f : α → β} (hx : Checks x l) : Checks (f <$> x) l := by
  unfold Checks at hx ⊢
  split at hx
  · next e _ =>
      subst hx
      rfl
  · obtain ⟨a, rfl⟩ := hx
    exact ⟨f a, rfl⟩

theorem eq_error_iff (h : Checks x l) {e : ε} : x = .error e ↔ firstError l = some e := by
  unfold Checks at h
  split at h
  · next e' he' => rw [h, he', Except.error.injEq, Option.some.injEq]
  · next he' =>
      obtain ⟨a, rfl⟩ := h
      rw [he']
      exact iff_of_false nofun nofun

theorem exists_ok_iff (h : Checks x l) : (∃ a, x = .ok a) ↔ ∀ c ∈ l, c.2 = true := by
  rw [← firstError_eq_none_iff]
  unfold Checks at h
  split at h
  · next e he =>
      rw [h, he]
      exact iff_of_false nofun nofun
  · next he => exact iff_of_true h he

end Checks

end Machine
