import Mathlib.Data.Nat.Notation

/-!
# Loops that stop by themselves

A loop `while let Some(s') = body(s) { s = s' }` need not end.  `Ends body s s'` says that it does,
and in which state; it is a relation, so nothing is said of a loop that runs forever.  `loop` runs
such a loop for a given number of rounds at most.  With a measure that every round makes smaller,
the two agree once the number of rounds is at least the measure (`loop_ends`).
-/

universe u

namespace Machine

variable {σ : Type u} {body : σ → Option σ}

/-- Run the loop for `fuel` rounds at most. -/
def loop (body : σ → Option σ) : ℕ → σ → σ
  | 0, s => s
  | fuel + 1, s => match body s with
    | none => s
    | some s' => loop body fuel s'

/-- The loop, started in the first state, ends in the second. -/
inductive Ends (body : σ → Option σ) : σ → σ → Prop
  | /-- The condition fails. -/
    done {s : σ} : body s = none → Ends body s s
  | /-- One more round. -/
    next {s s' r : σ} : body s = some s' → Ends body s' r → Ends body s r

/-- A loop ends where its condition fails. -/
theorem Ends.exit {s r : σ} (h : Ends body s r) : body r = none := by
  induction h with
  | done hs => exact hs
  | next _ _ ih => exact ih

/-- **Termination.**  A loop of which every round makes a measure smaller ends, within as many
rounds as the measure has to begin with. -/
theorem loop_ends {μ : σ → ℕ} (hμ : ∀ s s', body s = some s' → μ s' < μ s) {fuel : ℕ} {s : σ}
    (hfuel : μ s ≤ fuel) : Ends body s (loop body fuel s) := by
  induction fuel generalizing s with
  | zero =>
      cases hs : body s with
      | none => exact .done hs
      | some s' => exact absurd (hμ s s' hs) (by omega)
  | succ fuel ih =>
      unfold loop
      split
      · rename_i hs
        exact .done hs
      · rename_i s' hs
        exact .next hs (ih (by have := hμ s s' hs; omega))

end Machine
