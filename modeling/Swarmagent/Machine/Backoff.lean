import Swarmagent.Machine.Run
import Mathlib.Algebra.BigOperators.Group.List.Basic
import Mathlib.Algebra.Order.BigOperators.Group.List
import Mathlib.Logic.Function.Iterate
import Mathlib.Tactic.Ring

/-!
# Back-off

A loop may carry a component which moves by itself, whatever it reads: a counter, a delay.  Then a
run moves the component as often as there are inputs (`run_view`), and what is emitted of the
component can be told without looking at the inputs (`map_run_of_view`).

A delay that is doubled each time, up to a cap, is such a component (`iterate_double`).
-/

universe u v w

namespace Machine

variable {σ : Type u} {ι : Type v} {ο : Type w} {α ρ : Type*}

section View

variable {step : σ → ι → σ × List ο}

/-- A component that moves by itself. -/
theorem run_view {view : σ → α} {next : α → α} (h : ∀ s i, view (step s i).1 = next (view s))
    (s : σ) (l : List ι) : view (run step s l).1 = next^[l.length] (view s) := by
  induction l generalizing s with
  | nil => rfl
  | cons i l ih => rw [run_cons, ih, h, List.length_cons, Function.iterate_succ_apply]

/-- **What is emitted of it**: the `n`-th output tells where it was after `n` steps. -/
theorem map_run_of_view (view : σ → α) (next : α → α) (emit : α → ρ) {f : ο → ρ}
    (h : ∀ s i, view (step s i).1 = next (view s))
    (hout : ∀ s i, (step s i).2.map f = [emit (view s)]) (s : σ) (l : List ι) :
    (run step s l).2.map f = (List.range l.length).map fun n ↦ emit (next^[n] (view s)) := by
  induction l using List.reverseRecOn with
  | nil => rfl
  | append_singleton l i ih =>
      rw [run_concat, List.map_append, ih, hout, run_view h, List.length_append,
        List.length_singleton, List.range_succ, List.map_append, List.map_singleton]

end View

/-- Twice the delay, but no more than the cap. -/
def double (cap delay : ℕ) : ℕ := min (delay * 2) cap

/-- **Doubling** a delay again and again. -/
theorem iterate_double {cap delay : ℕ} (h : delay ≤ cap) (n : ℕ) :
    (double cap)^[n] delay = min (delay * 2 ^ n) cap := by
  induction n with
  | zero => simpa using h
  | succ n ih =>
      rw [Function.iterate_succ_apply', ih, double, pow_succ, ← Nat.mul_assoc]
      omega

/-- What is waited in all. -/
theorem sum_le_of_le_cap (cap : ℕ) (l : List ℕ) (h : ∀ d ∈ l, d ≤ cap) :
    l.sum ≤ l.length * cap := by
  simpa using List.sum_le_card_nsmul l cap h

end Machine
