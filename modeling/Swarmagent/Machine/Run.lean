import Mathlib.Data.List.Induction

/-!
# Machines with output

A machine reads a list of inputs one after the other, carries a state and emits a list of
outputs on every input: the shape of a loop `for x in xs { … out.push(y) … }`.  This file
collects what such loops have in common:

* `run` and how it splits along its input (`run_append`, `run_concat`);
* `prefix_invariant_iff`, from what one input preserves to what every prefix of a run satisfies,
  in both directions;
* `outputs`, which keeps the outputs of each input apart, and `pairwise_outputs`, from a relation
  between inputs to one between what they make the machine emit;
* `run_map`, two machines that move alike;
* `Projection`, a functional simulation of a machine by a smaller one which sees only part of
  the inputs, of the state and of the outputs, and its two run lemmas.

We use the convention that a step returns the new state first and its outputs second.
-/

universe u v w

namespace Machine

variable {σ τ : Type u} {ι κ : Type v} {ο : Type w}

/-- **The exact condition of an invariant.**  If each further input keeps an invariant of the
inputs read so far exactly when `Ok` holds, then every prefix of the input satisfies the invariant
exactly when `Ok` holds at every input. -/
theorem prefix_invariant_iff {Inv : List ι → Prop} {Ok : List ι → ι → Prop} {l : List ι}
    (start : Inv [])
    (next : ∀ before i, before ++ [i] <+: l → Inv before → (Inv (before ++ [i]) ↔ Ok before i)) :
    (∀ before, before <+: l → Inv before) ↔ ∀ before i, before ++ [i] <+: l → Ok before i := by
  constructor
  · intro h before i hpre
    exact (next before i hpre (h before ((List.prefix_append _ _).trans hpre))).mp (h _ hpre)
  · intro h before
    induction before using List.reverseRecOn with
    | nil => exact fun _ ↦ start
    | append_singleton before i ih =>
        intro hpre
        have hbefore := ih ((List.prefix_append _ _).trans hpre)
        exact (next before i hpre hbefore).mpr (h before i hpre)

/-- Read a list of inputs, returning the state reached and everything emitted, in order. -/
def run (step : σ → ι → σ × List ο) : σ → List ι → σ × List ο
  | s, [] => (s, [])
  | s, i :: l => ((run step (step s i).1 l).1, (step s i).2 ++ (run step (step s i).1 l).2)

section Run

variable (step : σ → ι → σ × List ο)

@[simp] theorem run_nil (s : σ) : run step s [] = (s, []) := rfl

theorem run_cons (s : σ) (i : ι) (l : List ι) :
    run step s (i :: l) =
      ((run step (step s i).1 l).1, (step s i).2 ++ (run step (step s i).1 l).2) := rfl

@[simp] theorem run_singleton (s : σ) (i : ι) : run step s [i] = step s i := by
  simp [run_cons]

/-- A run over a concatenation is the run over the second part from the state the first part
reaches, emitting after it. -/
theorem run_append (s : σ) (l l' : List ι) :
    run step s (l ++ l') =
      ((run step (run step s l).1 l').1, (run step s l).2 ++ (run step (run step s l).1 l').2) := by
  induction l generalizing s with
  | nil => simp
  | cons i l ih => simp only [List.cons_append, run_cons, ih, List.append_assoc]

/-- The last step of a run. -/
theorem run_concat (s : σ) (l : List ι) (i : ι) :
    run step s (l ++ [i]) =
      ((step (run step s l).1 i).1, (run step s l).2 ++ (step (run step s l).1 i).2) := by
  rw [run_append, run_singleton]

/-- What is kept when outputs are put together and holds for every step, holds for every run. -/
theorem run_output_of_append {P : List ο → Prop} (hnil : P [])
    (happend : ∀ l l', P l → P l' → P (l ++ l')) (hstep : ∀ s i, P (step s i).2) (s : σ)
    (l : List ι) : P (run step s l).2 := by
  induction l generalizing s with
  | nil => exact hnil
  | cons i l ih => exact happend _ _ (hstep s i) (ih _)

/-- A run over blocks of inputs is the run of the machine that reads a block at a time. -/
theorem run_flatMap {κ : Type*} (f : κ → List ι) (s : σ) (l : List κ) :
    run step s (l.flatMap f) = run (fun s i ↦ run step s (f i)) s l := by
  induction l generalizing s with
  | nil => rfl
  | cons i l ih => rw [List.flatMap_cons, run_append, run_cons, ih]

/-- Inputs on which no state moves and nothing is emitted are silent. -/
theorem run_silent {s : σ} {l : List ι} (h : ∀ i ∈ l, step s i = (s, [])) :
    run step s l = (s, []) := by
  induction l with
  | nil => rfl
  | cons i l ih =>
      have hi : step s i = (s, []) := h i List.mem_cons_self
      rw [run_cons, hi, ih fun j hj ↦ h j (List.mem_cons_of_mem i hj)]
      rfl

/-! ### Outputs, input by input -/

/-- The outputs of a run, in one list for each input. -/
def outputs : σ → List ι → List (List ο)
  | _, [] => []
  | s, i :: l => (step s i).2 :: outputs (step s i).1 l

theorem run_eq_flatten (s : σ) (l : List ι) : (run step s l).2 = (outputs step s l).flatten := by
  induction l generalizing s with
  | nil => rfl
  | cons i l ih => rw [run_cons, outputs, List.flatten_cons, ih]

/-- Each list of outputs belongs to a step on one of the inputs. -/
theorem exists_step_of_mem_outputs {s : σ} {l : List ι} {out : List ο}
    (h : out ∈ outputs step s l) : ∃ s', ∃ i ∈ l, out = (step s' i).2 := by
  induction l generalizing s with
  | nil => simp [outputs] at h
  | cons i l ih =>
      rcases List.mem_cons.mp h with rfl | h
      · exact ⟨s, i, List.mem_cons_self, rfl⟩
      · obtain ⟨s', j, hj, hout⟩ := ih h
        exact ⟨s', j, List.mem_cons_of_mem i hj, hout⟩

/-- Each output belongs to a step on one of the inputs. -/
theorem exists_step_of_mem_run {s : σ} {l : List ι} {d : ο} (h : d ∈ (run step s l).2) :
    ∃ s', ∃ i ∈ l, d ∈ (step s' i).2 := by
  rw [run_eq_flatten, List.mem_flatten] at h
  obtain ⟨out, hout, hd⟩ := h
  obtain ⟨s', i, hi, rfl⟩ := exists_step_of_mem_outputs step hout
  exact ⟨s', i, hi, hd⟩

/-- A relation between inputs carries over to their outputs. -/
theorem pairwise_outputs {Rel : ι → ι → Prop} {R : List ο → List ο → Prop}
    (hR : ∀ s i s' i', Rel i i' → R (step s i).2 (step s' i').2) {s : σ} {l : List ι}
    (h : l.Pairwise Rel) : (outputs step s l).Pairwise R := by
  induction l generalizing s with
  | nil => exact List.Pairwise.nil
  | cons i l ih =>
      obtain ⟨hi, hl⟩ := List.pairwise_cons.mp h
      refine List.pairwise_cons.mpr ⟨fun out hout ↦ ?_, ih hl⟩
      obtain ⟨s', j, hj, rfl⟩ := exists_step_of_mem_outputs step hout
      exact hR s i s' j (hi j hj)

/-- Two machines that move alike and whose outputs look alike run alike. -/
theorem run_map {ο' ρ : Type*} {step : σ → ι → σ × List ο} {step' : σ → ι → σ × List ο'}
    {f : ο → ρ} {g : ο' → ρ}
    (h : ∀ s i, (step s i).1 = (step' s i).1 ∧ (step s i).2.map f = (step' s i).2.map g)
    (s : σ) (l : List ι) :
    (run step s l).1 = (run step' s l).1 ∧
      (run step s l).2.map f = (run step' s l).2.map g := by
  induction l generalizing s with
  | nil => exact ⟨rfl, rfl⟩
  | cons i l ih =>
      obtain ⟨hstate, hout⟩ := h s i
      obtain ⟨hstates, houts⟩ := ih (step s i).1
      rw [hstate] at hstates houts
      simp only [run_cons, List.map_append, hstate, hstates, hout, houts, and_self]

end Run

/-! ## Projections -/

/-- `cell` simulates the part of `step` seen through `view`, `inputs` and `keep`: after every
step the view of the state is what `cell` makes of the inputs of that step it can see, and the
outputs kept are those `cell` emits on them. -/
structure Projection (step : σ → ι → σ × List ο) (cell : τ → κ → τ × List ο)
    (view : σ → τ) (inputs : ι → List κ) (keep : ο → Bool) : Prop where
  /-- The view moves as the small machine does. -/
  state : ∀ s i, view (step s i).1 = (run cell (view s) (inputs i)).1
  /-- The outputs kept are the small machine's. -/
  output : ∀ s i, (step s i).2.filter keep = (run cell (view s) (inputs i)).2

namespace Projection

variable {step : σ → ι → σ × List ο} {cell : τ → κ → τ × List ο}
variable {view : σ → τ} {inputs : ι → List κ} {keep : ο → Bool}

/-- The view of the state a run reaches. -/
theorem run_state (h : Projection step cell view inputs keep) (s : σ) (l : List ι) :
    view (run step s l).1 = (run cell (view s) (l.flatMap inputs)).1 := by
  induction l generalizing s with
  | nil => rfl
  | cons i l ih => rw [run_cons, List.flatMap_cons, run_append, ih, h.state]

/-- The outputs a run keeps. -/
theorem run_output (h : Projection step cell view inputs keep) (s : σ) (l : List ι) :
    (run step s l).2.filter keep = (run cell (view s) (l.flatMap inputs)).2 := by
  induction l generalizing s with
  | nil => rfl
  | cons i l ih =>
      rw [run_cons, List.flatMap_cons, run_append, List.filter_append, ih, h.output, h.state]

end Projection

end Machine
