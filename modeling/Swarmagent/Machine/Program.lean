import Mathlib.Data.List.Sigma

/-!
# Programs that make requests

A program makes requests and goes on with the answers to them.  Nothing is said of who answers, and
the same request may be answered in another way the next time (`Run`).  With fixed answers a program
is just a function of them (`eval`), and nothing is lost by fixing them as long as no request is
made twice (`eval_recorded`).

A program can be implemented by giving a program for each of its requests (`interp`).  What the
implementation does is what the program does, with each request answered by a run of its own
(`run_interp_iff`).
-/

universe u v w u' v' w'

namespace Machine

/-- A program over the requests `Q`, with answers `A`. -/
inductive Program (Q : Type u) (A : Q → Type v) (α : Type w) where
  | done (a : α)
  | ask (q : Q) (next : A q → Program Q A α)

namespace Program

variable {Q : Type u} {A : Q → Type v} {α : Type w} {β : Type w'}

def bind : Program Q A α → (α → Program Q A β) → Program Q A β
  | done a, f => f a
  | ask q next, f => ask q fun x ↦ (next x).bind f

instance : Monad (Program Q A) where
  pure := done
  bind := bind

/-- Make one request. -/
def perform (q : Q) : Program Q A (A q) := ask q done

/-! ## Runs -/

/-- The program makes these requests, is given these answers and comes to that. -/
inductive Run : Program Q A α → List (Sigma A) → α → Prop where
  | done (a : α) : Run (done a) [] a
  | ask {q : Q} {next : A q → Program Q A α} {x : A q} {t : List (Sigma A)} {a : α}
      (h : Run (next x) t a) : Run (ask q next) (⟨q, x⟩ :: t) a

section Run

variable {p : Program Q A α} {t : List (Sigma A)} {a a' : α} {b : β}

@[simp] theorem run_done_iff : Run (done a : Program Q A α) t a' ↔ t = [] ∧ a' = a := by
  constructor
  · rintro ⟨⟩
    exact ⟨rfl, rfl⟩
  · rintro ⟨rfl, rfl⟩
    exact .done a'

theorem run_ask_iff {q : Q} {next : A q → Program Q A α} :
    Run (ask q next) t a ↔ ∃ x t', t = ⟨q, x⟩ :: t' ∧ Run (next x) t' a := by
  constructor
  · rintro ⟨⟩
    exact ⟨_, _, rfl, ‹_›⟩
  · rintro ⟨x, t', rfl, h⟩
    exact .ask h

theorem run_bind_iff {f : α → Program Q A β} :
    Run (p.bind f) t b ↔ ∃ t₁ a t₂, t = t₁ ++ t₂ ∧ Run p t₁ a ∧ Run (f a) t₂ b := by
  induction p generalizing t with
  | done a =>
      constructor
      · exact fun h ↦ ⟨[], a, t, rfl, .done a, h⟩
      · rintro ⟨t₁, a', t₂, rfl, h, hf⟩
        obtain ⟨rfl, rfl⟩ := run_done_iff.mp h
        exact hf
  | ask q next ih =>
      constructor
      · intro h
        obtain ⟨x, t', rfl, hnext⟩ := run_ask_iff.mp h
        obtain ⟨t₁, a, t₂, rfl, hp, hf⟩ := (ih x).mp hnext
        exact ⟨⟨q, x⟩ :: t₁, a, t₂, rfl, .ask hp, hf⟩
      · rintro ⟨t₁, a, t₂, rfl, hp, hf⟩
        obtain ⟨x, t', rfl, hnext⟩ := run_ask_iff.mp hp
        exact .ask ((ih x).mpr ⟨t', a, t₂, rfl, hnext, hf⟩)

@[simp] theorem run_perform_iff {q : Q} {x : A q} :
    Run (perform q) t x ↔ t = [⟨q, x⟩] := by
  constructor
  · intro h
    obtain ⟨x', t', rfl, hdone⟩ := run_ask_iff.mp h
    obtain ⟨rfl, rfl⟩ := run_done_iff.mp hdone
    rfl
  · rintro rfl
    exact .ask (.done x)

/-- A request and what is done with the answer. -/
theorem run_perform_bind_iff {q : Q} {f : A q → Program Q A β} :
    Run ((perform q).bind f) t b ↔ ∃ x t', t = ⟨q, x⟩ :: t' ∧ Run (f x) t' b :=
  run_ask_iff

end Run

/-! ## Fixed answers -/

/-- What the program comes to if each request is answered as given. -/
def eval (answer : (q : Q) → A q) : Program Q A α → α
  | done a => a
  | ask q next => (next (answer q)).eval answer

section Eval

variable {answer : (q : Q) → A q} {p : Program Q A α} {t : List (Sigma A)} {a : α}

@[simp] theorem eval_done : (done a : Program Q A α).eval answer = a := rfl

@[simp] theorem eval_perform (q : Q) : (perform q : Program Q A (A q)).eval answer = answer q := rfl

@[simp] theorem eval_bind (f : α → Program Q A β) :
    (p.bind f).eval answer = (f (p.eval answer)).eval answer := by
  induction p with
  | done a => rfl
  | ask q next ih => exact ih (answer q)

/-- There is a run in which the answers are the given ones. -/
theorem exists_run_eval (answer : (q : Q) → A q) (p : Program Q A α) :
    ∃ t, Run p t (p.eval answer) ∧ ∀ e ∈ t, e.2 = answer e.1 := by
  induction p with
  | done a => exact ⟨[], .done a, nofun⟩
  | ask q next ih =>
      obtain ⟨t, ht, hanswer⟩ := ih (answer q)
      exact ⟨⟨q, answer q⟩ :: t, .ask ht, List.forall_mem_cons.mpr ⟨rfl, hanswer⟩⟩

/-- A run in which the answers are the given ones. -/
theorem eval_of_run (h : Run p t a) (ht : ∀ e ∈ t, e.2 = answer e.1) : p.eval answer = a := by
  induction h with
  | done a => rfl
  | @ask q next x t a _ ih =>
      obtain ⟨hx, hrest⟩ := List.forall_mem_cons.mp ht
      have hx : x = answer q := hx
      subst hx
      exact ih hrest

variable [DecidableEq Q]

/-- The answers of a run, and others to what was not asked. -/
def recorded (t : List (Sigma A)) (other : (q : Q) → A q) (q : Q) : A q :=
  (t.dlookup q).getD (other q)

theorem recorded_of_mem {other : (q : Q) → A q} (ht : t.NodupKeys) {e : Sigma A} (he : e ∈ t) :
    recorded t other e.1 = e.2 := by
  rw [recorded, (List.mem_dlookup_iff ht).mpr he, Option.getD_some]

/-- **Answers can be fixed** if no request is made twice. -/
theorem eval_recorded (h : Run p t a) (ht : t.NodupKeys) (other : (q : Q) → A q) :
    p.eval (recorded t other) = a :=
  eval_of_run h fun _ he ↦ (recorded_of_mem ht he).symm

end Eval

/-! ## Implementation -/

section Interp

variable {Q' : Type u'} {A' : Q' → Type v'} (impl : (q : Q) → Program Q' A' (A q))

/-- The program with its requests made as given. -/
def interp : Program Q A α → Program Q' A' α
  | done a => done a
  | ask q next => (impl q).bind fun x ↦ (next x).interp

variable {impl} {p : Program Q A α} {t : List (Sigma A')} {a : α}

/-- **What an implementation does.** -/
theorem run_interp_iff :
    Run (p.interp impl) t a ↔ ∃ s parts, Run p s a ∧
      List.Forall₂ (fun e part ↦ Run (impl e.1) part e.2) s parts ∧ t = parts.flatten := by
  induction p generalizing t with
  | done a' =>
      constructor
      · intro h
        obtain ⟨rfl, rfl⟩ := run_done_iff.mp h
        exact ⟨[], [], .done a, .nil, rfl⟩
      · rintro ⟨s, parts, h, hparts, rfl⟩
        obtain ⟨rfl, rfl⟩ := run_done_iff.mp h
        obtain rfl := List.forall₂_nil_left_iff.mp hparts
        exact .done a
  | ask q next ih =>
      constructor
      · intro h
        obtain ⟨part, x, t', rfl, hpart, hnext⟩ := run_bind_iff.mp h
        obtain ⟨s, parts, hs, hparts, rfl⟩ := (ih x).mp hnext
        exact ⟨⟨q, x⟩ :: s, part :: parts, .ask hs, .cons hpart hparts, rfl⟩
      · rintro ⟨s, parts, h, hparts, rfl⟩
        obtain ⟨x, s', rfl, hnext⟩ := run_ask_iff.mp h
        obtain ⟨part, parts', hpart, hrest, rfl⟩ := List.forall₂_cons_left_iff.mp hparts
        exact run_bind_iff.mpr
          ⟨part, x, parts'.flatten, rfl, hpart, (ih x).mpr ⟨s', parts', hnext, hrest, rfl⟩⟩

/-- Each part of what an implementation does is for a request of the program. -/
theorem exists_request_of_part {s : List (Sigma A)} {parts : List (List (Sigma A'))}
    (h : List.Forall₂ (fun e part ↦ Run (impl e.1) part e.2) s parts) {part : List (Sigma A')}
    (hpart : part ∈ parts) : ∃ q ∈ s.keys, ∃ x, Run (impl q) part x := by
  induction h with
  | nil => cases hpart
  | @cons e part' s parts hrun _ ih =>
      rcases List.mem_cons.mp hpart with rfl | hpart
      · exact ⟨e.1, List.mem_cons_self, e.2, hrun⟩
      · obtain ⟨q, hq, x, hx⟩ := ih hpart
        exact ⟨q, List.mem_cons_of_mem _ hq, x, hx⟩

/-- With fixed answers, each request comes to what its implementation does. -/
theorem eval_interp (answer : (q : Q') → A' q) :
    (p.interp impl).eval answer = p.eval fun q ↦ (impl q).eval answer := by
  induction p with
  | done a => rfl
  | ask q next ih => rw [interp, eval_bind, ih, eval]

end Interp

end Program

end Machine
