import Swarmagent.Machine.Run
import Mathlib.Data.List.Chain
import Mathlib.Tactic.Ring

/-!
# Interval timers

A program that does something once in a period waits for a timer before each turn.  A turn may take
longer than a period, and the program may be woken late, so that it takes a tick after it was due.
If it takes it late by more than a tolerance, the timer that is described here does not make up for
this: the next tick is due a whole period after the one that was taken.

* No two turns overlap, and two turns start a period apart, but for the tolerance
  (`isChain_spaced`).  In a number of periods, no more turns start than there are periods
  (`le_start`).
* The program is not idle for longer than the period asks for (`isChain_prompt`).  In particular, a
  turn which has taken a period or more is followed by the next at once.
* Turns which are in time keep to the periods, with no drift (`start_eq`).
-/

universe u

namespace Machine

/-- A timer, with the moment at which its next tick is due. -/
structure Interval where
  period : ℕ
  positive : 0 < period
  deadline : ℕ

namespace Interval

/-- The moment at which a tick is taken by a program that waits for it from `now` on and is woken
late by so much. -/
def taken (timer : Interval) (now late : ℕ) : ℕ := max now timer.deadline + late

/-- The timer after its tick has been taken. -/
def next (tolerance : ℕ) (timer : Interval) (taken : ℕ) : Interval :=
  { timer with
    deadline := timer.period +
      if timer.deadline + tolerance < taken then taken else timer.deadline }

@[simp] theorem period_next (tolerance : ℕ) (timer : Interval) (taken : ℕ) :
    (timer.next tolerance taken).period = timer.period := rfl

section Next

variable {tolerance : ℕ} (timer : Interval) {taken : ℕ}

theorem le_deadline_next :
    timer.deadline + timer.period ≤ (timer.next tolerance taken).deadline := by
  unfold next
  dsimp only
  split <;> omega

theorem deadline_next_le (h : timer.deadline ≤ taken) :
    (timer.next tolerance taken).deadline ≤ taken + timer.period := by
  unfold next
  dsimp only
  split <;> omega

/-- The next tick is due a period after this one was taken, but for the tolerance. -/
theorem taken_add_period_le :
    taken + timer.period ≤ (timer.next tolerance taken).deadline + tolerance := by
  unfold next
  dsimp only
  split <;> omega

theorem deadline_next_of_le (h : taken ≤ timer.deadline + tolerance) :
    (timer.next tolerance taken).deadline = timer.deadline + timer.period := by
  rw [next, if_neg (Nat.not_lt.mpr h), Nat.add_comm]

end Next

/-! ## Turns -/

/-- What a turn is like: so much late the program is woken for it, so long it takes, and this is
what it comes to. -/
structure Round (α : Type u) where
  late : ℕ
  took : ℕ
  outcome : α

/-- A turn that was taken. -/
structure Turn (α : Type u) extends Round α where
  start : ℕ

variable {α : Type u} (tolerance : ℕ)

/-- A turn.  The state is the moment at which the program begins to wait for it, and the timer. -/
def turn (s : ℕ × Interval) (r : Round α) : (ℕ × Interval) × List (Turn α) :=
  let start := s.2.taken s.1 r.late
  ((start + r.took, s.2.next tolerance start), [{ r with start }])

/-- The turns taken from a state on. -/
def turns (s : ℕ × Interval) (rounds : List (Round α)) : List (Turn α) :=
  (run (turn tolerance) s rounds).2

theorem turns_cons (s : ℕ × Interval) (r : Round α) (rounds : List (Round α)) :
    turns tolerance s (r :: rounds) =
      { r with start := s.2.taken s.1 r.late } :: turns tolerance (turn tolerance s r).1 rounds :=
  rfl

theorem toRound_turns (s : ℕ × Interval) (rounds : List (Round α)) :
    (turns tolerance s rounds).map Turn.toRound = rounds := by
  induction rounds generalizing s with
  | nil => rfl
  | cons r rounds ih => rw [turns_cons, List.map_cons, ih]

/-- One turn after the other: they do not overlap, and start a period apart. -/
structure Spaced (period : ℕ) (x y : Turn α) : Prop where
  apart : x.start + x.took ≤ y.start
  rate : x.start + period ≤ y.start + tolerance

/-- One turn after the other: the second starts when a period is over, or if the first has taken
longer, when it has ended, unless the program is woken late. -/
def Prompt (period : ℕ) (x y : Turn α) : Prop :=
  y.start ≤ x.start + max period x.took + y.late

/-- The next turn will be spaced from this one. -/
structure After (x : Turn α) (s : ℕ × Interval) : Prop where
  apart : x.start + x.took ≤ s.1
  rate : x.start + s.2.period ≤ s.2.deadline + tolerance

theorem deadline_le_taken (timer : Interval) (now late : ℕ) :
    timer.deadline ≤ timer.taken now late :=
  (le_max_right _ _).trans (Nat.le_add_right _ _)

theorem le_taken (timer : Interval) (now late : ℕ) : now ≤ timer.taken now late :=
  (le_max_left _ _).trans (Nat.le_add_right _ _)

theorem after_turn (s : ℕ × Interval) (r : Round α) :
    After tolerance { r with start := s.2.taken s.1 r.late } (turn tolerance s r).1 where
  apart := le_rfl
  rate := show s.2.taken s.1 r.late + s.2.period ≤ _ from taken_add_period_le _

theorem After.spaced {x : Turn α} {s : ℕ × Interval} (h : After tolerance x s) (r : Round α) :
    Spaced tolerance s.2.period x { r with start := s.2.taken s.1 r.late } where
  apart := h.apart.trans (le_taken _ _ _)
  rate := h.rate.trans (Nat.add_le_add_right (deadline_le_taken _ _ _) _)

/-- **Turns are spaced**, however long they take and however late the program is woken. -/
theorem isChain_spaced {x : Turn α} {s : ℕ × Interval} (h : After tolerance x s)
    (rounds : List (Round α)) :
    (x :: turns tolerance s rounds).IsChain (Spaced tolerance s.2.period) := by
  induction rounds generalizing x s with
  | nil => exact .singleton x
  | cons r rounds ih =>
      rw [turns_cons]
      exact .cons_cons (h.spaced tolerance r) (ih (after_turn tolerance s r))

theorem prompt_of_turn (s : ℕ × Interval) (r r' : Round α) :
    let s' := (turn tolerance s r).1
    Prompt s.2.period { r with start := s.2.taken s.1 r.late }
      { r' with start := s'.2.taken s'.1 r'.late } := by
  intro s'
  have hdeadline : s'.2.deadline ≤ s.2.taken s.1 r.late + s.2.period :=
    deadline_next_le _ (deadline_le_taken _ _ _)
  have hnow : s'.1 = s.2.taken s.1 r.late + r.took := rfl
  show s'.2.taken s'.1 r'.late ≤ s.2.taken s.1 r.late + max s.2.period r.took + r'.late
  generalize s.2.taken s.1 r.late = start at hdeadline hnow ⊢
  rw [taken, hnow]
  omega

/-- **The program is prompt.** -/
theorem isChain_prompt (s : ℕ × Interval) (rounds : List (Round α)) :
    (turns tolerance s rounds).IsChain (Prompt s.2.period) := by
  induction rounds generalizing s with
  | nil => exact .nil
  | cons r rounds ih =>
      have hrest := ih (turn tolerance s r).1
      cases rounds with
      | nil => exact .singleton _
      | cons r' rounds => exact .cons_cons (prompt_of_turn tolerance s r r') hrest

/-- **Missed ticks are not made up for**: the `n`-th turn starts `n` periods after the first was
due, or later. -/
theorem le_start {s : ℕ × Interval} {rounds : List (Round α)} {n : ℕ} {y : Turn α}
    (h : (turns tolerance s rounds)[n]? = some y) :
    s.2.deadline + n * s.2.period ≤ y.start := by
  induction rounds generalizing s n with
  | nil => simp [turns] at h
  | cons r rounds ih =>
      rw [turns_cons] at h
      cases n with
      | zero =>
          obtain rfl := Option.some.inj h
          simpa using deadline_le_taken s.2 s.1 r.late
      | succ n =>
          have hrest := ih h
          have hdeadline : s.2.deadline + s.2.period ≤ (turn tolerance s r).1.2.deadline :=
            le_deadline_next _
          have hperiod : (turn tolerance s r).1.2.period = s.2.period := rfl
          rw [hperiod] at hrest
          calc s.2.deadline + (n + 1) * s.2.period
              = s.2.deadline + s.2.period + n * s.2.period := by ring
            _ ≤ (turn tolerance s r).1.2.deadline + n * s.2.period :=
                Nat.add_le_add_right hdeadline _
            _ ≤ y.start := hrest

/-- The turn is over before the next tick is due. -/
def InTime (period : ℕ) (r : Round α) : Prop := r.late ≤ tolerance ∧ r.late + r.took ≤ period

/-- **No drift.**  As long as turns are in time, the `n`-th starts `n` periods after the first was
due, but for how late the program is woken for it. -/
theorem start_eq {s : ℕ × Interval} {rounds : List (Round α)} (hs : s.1 ≤ s.2.deadline)
    (hrounds : ∀ r ∈ rounds, InTime tolerance s.2.period r) {n : ℕ} {y : Turn α}
    (h : (turns tolerance s rounds)[n]? = some y) :
    y.start = s.2.deadline + n * s.2.period + y.late := by
  induction rounds generalizing s n with
  | nil => simp [turns] at h
  | cons r rounds ih =>
      obtain ⟨⟨hlate, htook⟩, hrest⟩ := List.forall_mem_cons.mp hrounds
      have htaken : s.2.taken s.1 r.late = s.2.deadline + r.late := by
        rw [taken, max_eq_right hs]
      rw [turns_cons] at h
      cases n with
      | zero =>
          obtain rfl := Option.some.inj h
          simpa using htaken
      | succ n =>
          have hdeadline : (turn tolerance s r).1.2.deadline = s.2.deadline + s.2.period :=
            deadline_next_of_le _ (by omega)
          have hnow : (turn tolerance s r).1.1 = s.2.deadline + r.late + r.took :=
            congrArg (· + r.took) htaken
          have hstart := ih (s := (turn tolerance s r).1) (by omega) hrest h
          have hperiod : (turn tolerance s r).1.2.period = s.2.period := rfl
          rw [hstart, hdeadline, hperiod]
          ring

end Interval

end Machine
