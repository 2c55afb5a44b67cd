import Swarmagent.Agent
import Swarmagent.Machine.Interval

/-!
# When snapshots are taken

The model of `tasks/stats.rs` with a clock.  The task takes a snapshot and posts it when it starts,
and then once in a period, for which it waits for a ticker.  The ticker delays: a tick that is
missed is not made up for.

Snapshots do not overlap and start a period apart (`paced`), so a slow orchestrator is not asked
more often than a fast one.  But a snapshot which has taken longer than the period is followed by
the next at once, as the tick for it is due by then.

## What is left open

* Of the ticker, which is `tokio::time::interval` with `MissedTickBehavior::Delay`, what is
  documented is taken for granted.  Its first tick completes at once, and each of the others not
  before its deadline, which is a period after that of the tick before, or a period after that tick
  was taken if it was missed.  It panics when it is made with a period of zero.
* Time is counted in nanoseconds, without end.
* `tolerance` is how late a tick may be taken before the ticker counts it as missed.
* Waking up may take any time, and so may a snapshot with its post.
-/

namespace Swarmagent

open Machine Interval

/-- The time between two ticks. -/
def Config.statsPeriod (cfg : Config) : ℕ := cfg.statsFrequency.toNat * 10 ^ 9

theorem Config.statsPeriod_pos {cfg : Config} (h : 1 ≤ cfg.statsFrequency) : 0 < cfg.statsPeriod :=
  Nat.mul_pos (UInt64.le_iff_toNat_le.mp h) (by decide)

/-- The ticker that is made at some moment.  Its first tick is due at once.  It could not be made
with a period of zero. -/
def Config.ticker (cfg : Config) (h : 1 ≤ cfg.statsFrequency) (now : ℕ) : Interval where
  period := cfg.statsPeriod
  positive := Config.statsPeriod_pos h
  deadline := now

section Stats

variable {η : Type} (tolerance : ℕ) {cfg : Config} (h : 1 ≤ cfg.statsFrequency)

/-- The state in which the loop is entered, after the first tick of the ticker. -/
def enterLoop (now late : ℕ) : ℕ × Interval :=
  let ticker := cfg.ticker h now
  let taken := ticker.taken now late
  (taken, ticker.next tolerance taken)

/-- `run`, where the turns come to what `status` returns. -/
def statsRun (first : Turn (Except η Status)) (late : ℕ) (rounds : List (Round (Except η Status))) :
    List (Turn (Except η Status)) :=
  first :: turns tolerance (enterLoop tolerance h (first.start + first.took) late) rounds

/-! ## The first tick -/

theorem enterLoop_fst (now late : ℕ) : (enterLoop tolerance h now late).1 = now + late :=
  congrArg (· + late) (max_self now)

theorem le_deadline_enterLoop (now late : ℕ) :
    now + cfg.statsPeriod ≤ (enterLoop tolerance h now late).2.deadline :=
  le_deadline_next (cfg.ticker h now)

theorem deadline_enterLoop {late : ℕ} (hlate : late ≤ tolerance) (now : ℕ) :
    (enterLoop tolerance h now late).2.deadline = now + cfg.statsPeriod := by
  refine deadline_next_of_le (cfg.ticker h now) ?_
  exact (enterLoop_fst tolerance h now late).trans_le (Nat.add_le_add_left hlate now)

/-- The second turn will be spaced from the first. -/
theorem after_enterLoop (first : Turn (Except η Status)) (late : ℕ) :
    After tolerance first (enterLoop tolerance h (first.start + first.took) late) where
  apart := (Nat.le_add_right _ late).trans_eq (enterLoop_fst tolerance h _ late).symm
  rate := by
    have hdeadline := le_deadline_enterLoop tolerance h (first.start + first.took) late
    show first.start + cfg.statsPeriod ≤ _
    omega

/-! ## Turns -/

variable (first : Turn (Except η Status)) (late : ℕ) (rounds : List (Round (Except η Status)))

/-- Each turn is a `tick`. -/
theorem run_tick_eq_flatMap (samples : List (Except η Status)) :
    (run tick () samples).2 = samples.flatMap fun r ↦ (tick () r).2 := by
  induction samples with
  | nil => rfl
  | cons r samples ih => rw [run_cons, List.flatMap_cons, ih]

/-- What is posted is what the agent makes of what `status` returns. -/
theorem posted_statsRun :
    (statsRun tolerance h first late rounds).flatMap (fun t ↦ (tick () t.outcome).2) =
      (run tick () (first.outcome :: rounds.map Round.outcome)).2 := by
  have hrounds := toRound_turns tolerance
    (enterLoop tolerance h (first.start + first.took) late) rounds
  rw [run_tick_eq_flatMap, List.flatMap_cons, List.flatMap_map, statsRun, List.flatMap_cons]
  conv_rhs => rw [← hrounds, List.flatMap_map]

theorem le_start_statsRun {n : ℕ} {y : Turn (Except η Status)}
    (hy : (statsRun tolerance h first late rounds)[n]? = some y) :
    first.start + n * cfg.statsPeriod ≤ y.start := by
  cases n with
  | zero =>
      obtain rfl := Option.some.inj hy
      simp
  | succ n =>
      have hdeadline := le_deadline_enterLoop tolerance h (first.start + first.took) late
      calc first.start + (n + 1) * cfg.statsPeriod
          ≤ first.start + first.took + cfg.statsPeriod + n * cfg.statsPeriod := by
            rw [Nat.succ_mul]
            omega
        _ ≤ (enterLoop tolerance h (first.start + first.took) late).2.deadline +
              n * cfg.statsPeriod := Nat.add_le_add_right hdeadline _
        _ ≤ y.start := le_start tolerance hy

theorem start_statsRun (htolerance : late ≤ tolerance) (hperiod : late ≤ cfg.statsPeriod)
    (hrounds : ∀ r ∈ rounds, InTime tolerance cfg.statsPeriod r) {n : ℕ}
    {y : Turn (Except η Status)}
    (hy : (statsRun tolerance h first late rounds)[n + 1]? = some y) :
    y.start = first.start + first.took + (n + 1) * cfg.statsPeriod + y.late := by
  have hdeadline := deadline_enterLoop tolerance h htolerance (first.start + first.took)
  have hnow : (enterLoop tolerance h (first.start + first.took) late).1 ≤
      (enterLoop tolerance h (first.start + first.took) late).2.deadline := by
    rw [enterLoop_fst, hdeadline]
    exact Nat.add_le_add_left hperiod _
  have hstart := start_eq tolerance hnow hrounds hy
  rw [hstart, hdeadline]
  show _ + n * cfg.statsPeriod + _ = _
  ring

/-- **When snapshots are taken.**  Whatever the environment is, however long snapshots take and
however late the task is woken, they do not overlap and start a period apart, but for the tolerance,
and the `n`-th starts `n` periods after the first, or later.  After the first two, each starts no
later than a period after the one before, or when that has ended, but for how late the task is
woken.  If all are in time, they keep to the periods of the ticker. -/
theorem paced (env : Env) :
    let cfg := Config.fromEnv env
    let turns := statsRun tolerance (Config.fromEnv_bounds env).1 first late rounds
    turns.flatMap (fun t ↦ (tick () t.outcome).2) =
        (run tick () (first.outcome :: rounds.map Round.outcome)).2 ∧
      turns.IsChain (Spaced tolerance cfg.statsPeriod) ∧
      turns.tail.IsChain (Prompt cfg.statsPeriod) ∧
      (∀ n y, turns[n]? = some y → first.start + n * cfg.statsPeriod ≤ y.start) ∧
      (late ≤ tolerance → late ≤ cfg.statsPeriod →
        (∀ r ∈ rounds, InTime tolerance cfg.statsPeriod r) → ∀ n y, turns[n + 1]? = some y →
          y.start = first.start + first.took + (n + 1) * cfg.statsPeriod + y.late) :=
  have h := (Config.fromEnv_bounds env).1
  ⟨posted_statsRun tolerance h first late rounds,
    isChain_spaced tolerance (after_enterLoop tolerance h first late) rounds,
    isChain_prompt tolerance (enterLoop tolerance h (first.start + first.took) late) rounds,
    fun _ _ ↦ le_start_statsRun tolerance h first late rounds,
    fun htolerance hperiod hrounds _ _ ↦
      start_statsRun tolerance h first late rounds htolerance hperiod hrounds⟩

end Stats

end Swarmagent
