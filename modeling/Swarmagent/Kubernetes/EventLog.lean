import Swarmagent.Kubernetes.Consumer

/-!
# Is the event log faithful?

The agent and the consumer of its events each keep a set of running containers: the agent the
keys it tracks with `running = true`, the consumer the containers it believes to be running.  The
log is *faithful* if the two agree.

They do not always.  A container that goes from running to waiting without being seen terminated
in between, as a container does that crashed and is backing off when the agent looks again, is
tracked as no longer running, but no branch of the loop emits an event for it.  This is the only
way: `faithful_iff` says that a run is faithful throughout exactly if no step of it is of that
kind (`LosesRunning`).
-/

namespace Swarmagent.Kubernetes

open Swarmagent.Json Swarmagent.Rust

/-- The consumer believes to be running what is tracked as running. -/
def Faithful (state : WatchState) (log : List AgentEvent) : Prop :=
  ∀ k, k ∈ believedRunning log ↔ ∃ t, state.lookup k = some t ∧ t.running = true

/-- Container names are distinct within the pod, and no status is both running and terminated. -/
structure WellFormed (pod : Value) : Prop where
  distinct : DistinctNames pod
  exclusive : ExclusiveStates pod

/-- The call shows a container which is tracked as running neither running nor terminated. -/
def LosesRunning (state : WatchState) (c : WatchCall) : Prop :=
  ∃ p cs, Shows c.toWatchEvent p cs ∧ statusRunning cs = false ∧ statusTerminated cs = none ∧
    wasRunning (state.lookup (p.containerKey (statusName cs))) = true

theorem wasRunning_iff {prev : Option TrackedContainer} :
    wasRunning prev = true ↔ ∃ t, prev = some t ∧ t.running = true := by
  cases prev <;> simp [wasRunning]

theorem faithful_iff_lastLifecycle {state : WatchState} {log : List AgentEvent} :
    Faithful state log ↔
      ∀ k, lastLifecycle k log = some .start ↔ wasRunning (state.lookup k) = true := by
  apply forall_congr'
  intro k
  rw [mem_believedRunning_iff, wasRunning_iff]

section Run

variable (timestampOf : String → Option Int)

/-! ## One container -/

/-- After a status, log and state agree on its container exactly if the status does not lose a
running container. -/
theorem agrees_status_iff {k ns pod : String} {now : Int} {prev : Option TrackedContainer}
    {log : List AgentEvent} {cs : Value}
    (h : lastLifecycle k log = some .start ↔ wasRunning prev = true)
    (hex : ¬(statusRunning cs = true ∧ (statusTerminated cs).isSome = true)) :
    (lastLifecycle k (log ++ statusEvents timestampOf ns pod now k prev cs) = some .start ↔
        wasRunning (some (tracked cs)) = true) ↔
      ¬(statusRunning cs = false ∧ statusTerminated cs = none ∧ wasRunning prev = true) := by
  have hnow : wasRunning (some (tracked cs)) = statusRunning cs := rfl
  rw [lastLifecycle_append, lastLifecycle_statusEvents, hnow]
  cases hrun : statusRunning cs with
  | true =>
      -- a `start`, unless the container was running all along
      cases hwas : wasRunning prev <;> cases hmiss : missedRestart prev cs <;>
        simp_all
  | false =>
      cases hterm : statusTerminated cs with
      | none => simp [h]
      | some term =>
          -- a `die`, unless the container was not running anyway
          cases hwas : wasRunning prev <;> cases hmiss : missedRestart prev cs <;>
            simp_all

/-- After a deletion, log and state agree on the container. -/
theorem agrees_deleted {k ns pod : String} {now : Int} {prev : Option TrackedContainer}
    {log : List AgentEvent} (h : lastLifecycle k log = some .start ↔ wasRunning prev = true) :
    lastLifecycle k (log ++ if prev.isSome then [destroyed ns pod now k] else []) ≠
      some .start := by
  rw [lastLifecycle_append]
  cases prev with
  | none => simpa [wasRunning] using h
  | some t => simp [lastLifecycle_singleton, destroyed]

/-! ## One call -/

/-- A call keeps the log faithful exactly if it does not lose a running container. -/
theorem faithful_watchStep_iff {state : WatchState} {log : List AgentEvent} {c : WatchCall}
    (hc : WellFormed c.object) (h : Faithful state log) :
    Faithful (watchStep timestampOf state c).1 (log ++ (watchStep timestampOf state c).2) ↔
      ¬LosesRunning state c := by
  rw [faithful_iff_lastLifecycle] at h ⊢
  have hout : ∀ k, lastLifecycle k (log ++ (watchStep timestampOf state c).2) =
      lastLifecycle k (log ++
        (containerRun timestampOf k (state.lookup k) (observationsOf k c.toWatchEvent)).2) := by
    intro k
    rw [lastLifecycle_append, lastLifecycle_append, ← filter_watchStep, lastLifecycle_filter]
  simp only [hout, lookup_watchStep]
  constructor
  · rintro hall ⟨p, cs, hshows, hrun, hterm, hwas⟩
    have hex := hc.exclusive cs hshows.2.2.1
    have hk := hall (p.containerKey (statusName cs))
    rw [hshows.observationsOf hc.distinct, containerRun_status] at hk
    exact (agrees_status_iff timestampOf (h _) hex).mp hk ⟨hrun, hterm, hwas⟩
  · intro hok k
    rcases observationsOf_cases hc.distinct k with hobs | ⟨p, hobs⟩ | ⟨p, cs, hshows, rfl, hobs⟩ <;>
      rw [hobs]
    · simpa using h k
    · rw [containerRun_deleted]
      exact iff_of_false (agrees_deleted (h k)) (by simp [wasRunning])
    · have hex := hc.exclusive cs hshows.2.2.1
      rw [containerRun_status]
      exact (agrees_status_iff timestampOf (h _) hex).mpr fun hlost ↦
        hok ⟨p, cs, hshows, hlost⟩

/-! ## Runs -/

theorem faithful_empty : Faithful ∅ [] := by
  intro k
  simp [believedRunning]

/-- **When the log is faithful.**  In a run from the empty state over well-formed pods, the
containers believed to be running are those tracked as running after every step exactly if no
step shows a container tracked as running neither running nor terminated. -/
theorem faithful_iff (calls : List WatchCall) (hcalls : ∀ c ∈ calls, WellFormed c.object) :
    (∀ before, before <+: calls →
        Faithful (watchRun timestampOf ∅ before).1 (watchRun timestampOf ∅ before).2) ↔
      ∀ before c, before ++ [c] <+: calls →
        ¬LosesRunning (watchRun timestampOf ∅ before).1 c := by
  apply Machine.prefix_invariant_iff
  · exact faithful_empty
  · intro before c hpre h
    have hc : WellFormed c.object := hcalls c (hpre.subset (by simp))
    rw [watchRun_concat]
    exact faithful_watchStep_iff timestampOf hc h

/-- A container that crashed and is backing off when the agent looks again: the consumer goes on
believing that it runs. -/
theorem crash_loop_unfaithful :
    let c : WatchCall := ⟨⟨"ADDED", podObject "prod" "web-1"
      [statusObject "web" 0 (runningSince "2026-07-13T10:00:00Z")], 1783937000⟩, .unspecified⟩
    let c' : WatchCall := ⟨⟨"MODIFIED", podObject "prod" "web-1"
      [statusObject "web" 1 (waitingFor "CrashLoopBackOff")], 1783937100⟩, .unspecified⟩
    (SlashFreeNames c.object ∧ WellFormed c.object) ∧
      (SlashFreeNames c'.object ∧ WellFormed c'.object) ∧
      ¬Faithful (watchRun someTimestamps ∅ [c, c']).1 (watchRun someTimestamps ∅ [c, c']).2 := by
  intro c c'
  refine ⟨⟨by decide, by decide, by decide⟩, ⟨by decide, by decide, by decide⟩, fun h ↦ ?_⟩
  have hbelieved : "prod/web-1/web" ∈ believedRunning (watchRun someTimestamps ∅ [c, c']).2 := by
    decide
  have htracked : (watchRun someTimestamps ∅ [c, c']).1.lookup "prod/web-1/web" =
      some ⟨false, 1⟩ := by decide
  obtain ⟨t, ht, hrun⟩ := (h "prod/web-1/web").mp hbelieved
  rw [htracked, Option.some.injEq] at ht
  rw [← ht] at hrun
  exact Bool.false_ne_true hrun

/-- A container that is seen terminated before it is seen waiting is no such case. -/
theorem faithful_iff_terminated :
    let c : WatchCall := ⟨⟨"ADDED", podObject "prod" "web-1"
      [statusObject "web" 0 (runningSince "2026-07-13T10:00:00Z")], 1783937000⟩, .unspecified⟩
    let c' : WatchCall := ⟨⟨"MODIFIED", podObject "prod" "web-1"
      [statusObject "web" 0 (terminatedAt 1 "Error" "2026-07-13T10:05:00Z")], 1783937100⟩,
      .unspecified⟩
    (∀ before, before <+: [c, c'] → Faithful (watchRun someTimestamps ∅ before).1
        (watchRun someTimestamps ∅ before).2) ↔
      ∀ before d, before ++ [d] <+: [c, c'] →
        ¬LosesRunning (watchRun someTimestamps ∅ before).1 d := by
  intro c c'
  apply faithful_iff someTimestamps [c, c']
  intro d hd
  simp only [List.mem_cons, List.not_mem_nil, or_false] at hd
  rcases hd with rfl | rfl
  · exact ⟨by decide, by decide⟩
  · exact ⟨by decide, by decide⟩

end Run

end Swarmagent.Kubernetes
