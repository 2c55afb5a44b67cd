import Swarmagent.Kubernetes.Key

/-!
# The consumer's side of the event log

Swarmbot sees nothing of the agent's state, only the events.  It takes a container for running
from its `start` to its next `die` or `destroy`; an `oom` only explains the `die` after it.  The
set it so believes to be running (`believedRunning`) and the last event that matters for one
container (`lastLifecycle`) say the same (`mem_believedRunning_iff`), and the latter is what a
single observation of a container is easily computed for (`lastLifecycle_statusEvents`).
-/

namespace Swarmagent.Kubernetes

open Swarmagent.Json Swarmagent.Rust

/-- What one event does to the set of containers believed to be running. -/
def believe (believed : Finset String) (e : AgentEvent) : Finset String :=
  match e.action with
  | .start => insert e.actor.id believed
  | .die => believed.erase e.actor.id
  | .destroy => believed.erase e.actor.id
  | .oom => believed

/-- The containers a consumer of the log believes to be running. -/
def believedRunning (log : List AgentEvent) : Finset String := log.foldl believe ∅

/-- The most recent `start`, `die` or `destroy` of a container in the log. -/
def lastLifecycle (k : String) (log : List AgentEvent) : Option Action :=
  ((log.filter fun e ↦ e.actor.id = k ∧ e.action ≠ .oom).getLast?).map fun e ↦ e.action

@[simp] theorem lastLifecycle_nil (k : String) : lastLifecycle k [] = none := rfl

theorem lastLifecycle_append (k : String) (log out : List AgentEvent) :
    lastLifecycle k (log ++ out) = (lastLifecycle k out).or (lastLifecycle k log) := by
  simp only [lastLifecycle, List.filter_append, List.getLast?_append, Option.map_or]

/-- Only the container's own events matter. -/
theorem lastLifecycle_filter (k : String) (log : List AgentEvent) :
    lastLifecycle k (log.filter fun e ↦ e.actor.id = k) = lastLifecycle k log := by
  simp only [lastLifecycle, List.filter_filter]
  congr 3
  funext e
  by_cases h : e.actor.id = k <;> simp [h]

theorem lastLifecycle_singleton (k : String) (e : AgentEvent) :
    lastLifecycle k [e] = if e.actor.id = k ∧ e.action ≠ .oom then some e.action else none := by
  by_cases h : e.actor.id = k ∧ e.action ≠ .oom <;> simp [lastLifecycle, h]

/-- A container is believed to be running exactly if the last event that matters is a `start`. -/
theorem mem_believedRunning_iff (k : String) (log : List AgentEvent) :
    k ∈ believedRunning log ↔ lastLifecycle k log = some .start := by
  induction log using List.reverseRecOn with
  | nil => simp [believedRunning]
  | append_singleton log e ih =>
      have hfold : believedRunning (log ++ [e]) = believe (believedRunning log) e := by
        simp [believedRunning]
      rw [hfold, lastLifecycle_append, lastLifecycle_singleton]
      by_cases hk : e.actor.id = k
      · subst hk
        cases hact : e.action <;> simp [believe, hact, ih]
      · have hne : k ≠ e.actor.id := fun h ↦ hk h.symm
        cases hact : e.action <;> simp [believe, hact, ih, hk, hne]

section Status

variable (timestampOf : String → Option Int)

/-! ## What an observation says of its container -/

/-- A terminated status ends with a `die`, if it emits anything. -/
theorem lastLifecycle_terminatedEvents (ns pod : String) (now : Int) (k : String)
    (prev : Option TrackedContainer) (cs : Value) :
    lastLifecycle k (terminatedEvents timestampOf ns pod now k prev cs) =
      if (statusTerminated cs).isSome ∧ (wasRunning prev || missedRestart prev cs) = true then
        some .die else none := by
  unfold terminatedEvents terminatedBranch
  cases statusTerminated cs with
  | none => simp
  | some term =>
      by_cases h : (wasRunning prev || missedRestart prev cs) = true
      · simp only [if_pos h, lastLifecycle_append, lastLifecycle_singleton]
        simp [h]
      · simp [h]

/-- A running status ends with a `start`, if it emits anything. -/
theorem lastLifecycle_runningEvents (ns pod : String) (now : Int) (k : String)
    (prev : Option TrackedContainer) (cs : Value) :
    lastLifecycle k (runningEvents timestampOf ns pod now k prev cs) =
      if statusRunning cs = true ∧ (!wasRunning prev || missedRestart prev cs) = true then
        some .start else none := by
  unfold runningEvents runningBranch
  by_cases h : (statusRunning cs && (!wasRunning prev || missedRestart prev cs)) = true
  · have h' := h
    rw [Bool.and_eq_true] at h'
    rw [if_pos h, if_pos h', lastLifecycle_append, lastLifecycle_singleton]
    simp
  · have h' := h
    rw [Bool.and_eq_true] at h'
    rw [if_neg h, if_neg h', lastLifecycle_nil]

/-- **What a status says of its container**: nothing new, that it started, or that it died. -/
theorem lastLifecycle_statusEvents (ns pod : String) (now : Int) (k : String)
    (prev : Option TrackedContainer) (cs : Value) :
    lastLifecycle k (statusEvents timestampOf ns pod now k prev cs) =
      if statusRunning cs = true ∧ (!wasRunning prev || missedRestart prev cs) = true then
        some .start
      else if (statusTerminated cs).isSome ∧ (wasRunning prev || missedRestart prev cs) = true then
        some .die
      else none := by
  rw [statusEvents, lastLifecycle_append, lastLifecycle_runningEvents,
    lastLifecycle_terminatedEvents]
  split <;> simp

end Status

end Swarmagent.Kubernetes
