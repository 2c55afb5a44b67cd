import Swarmagent.Json.Value
import Swarmagent.Machine.Run
import Swarmagent.Rust.Str
import Mathlib.Data.Finmap

/-!
# The Kubernetes event source

The agent watches the pods of its node and derives container lifecycle events from the
transitions of `status.containerStatuses`:

| Transition | Emitted action |
|---|---|
| container becomes running | `start` |
| running → terminated | `die` (plus `oom` when `reason == OOMKilled`) |
| `restartCount` increases | `die` + `start` |
| pod deleted | `destroy` per tracked container |

This file is the faithful model of `events.rs`.  Both loops of `diff_watch_event`, over the keys
of a deleted pod and over the container statuses of any other, are machines in the sense of
`Machine.run`: they carry the watch state and push events.

## What is left open

* `timestampOf` is `DateTime::parse_from_rfc3339(s).ok().map(|d| d.timestamp())`, which belongs to
  `chrono`.
* A `HashMap` enumerates its keys in no particular order, and in another order on every run.
  Each call is therefore given a `KeyOrder` of its own.
-/

namespace Swarmagent.Kubernetes

open Swarmagent.Json Swarmagent.Rust

/-! ## Events -/

/-- The actions of an `AgentEvent`. -/
inductive Action where
  | start
  | die
  | oom
  | destroy
deriving DecidableEq, Repr

/-- Free-form metadata of an event, a `BTreeMap<String, String>`. -/
abbrev Attributes := Finmap fun _ : String ↦ String

/-- Subject of an `AgentEvent`. -/
structure Actor where
  /-- `"{namespace}/{pod}/{container}"`. -/
  id : String
  attributes : Attributes
deriving DecidableEq

/-- Container lifecycle event pushed to Swarmbot. -/
structure AgentEvent where
  /-- Always `"container"`. -/
  typ : String
  action : Action
  /-- Always `"kubernetes"`. -/
  orchestrator : String
  actor : Actor
  /-- Unix timestamp in seconds. -/
  time : Int
deriving DecidableEq

/-- Last observed state of one container, keyed by its stats id. -/
structure TrackedContainer where
  running : Bool
  restartCount : Int
deriving DecidableEq, Repr

/-- Watch-level container state, persisted across watch reconnects. -/
abbrev WatchState := Finmap fun _ : String ↦ TrackedContainer

theorem mem_keys_iff {state : WatchState} {k : String} :
    k ∈ state.keys ↔ (state.lookup k).isSome = true := by
  rw [Finmap.mem_keys, Finmap.lookup_isSome]

/-- An order in which a `HashMap` enumerates its keys: some listing of them, each once. -/
structure KeyOrder where
  keys : Finset String → List String
  nodup : ∀ s, (keys s).Nodup
  mem_keys : ∀ s k, k ∈ keys s ↔ k ∈ s

/-- An order about which nothing is known. -/
noncomputable def KeyOrder.unspecified : KeyOrder where
  keys := Finset.toList
  nodup := Finset.nodup_toList
  mem_keys _ _ := Finset.mem_toList

def baseAttributes (ns pod container : String) : Attributes :=
  ((Finmap.insert "name" container ∅).insert "namespace" ns).insert "pod" pod

/-- The base attributes are these three and no others. -/
theorem lookup_baseAttributes (ns pod container key : String) :
    (baseAttributes ns pod container).lookup key =
      if key = "pod" then some pod else if key = "namespace" then some ns
      else if key = "name" then some container else none := by
  unfold baseAttributes
  by_cases hpod : key = "pod"
  · subst hpod
    simp
  · by_cases hns : key = "namespace"
    · subst hns
      simp [Finmap.lookup_insert_of_ne]
    · by_cases hname : key = "name"
      · subst hname
        simp [Finmap.lookup_insert_of_ne]
      · simp [hpod, hns, hname, Finmap.lookup_insert_of_ne]

def event (action : Action) (id : String) (attributes : Attributes) (time : Int) : AgentEvent where
  typ := "container"
  action := action
  orchestrator := "kubernetes"
  actor := { id := id, attributes := attributes }
  time := time

@[simp] theorem event_action (a : Action) (id : String) (attrs : Attributes) (t : Int) :
    (event a id attrs t).action = a := rfl

@[simp] theorem event_actor_id (a : Action) (id : String) (attrs : Attributes) (t : Int) :
    (event a id attrs t).actor.id = id := rfl

@[simp] theorem event_time (a : Action) (id : String) (attrs : Attributes) (t : Int) :
    (event a id attrs t).time = t := rfl

/-! ## What is read from a pod -/

def podNamespace (pod : Value) : String := pod.strAt ["metadata", "namespace"]

def podName (pod : Value) : String := pod.strAt ["metadata", "name"]

/-- The array of container statuses of a pod. -/
def containerStatuses? (pod : Value) : Option (List Value) :=
  (pod.pointer ["status", "containerStatuses"]).bind Value.asArray

/-- The container statuses of a pod, none if the pod has no such array. -/
def containerStatuses (pod : Value) : List Value := (containerStatuses? pod).getD []

/-- What the keys of a pod begin with. -/
def podPrefix (ns pod : String) : String := ns ++ "/" ++ pod ++ "/"

def statusName (cs : Value) : String := cs.strAt ["name"]

def statusRestartCount (cs : Value) : Int := ((cs.get "restartCount").bind Value.asI64).getD 0

def statusRunning (cs : Value) : Bool := (cs.pointer ["state", "running"]).isSome

def statusTerminated (cs : Value) : Option Value := cs.pointer ["state", "terminated"]

def statusStartedAt (cs : Value) : Option String :=
  (cs.pointer ["state", "running", "startedAt"]).bind Value.asStr

/-- What the watch state keeps of a container status. -/
def tracked (cs : Value) : TrackedContainer :=
  { running := statusRunning cs, restartCount := statusRestartCount cs }

/-! ### Objects as the API server sends them -/

/-- A container status with the given `state`. -/
def statusObject (name : String) (restartCount : UInt64) (state : Value) : Value :=
  .object [("name", .string name), ("restartCount", .number (.posInt restartCount)),
    ("state", state)]

/-- A pod with the given container statuses. -/
def podObject (ns name : String) (statuses : List Value) : Value :=
  .object [("metadata", .object [("namespace", .string ns), ("name", .string name)]),
    ("status", .object [("containerStatuses", .array statuses)])]

/-- The state of a running container. -/
def runningSince (startedAt : String) : Value :=
  .object [("running", .object [("startedAt", .string startedAt)])]

/-- The state of a waiting container. -/
def waitingFor (reason : String) : Value :=
  .object [("waiting", .object [("reason", .string reason)])]

/-- The state of a terminated container. -/
def terminatedAt (exitCode : UInt64) (reason finishedAt : String) : Value :=
  .object [("terminated", .object [("exitCode", .number (.posInt exitCode)),
    ("reason", .string reason), ("finishedAt", .string finishedAt)])]

/-- Some instants and their Unix timestamps. -/
def someTimestamps : String → Option Int
  | "2026-07-13T09:00:00Z" => some 1783933200
  | "2026-07-13T10:00:00Z" => some 1783936800
  | "2026-07-13T10:05:00Z" => some 1783937100
  | "2026-07-13T11:00:00Z" => some 1783940400
  | _ => none

/-! ## One container status -/

def wasRunning (prev : Option TrackedContainer) : Bool := prev.any fun p ↦ p.running

/-- A restart while nobody was watching shows up only as a counter bump. -/
def missedRestart (prev : Option TrackedContainer) (cs : Value) : Bool :=
  prev.any fun p ↦ decide (statusRestartCount cs > p.restartCount)

section Events

variable (timestampOf : String → Option Int)

def tsOr (now : Int) (rfc3339 : Option String) : Int := (rfc3339.bind timestampOf).getD now

/-- Attributes of a `die`, and of the `oom` before it: the exit code and the reason, as far as
the status has them. -/
def deathAttributes (ns pod container : String) (term : Value) : Attributes :=
  let attrs := baseAttributes ns pod container
  let attrs := match (term.get "exitCode").bind Value.asI64 with
    | some code => attrs.insert "exitCode" (toString code)
    | none => attrs
  if term.strAt ["reason"] = "" then attrs else attrs.insert "reason" (term.strAt ["reason"])

/-- The exit code and the reason, as far as there are any, and the base attributes. -/
theorem lookup_deathAttributes (ns pod container : String) (term : Value) (key : String) :
    (deathAttributes ns pod container term).lookup key =
      if key = "reason" then
        if term.strAt ["reason"] = "" then none else some (term.strAt ["reason"])
      else if key = "exitCode" then ((term.get "exitCode").bind Value.asI64).map toString
      else (baseAttributes ns pod container).lookup key := by
  let attrs := match (term.get "exitCode").bind Value.asI64 with
    | some code => (baseAttributes ns pod container).insert "exitCode" (toString code)
    | none => baseAttributes ns pod container
  have hlookup : attrs.lookup key =
      if key = "exitCode" then ((term.get "exitCode").bind Value.asI64).map toString
      else (baseAttributes ns pod container).lookup key := by
    unfold attrs
    by_cases hcode : key = "exitCode"
    · subst hcode
      rw [if_pos rfl]
      cases (term.get "exitCode").bind Value.asI64 with
      | none => simp [lookup_baseAttributes]
      | some code => exact Finmap.lookup_insert _
    · rw [if_neg hcode]
      cases (term.get "exitCode").bind Value.asI64 with
      | none => rfl
      | some code => exact Finmap.lookup_insert_of_ne _ hcode
  show (if term.strAt ["reason"] = "" then attrs
    else attrs.insert "reason" (term.strAt ["reason"])).lookup key = _
  rw [← hlookup]
  by_cases hreason : key = "reason"
  · subst hreason
    rw [if_pos rfl]
    split
    · rw [hlookup, if_neg (by decide)]
      simp [lookup_baseAttributes]
    · exact Finmap.lookup_insert _
  · rw [if_neg hreason]
    split
    · rfl
    · exact Finmap.lookup_insert_of_ne _ hreason

section Branches

/- The two branches of the loop over the statuses, for anything that is made of an action, its
attributes and its time. -/
variable {τ ε : Type} (emit : Action → Attributes → τ → ε) (now : τ) (ts : Option String → τ)

/-- The branch of a terminated container. -/
def terminatedBranch (ns pod : String) (prev : Option TrackedContainer) (cs : Value) : List ε :=
  match statusTerminated cs with
  | none => []
  | some term =>
      if wasRunning prev || missedRestart prev cs then
        let time := ts ((term.get "finishedAt").bind Value.asStr)
        let attrs := deathAttributes ns pod (statusName cs) term
        (if term.strAt ["reason"] = "OOMKilled" then [emit .oom attrs time] else []) ++
          [emit .die attrs time]
      else []

/-- The branch of a running container.  If it was running before, with a restart in between,
the `die` nobody saw is emitted before the `start`. -/
def runningBranch (ns pod : String) (prev : Option TrackedContainer) (cs : Value) : List ε :=
  if statusRunning cs && (!wasRunning prev || missedRestart prev cs) then
    let attrs := baseAttributes ns pod (statusName cs)
    (if missedRestart prev cs && wasRunning prev then [emit .die attrs now] else []) ++
      [emit .start attrs (ts (statusStartedAt cs))]
  else []

variable {emit now ts} {ns pod : String} {prev : Option TrackedContainer} {cs : Value} {x : ε}

theorem mem_terminatedBranch (h : x ∈ terminatedBranch emit ts ns pod prev cs) :
    ∃ a term, (a = .oom ∨ a = .die) ∧ statusTerminated cs = some term ∧
      x = emit a (deathAttributes ns pod (statusName cs) term)
        (ts ((term.get "finishedAt").bind Value.asStr)) := by
  unfold terminatedBranch at h
  split at h
  · simp at h
  · next term hterm =>
      split at h
      · rcases List.mem_append.mp h with h | h
        · split at h
          · exact ⟨.oom, term, Or.inl rfl, hterm, List.mem_singleton.mp h⟩
          · simp at h
        · exact ⟨.die, term, Or.inr rfl, hterm, List.mem_singleton.mp h⟩
      · simp at h

theorem mem_runningBranch (h : x ∈ runningBranch emit now ts ns pod prev cs) :
    x = emit .die (baseAttributes ns pod (statusName cs)) now ∨
      x = emit .start (baseAttributes ns pod (statusName cs)) (ts (statusStartedAt cs)) := by
  unfold runningBranch at h
  split at h
  · rcases List.mem_append.mp h with h | h
    · split at h
      · exact Or.inl (List.mem_singleton.mp h)
      · simp at h
    · exact Or.inr (List.mem_singleton.mp h)
  · simp at h

end Branches

/-- The events of a terminated container. -/
def terminatedEvents (ns pod : String) (now : Int) (key : String)
    (prev : Option TrackedContainer) (cs : Value) : List AgentEvent :=
  terminatedBranch (fun action attrs time ↦ event action key attrs time) (tsOr timestampOf now)
    ns pod prev cs

/-- The events of a running container. -/
def runningEvents (ns pod : String) (now : Int) (key : String)
    (prev : Option TrackedContainer) (cs : Value) : List AgentEvent :=
  runningBranch (fun action attrs time ↦ event action key attrs time) now (tsOr timestampOf now)
    ns pod prev cs

/-- The events of one container status, given what was tracked for the container. -/
def statusEvents (ns pod : String) (now : Int) (key : String)
    (prev : Option TrackedContainer) (cs : Value) : List AgentEvent :=
  terminatedEvents timestampOf ns pod now key prev cs ++
    runningEvents timestampOf ns pod now key prev cs

/-! ## One watch event -/

/-- The body of the loop over the container statuses. -/
def statusStep (ns pod : String) (now : Int) (state : WatchState) (cs : Value) :
    WatchState × List AgentEvent :=
  if statusName cs = "" then (state, [])
  else
    let key := podPrefix ns pod ++ statusName cs
    (state.insert key (tracked cs),
      statusEvents timestampOf ns pod now key (state.lookup key) cs)

/-- The `destroy` of the container with the given key. -/
def destroyed (ns pod : String) (now : Int) (key : String) : AgentEvent :=
  event .destroy key (baseAttributes ns pod (rsplitNext key '/')) now

/-- The body of the loop over the keys of a deleted pod. -/
def destroyStep (ns pod : String) (now : Int) (state : WatchState) (key : String) :
    WatchState × List AgentEvent :=
  (state.erase key, [destroyed ns pod now key])

/-- The keys of a deleted pod, in the order the map enumerates them. -/
def deletedKeys (order : KeyOrder) (state : WatchState) (pre : String) : List String :=
  (order.keys state.keys).filter (startsWith · pre)

/-- Applies one watch event (`{"type": "...", "object": <Pod>}`) to `state` and returns the
lifecycle events to forward.  `now` is the fallback timestamp. -/
def diffWatchEvent (order : KeyOrder) (state : WatchState) (eventType : String) (pod : Value)
    (now : Int) : WatchState × List AgentEvent :=
  let ns := podNamespace pod
  let name := podName pod
  if ns = "" ∨ name = "" then (state, [])
  else if eventType = "DELETED" then
    Machine.run (destroyStep ns name now) state (deletedKeys order state (podPrefix ns name))
  else match containerStatuses? pod with
    | none => (state, [])
    | some statuses => Machine.run (statusStep timestampOf ns name now) state statuses

/-! ### The three ways through a call -/

section Cases

variable {order : KeyOrder} {state : WatchState} {eventType : String} {pod : Value} {now : Int}

/-- An object without a namespace or a name is ignored. -/
theorem diffWatchEvent_unnamed (hpod : podNamespace pod = "" ∨ podName pod = "") :
    diffWatchEvent timestampOf order state eventType pod now = (state, []) := by
  simp only [diffWatchEvent, hpod, if_true]

/-- A deletion. -/
theorem diffWatchEvent_deleted (hpod : ¬(podNamespace pod = "" ∨ podName pod = ""))
    (htype : eventType = "DELETED") :
    diffWatchEvent timestampOf order state eventType pod now =
      Machine.run (destroyStep (podNamespace pod) (podName pod) now) state
        (deletedKeys order state (podPrefix (podNamespace pod) (podName pod))) := by
  simp only [diffWatchEvent, hpod, htype, if_true, if_false]

/-- Any other event.  A pod without container statuses is one with an empty list of them. -/
theorem diffWatchEvent_shown (hpod : ¬(podNamespace pod = "" ∨ podName pod = ""))
    (htype : eventType ≠ "DELETED") :
    diffWatchEvent timestampOf order state eventType pod now =
      Machine.run (statusStep timestampOf (podNamespace pod) (podName pod) now) state
        (containerStatuses pod) := by
  simp only [diffWatchEvent, hpod, htype, if_false, containerStatuses]
  cases containerStatuses? pod <;> rfl

end Cases

/-! ## Runs -/

/-- One event of the watch stream, with the clock at the time it is handled. -/
structure WatchEvent where
  eventType : String
  object : Value
  now : Int

/-- One call of `diff_watch_event`: the event and the order in which the map is enumerated. -/
structure WatchCall extends WatchEvent where
  order : KeyOrder

/-- A call as a step of a machine. -/
def watchStep (state : WatchState) (c : WatchCall) : WatchState × List AgentEvent :=
  diffWatchEvent timestampOf c.order state c.eventType c.object c.now

/-- A sequence of calls: the state reached and everything emitted. -/
def watchRun (state : WatchState) (calls : List WatchCall) : WatchState × List AgentEvent :=
  Machine.run (watchStep timestampOf) state calls

end Events

end Swarmagent.Kubernetes
