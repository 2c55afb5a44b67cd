import Swarmagent.Kubernetes.Events
import Mathlib.Data.List.Nodup

/-!
# One container at a time

`diffWatchEvent` treats the containers of a node independently: it reads and writes the state of
a container only when the event shows that container, and every event it emits carries the
container's key as `Actor.ID`.  This file makes that precise.  `containerStep` is the machine of
a single container; it sees only the `Observation`s of that container, and
`watchStep_projection` says that the agent, looked at through one key, *is* that machine:

* what is tracked under the key is the state of the container's machine (`lookup_watchRun`);
* the events with the key as `Actor.ID` are the ones it emits (`filter_watchRun`).

Nothing is assumed of names here: what an event shows of a key is decided by the very tests the
code makes, a prefix test for a deletion and equality with the joined key for a status.
-/

namespace Swarmagent.Kubernetes

open Swarmagent.Json Swarmagent.Rust

/-- What a watch event shows of one container: a status, or that its pod is gone. -/
inductive Observation where
  | status (ns pod : String) (now : Int) (cs : Value)
  | deleted (ns pod : String) (now : Int)

/-- What a container status shows of the container with key `k`. -/
def statusObservation (k ns pod : String) (now : Int) (cs : Value) : List Observation :=
  if statusName cs ≠ "" ∧ podPrefix ns pod ++ statusName cs = k then [.status ns pod now cs] else []

/-- What a watch event shows of the container with key `k`. -/
def observationsOf (k : String) (e : WatchEvent) : List Observation :=
  let ns := podNamespace e.object
  let name := podName e.object
  if ns = "" ∨ name = "" then []
  else if e.eventType = "DELETED" then
    if startsWith k (podPrefix ns name) then [.deleted ns name e.now] else []
  else (containerStatuses e.object).flatMap (statusObservation k ns name e.now)

section Cases

variable {k : String} {e : WatchEvent}

theorem observationsOf_unnamed (hpod : podNamespace e.object = "" ∨ podName e.object = "") :
    observationsOf k e = [] := by
  simp only [observationsOf, hpod, if_true]

theorem observationsOf_deleted (hpod : ¬(podNamespace e.object = "" ∨ podName e.object = ""))
    (htype : e.eventType = "DELETED") :
    observationsOf k e =
      if startsWith k (podPrefix (podNamespace e.object) (podName e.object)) then
        [.deleted (podNamespace e.object) (podName e.object) e.now] else [] := by
  simp only [observationsOf, hpod, htype, if_true, if_false]

theorem observationsOf_shown (hpod : ¬(podNamespace e.object = "" ∨ podName e.object = ""))
    (htype : e.eventType ≠ "DELETED") :
    observationsOf k e = (containerStatuses e.object).flatMap
      (statusObservation k (podNamespace e.object) (podName e.object) e.now) := by
  simp only [observationsOf, hpod, htype, if_false]

end Cases

/-- What a sequence of calls shows of the container with key `k`. -/
def observations (k : String) (calls : List WatchCall) : List Observation :=
  calls.flatMap fun c ↦ observationsOf k c.toWatchEvent

theorem observations_cons (k : String) (c : WatchCall) (calls : List WatchCall) :
    observations k (c :: calls) = observationsOf k c.toWatchEvent ++ observations k calls :=
  List.flatMap_cons

theorem observations_append (k : String) (calls calls' : List WatchCall) :
    observations k (calls ++ calls') = observations k calls ++ observations k calls' :=
  List.flatMap_append

section Machine

variable (timestampOf : String → Option Int)

/-- The machine of the container with key `k`. -/
def containerStep (k : String) (prev : Option TrackedContainer) :
    Observation → Option TrackedContainer × List AgentEvent
  | .status ns pod now cs => (some (tracked cs), statusEvents timestampOf ns pod now k prev cs)
  | .deleted ns pod now => (none, if prev.isSome then [destroyed ns pod now k] else [])

/-- The run of a container's machine. -/
def containerRun (k : String) (prev : Option TrackedContainer) (obs : List Observation) :
    Option TrackedContainer × List AgentEvent :=
  Machine.run (containerStep timestampOf k) prev obs

@[simp] theorem containerRun_nil (k : String) (prev : Option TrackedContainer) :
    containerRun timestampOf k prev [] = (prev, []) := rfl

@[simp] theorem containerRun_status (k : String) (prev : Option TrackedContainer)
    (ns pod : String) (now : Int) (cs : Value) :
    containerRun timestampOf k prev [.status ns pod now cs] =
      (some (tracked cs), statusEvents timestampOf ns pod now k prev cs) :=
  Machine.run_singleton _ _ _

@[simp] theorem containerRun_deleted (k : String) (prev : Option TrackedContainer)
    (ns pod : String) (now : Int) :
    containerRun timestampOf k prev [.deleted ns pod now] =
      (none, if prev.isSome then [destroyed ns pod now k] else []) :=
  Machine.run_singleton _ _ _

theorem containerRun_append (k : String) (prev : Option TrackedContainer)
    (obs obs' : List Observation) :
    containerRun timestampOf k prev (obs ++ obs') =
      ((containerRun timestampOf k (containerRun timestampOf k prev obs).1 obs').1,
        (containerRun timestampOf k prev obs).2 ++
          (containerRun timestampOf k (containerRun timestampOf k prev obs).1 obs').2) :=
  Machine.run_append _ prev obs obs'

/-- After a status, its tracked part is the state. -/
@[simp] theorem containerRun_concat_status (k : String) (prev : Option TrackedContainer)
    (obs : List Observation) (ns pod : String) (now : Int) (cs : Value) :
    (containerRun timestampOf k prev (obs ++ [.status ns pod now cs])).1 = some (tracked cs) := by
  rw [containerRun, Machine.run_concat]
  rfl

/-- After a deletion nothing is tracked. -/
@[simp] theorem containerRun_concat_deleted (k : String) (prev : Option TrackedContainer)
    (obs : List Observation) (ns pod : String) (now : Int) :
    (containerRun timestampOf k prev (obs ++ [.deleted ns pod now])).1 = none := by
  rw [containerRun, Machine.run_concat]
  rfl

/-! ## Events carry the key of their container -/

/-- A terminated status makes events of its container that tell its exit code and reason. -/
theorem mem_terminatedEvents {ns pod : String} {now : Int} {k : String}
    {prev : Option TrackedContainer} {cs : Value} {e : AgentEvent}
    (he : e ∈ terminatedEvents timestampOf ns pod now k prev cs) :
    ∃ a term t, (a = .oom ∨ a = .die) ∧
      e = event a k (deathAttributes ns pod (statusName cs) term) t := by
  obtain ⟨a, term, ha, -, rfl⟩ := mem_terminatedBranch he
  exact ⟨a, term, _, ha, rfl⟩

/-- A running status makes events of its container that tell nothing but its names. -/
theorem mem_runningEvents {ns pod : String} {now : Int} {k : String}
    {prev : Option TrackedContainer} {cs : Value} {e : AgentEvent}
    (he : e ∈ runningEvents timestampOf ns pod now k prev cs) :
    ∃ a t, (a = .die ∨ a = .start) ∧
      e = event a k (baseAttributes ns pod (statusName cs)) t := by
  rcases mem_runningBranch he with rfl | rfl
  · exact ⟨.die, _, Or.inl rfl, rfl⟩
  · exact ⟨.start, _, Or.inr rfl, rfl⟩

/-- A status makes events of its container, but never a `destroy`. -/
theorem mem_statusEvents {ns pod : String} {now : Int} {k : String}
    {prev : Option TrackedContainer} {cs : Value} {e : AgentEvent}
    (he : e ∈ statusEvents timestampOf ns pod now k prev cs) :
    ∃ a attrs t, a ≠ .destroy ∧ e = event a k attrs t := by
  rcases List.mem_append.mp he with h | h
  · obtain ⟨a, term, t, rfl | rfl, rfl⟩ := mem_terminatedEvents timestampOf h
    · exact ⟨.oom, _, t, by decide, rfl⟩
    · exact ⟨.die, _, t, by decide, rfl⟩
  · obtain ⟨a, t, rfl | rfl, rfl⟩ := mem_runningEvents timestampOf h
    · exact ⟨.die, _, t, by decide, rfl⟩
    · exact ⟨.start, _, t, by decide, rfl⟩

theorem statusEvents_id {ns pod : String} {now : Int} {k : String}
    {prev : Option TrackedContainer} {cs : Value} {e : AgentEvent}
    (he : e ∈ statusEvents timestampOf ns pod now k prev cs) : e.actor.id = k := by
  obtain ⟨a, attrs, t, -, rfl⟩ := mem_statusEvents timestampOf he
  exact event_actor_id a k attrs t

/-! ## The status loop -/

/-- The part of the status loop that concerns the container with key `k`. -/
theorem statusStep_projection (ns pod : String) (now : Int) (k : String) :
    Machine.Projection (statusStep timestampOf ns pod now) (containerStep timestampOf k)
      (Finmap.lookup k) (statusObservation k ns pod now) (fun e ↦ e.actor.id = k) := by
  have key : ∀ state cs,
      (statusStep timestampOf ns pod now state cs).1.lookup k =
          (containerRun timestampOf k (state.lookup k) (statusObservation k ns pod now cs)).1 ∧
        (statusStep timestampOf ns pod now state cs).2.filter (fun e ↦ e.actor.id = k) =
          (containerRun timestampOf k (state.lookup k) (statusObservation k ns pod now cs)).2 := by
    intro state cs
    by_cases hname : statusName cs = ""
    · simp [statusStep, statusObservation, hname]
    · by_cases hk : podPrefix ns pod ++ statusName cs = k
      · subst hk
        rw [statusStep, if_neg hname, statusObservation, if_pos ⟨hname, rfl⟩, containerRun_status]
        constructor
        · exact Finmap.lookup_insert _
        · apply List.filter_eq_self.mpr
          intro e he
          simpa using statusEvents_id timestampOf he
      · rw [statusStep, if_neg hname, statusObservation, if_neg fun h ↦ hk h.2, containerRun_nil]
        constructor
        · exact Finmap.lookup_insert_of_ne _ fun h ↦ hk h.symm
        · apply List.filter_eq_nil_iff.mpr
          intro e he
          rw [statusEvents_id timestampOf he]
          simpa using hk
  exact ⟨fun state cs ↦ (key state cs).1, fun state cs ↦ (key state cs).2⟩

/-! ## The deletion loop -/

/-- The deletion loop emits one `destroy` for each key. -/
theorem destroyRun_output (ns pod : String) (now : Int) (state : WatchState) (keys : List String) :
    (Machine.run (destroyStep ns pod now) state keys).2 = keys.map (destroyed ns pod now) := by
  induction keys generalizing state with
  | nil => rfl
  | cons key keys ih => rw [Machine.run_cons, ih]; rfl

/-- The deletion loop drops the keys it visits and no others. -/
theorem destroyRun_lookup (ns pod : String) (now : Int) (state : WatchState) (keys : List String)
    (k : String) :
    (Machine.run (destroyStep ns pod now) state keys).1.lookup k =
      if k ∈ keys then none else state.lookup k := by
  induction keys generalizing state with
  | nil => simp
  | cons key keys ih =>
      rw [Machine.run_cons, ih]
      by_cases hk : k ∈ keys
      · simp [hk]
      · by_cases hkey : k = key
        · subst hkey
          simp [hk, destroyStep]
        · simp [hk, hkey, destroyStep, Finmap.lookup_erase_ne hkey]

/-- Among events of distinct keys, at most one has the key `k`. -/
theorem filter_destroyed (ns pod : String) (now : Int) {keys : List String} (hnodup : keys.Nodup)
    (k : String) :
    (keys.map (destroyed ns pod now)).filter (fun e ↦ e.actor.id = k) =
      if k ∈ keys then [destroyed ns pod now k] else [] := by
  induction keys with
  | nil => rfl
  | cons key keys ih =>
      obtain ⟨hnot, hnodup⟩ := List.nodup_cons.mp hnodup
      have hid : (destroyed ns pod now key).actor.id = key := rfl
      by_cases hkey : key = k
      · subst hkey
        rw [List.map_cons, List.filter_cons_of_pos (by simp [hid]), ih hnodup]
        simp [hnot]
      · have hne : k ≠ key := fun h ↦ hkey h.symm
        rw [List.map_cons, List.filter_cons_of_neg (by simp [hid, hkey]), ih hnodup]
        simp [hne]

/-! ## The whole call -/

/-- The keys a deletion visits are the tracked ones with the pod's prefix. -/
theorem mem_deletedKeys {order : KeyOrder} {state : WatchState} {pre k : String} :
    k ∈ deletedKeys order state pre ↔ (state.lookup k).isSome ∧ startsWith k pre = true := by
  rw [deletedKeys, List.mem_filter, order.mem_keys, Finmap.mem_keys, Finmap.lookup_isSome]

theorem nodup_deletedKeys (order : KeyOrder) (state : WatchState) (pre : String) :
    (deletedKeys order state pre).Nodup := (order.nodup state.keys).filter _

/-- The deletion loop, seen through the key `k`, is one deletion of that container if it has the
pod's prefix, and nothing otherwise. -/
theorem destroyRun_projection (order : KeyOrder) (state : WatchState) (ns pod : String) (now : Int)
    (k : String) :
    let r := Machine.run (destroyStep ns pod now) state
      (deletedKeys order state (podPrefix ns pod))
    let obs : List Observation :=
      if startsWith k (podPrefix ns pod) then [.deleted ns pod now] else []
    let r' := containerRun timestampOf k (state.lookup k) obs
    r.1.lookup k = r'.1 ∧ r.2.filter (fun e ↦ e.actor.id = k) = r'.2 := by
  simp only [destroyRun_lookup, destroyRun_output,
    filter_destroyed ns pod now (nodup_deletedKeys order state _) k, mem_deletedKeys]
  by_cases hpre : startsWith k (podPrefix ns pod) = true
  · cases state.lookup k <;> simp [hpre, containerRun, containerStep]
  · simp [hpre, containerRun]

/-- **The agent, one container at a time.**  Seen through the key `k`, a call of
`diff_watch_event` is the container's machine reading what the event shows of `k`. -/
theorem watchStep_projection (k : String) :
    Machine.Projection (watchStep timestampOf) (containerStep timestampOf k) (Finmap.lookup k)
      (fun c ↦ observationsOf k c.toWatchEvent) (fun e ↦ e.actor.id = k) := by
  have key : ∀ (state : WatchState) (c : WatchCall),
      (watchStep timestampOf state c).1.lookup k =
          (containerRun timestampOf k (state.lookup k) (observationsOf k c.toWatchEvent)).1 ∧
        (watchStep timestampOf state c).2.filter (fun e ↦ e.actor.id = k) =
          (containerRun timestampOf k (state.lookup k) (observationsOf k c.toWatchEvent)).2 := by
    intro state c
    by_cases hpod : podNamespace c.object = "" ∨ podName c.object = ""
    · rw [watchStep, diffWatchEvent_unnamed _ hpod, observationsOf_unnamed hpod]
      exact ⟨rfl, rfl⟩
    · by_cases htype : c.eventType = "DELETED"
      · rw [watchStep, diffWatchEvent_deleted _ hpod htype, observationsOf_deleted hpod htype]
        exact destroyRun_projection timestampOf c.order state _ _ c.now k
      · rw [watchStep, diffWatchEvent_shown _ hpod htype, observationsOf_shown hpod htype]
        have h := statusStep_projection timestampOf (podNamespace c.object) (podName c.object)
          c.now k
        exact ⟨h.run_state _ _, h.run_output _ _⟩
  exact ⟨fun state c ↦ (key state c).1, fun state c ↦ (key state c).2⟩

@[simp] theorem watchRun_nil (state : WatchState) :
    watchRun timestampOf state [] = (state, []) := rfl

theorem watchRun_append (state : WatchState) (calls calls' : List WatchCall) :
    watchRun timestampOf state (calls ++ calls') =
      ((watchRun timestampOf (watchRun timestampOf state calls).1 calls').1,
        (watchRun timestampOf state calls).2 ++
          (watchRun timestampOf (watchRun timestampOf state calls).1 calls').2) :=
  Machine.run_append _ state calls calls'

theorem watchRun_concat (state : WatchState) (calls : List WatchCall) (c : WatchCall) :
    watchRun timestampOf state (calls ++ [c]) =
      ((watchStep timestampOf (watchRun timestampOf state calls).1 c).1,
        (watchRun timestampOf state calls).2 ++
          (watchStep timestampOf (watchRun timestampOf state calls).1 c).2) :=
  Machine.run_concat _ state calls c

/-- What is tracked under a key after one call. -/
theorem lookup_watchStep (state : WatchState) (c : WatchCall) (k : String) :
    (watchStep timestampOf state c).1.lookup k =
      (containerRun timestampOf k (state.lookup k) (observationsOf k c.toWatchEvent)).1 :=
  (watchStep_projection timestampOf k).state state c

/-- The events one call emits about a container. -/
theorem filter_watchStep (state : WatchState) (c : WatchCall) (k : String) :
    (watchStep timestampOf state c).2.filter (fun e ↦ e.actor.id = k) =
      (containerRun timestampOf k (state.lookup k) (observationsOf k c.toWatchEvent)).2 :=
  (watchStep_projection timestampOf k).output state c

/-- What is tracked under a key after a run is the state of the container's machine. -/
theorem lookup_watchRun (state : WatchState) (calls : List WatchCall) (k : String) :
    (watchRun timestampOf state calls).1.lookup k =
      (containerRun timestampOf k (state.lookup k) (observations k calls)).1 :=
  (watchStep_projection timestampOf k).run_state state calls

/-- The events a run emits about a container are those of the container's machine. -/
theorem filter_watchRun (state : WatchState) (calls : List WatchCall) (k : String) :
    (watchRun timestampOf state calls).2.filter (fun e ↦ e.actor.id = k) =
      (containerRun timestampOf k (state.lookup k) (observations k calls)).2 :=
  (watchStep_projection timestampOf k).run_output state calls

end Machine

end Swarmagent.Kubernetes
