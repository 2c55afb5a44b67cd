import Swarmagent.Kubernetes.EventLog

/-!
# Replays are silent

The watch is opened without a resource version, so after every reconnect the API server sends an
`ADDED` event for each pod of the node, also for pods that have not changed.  Since the watch
state is kept across reconnects these events say nothing new: what is tracked of the containers a
pod listed last is what that list says (`lookup_of_lastEvent`), and a status that agrees with what
is tracked emits nothing (`statusEvents_tracked`).

Only the names of the containers, whether they run and how often they restarted have to agree
(`SameListing`).  The rest of the object may have changed, and the pods may come in any order and
any number of times.
-/

namespace Swarmagent.Kubernetes

open Swarmagent.Json Swarmagent.Rust

/-- The containers a pod lists, with what the agent keeps of their statuses. -/
def listing (pod : Value) : List (String × TrackedContainer) :=
  ((containerStatuses pod).map fun cs ↦ (statusName cs, tracked cs)).filter fun x ↦ x.1 ≠ ""

/-- The same containers, with the same running-ness and restart counts. -/
def SameListing (pod pod' : Value) : Prop := (listing pod).toFinset = (listing pod').toFinset

instance (pod pod' : Value) : Decidable (SameListing pod pod') :=
  inferInstanceAs (Decidable (_ = _))

/-- A pod that lists the same containers shows each status of the other, as far as it matters. -/
theorem SameListing.exists_status {pod pod' : Value} (h : SameListing pod pod') {cs : Value}
    (hcs : cs ∈ containerStatuses pod') (hname : statusName cs ≠ "") :
    ∃ cs' ∈ containerStatuses pod, statusName cs' = statusName cs ∧ tracked cs' = tracked cs := by
  have hmem : (statusName cs, tracked cs) ∈ (listing pod').toFinset :=
    List.mem_toFinset.mpr (List.mem_filter.mpr ⟨List.mem_map_of_mem hcs, by simpa using hname⟩)
  rw [← h, List.mem_toFinset, listing, List.mem_filter] at hmem
  obtain ⟨cs', hcs', heq⟩ := List.mem_map.mp hmem.1
  rw [Prod.mk.injEq] at heq
  exact ⟨cs', hcs', heq.1, heq.2⟩

/-- `e` is the last event of the pod in the run. -/
def LastEvent (p : PodId) (calls : List WatchCall) (e : WatchEvent) : Prop :=
  ∃ before c after, calls = before ++ c :: after ∧ c.toWatchEvent = e ∧
    podOf e.object = some p ∧ ∀ d ∈ after, podOf d.object ≠ some p

theorem LastEvent.podOf {p : PodId} {calls : List WatchCall} {e : WatchEvent}
    (h : LastEvent p calls e) : podOf e.object = some p := by
  obtain ⟨-, -, -, -, -, hp, -⟩ := h
  exact hp

/-- The call shows a pod again, whose last event in the run was not `DELETED`, as it was. -/
structure Repeats (calls : List WatchCall) (c : WatchCall) : Prop where
  type : c.eventType = "ADDED" ∨ c.eventType = "MODIFIED"
  exclusive : ExclusiveStates c.object
  same : ∃ p e, LastEvent p calls e ∧ e.eventType ≠ "DELETED" ∧ podOf c.object = some p ∧
    SameListing e.object c.object

section Run

variable (timestampOf : String → Option Int)

/-- What is tracked of a container that its pod listed last is what the list says. -/
theorem lookup_of_lastEvent {calls : List WatchCall}
    (hcalls : ∀ c ∈ calls, SlashFreePod c.object ∧ WellFormed c.object) {p : PodId}
    {e : WatchEvent} (hlast : LastEvent p calls e) {cs : Value} (hshows : Shows e p cs) :
    (watchRun timestampOf ∅ calls).1.lookup (p.containerKey (statusName cs)) =
      some (tracked cs) := by
  obtain ⟨before, c, after, rfl, rfl, hp, hafter⟩ := hlast
  have hc := hcalls c (by simp)
  have hsilent : observations (p.containerKey (statusName cs)) after = [] := by
    apply List.flatMap_eq_nil_iff.mpr
    intro d hd
    have hslash := (hcalls d (by simp [hd])).1
    exact observationsOf_other (p.startsWith_containerKey _) (hc.1.podOf hp)
      (fun q hq ↦ hslash.podOf hq) (hafter d hd)
  rw [lookup_watchRun, observations_append, observations_cons, hsilent, List.append_nil,
    hshows.observationsOf hc.2.distinct, containerRun_concat_status]

/-- A status that agrees with what is tracked emits nothing. -/
theorem statusEvents_tracked {ns pod : String} {now : Int} {k : String} {cs cs' : Value}
    (hsame : tracked cs' = tracked cs)
    (hex : ¬(statusRunning cs = true ∧ (statusTerminated cs).isSome = true)) :
    statusEvents timestampOf ns pod now k (some (tracked cs')) cs = [] := by
  rw [hsame]
  have hwas : wasRunning (some (tracked cs)) = statusRunning cs := rfl
  have hmiss : missedRestart (some (tracked cs)) cs = false := by simp [missedRestart, tracked]
  rw [statusEvents, terminatedEvents, runningEvents, terminatedBranch, runningBranch, hwas, hmiss]
  cases hrun : statusRunning cs with
  | true =>
      have hterm : statusTerminated cs = none := by simpa [hrun] using hex
      simp [hterm]
  | false => cases statusTerminated cs <;> simp

/-- A status that agrees with what is tracked is silent. -/
theorem statusStep_tracked {p : PodId} {now : Int} {state : WatchState} {cs : Value}
    (hlookup : statusName cs ≠ "" →
      ∃ cs', tracked cs' = tracked cs ∧
        state.lookup (p.containerKey (statusName cs)) = some (tracked cs'))
    (hex : ¬(statusRunning cs = true ∧ (statusTerminated cs).isSome = true)) :
    statusStep timestampOf p.ns p.name now state cs = (state, []) := by
  unfold statusStep
  split
  · rfl
  · rename_i hname
    obtain ⟨cs', hsame, hstate⟩ := hlookup hname
    have hinsert : state.insert (p.containerKey (statusName cs)) (tracked cs) = state := by
      apply Finmap.ext_lookup
      intro k
      by_cases hk : k = p.containerKey (statusName cs)
      · rw [hk, Finmap.lookup_insert, hstate, hsame]
      · rw [Finmap.lookup_insert_of_ne _ hk]
    show (state.insert (p.containerKey (statusName cs)) (tracked cs),
      statusEvents timestampOf p.ns p.name now (p.containerKey (statusName cs))
        (state.lookup (p.containerKey (statusName cs))) cs) = (state, [])
    rw [hinsert, hstate, statusEvents_tracked timestampOf hsame hex]

/-- One repetition is silent. -/
theorem watchStep_repeats {calls : List WatchCall}
    (hcalls : ∀ c ∈ calls, SlashFreePod c.object ∧ WellFormed c.object) {c : WatchCall}
    (hc : Repeats calls c) :
    watchStep timestampOf (watchRun timestampOf ∅ calls).1 c =
      ((watchRun timestampOf ∅ calls).1, []) := by
  obtain ⟨p, e, hlast, hshown, hp, hsame⟩ := hc.same
  have hep : podOf e.object = some p := hlast.podOf
  obtain ⟨hpod, hns, hname⟩ := podOf_eq_some.mp hp
  have htype : c.eventType ≠ "DELETED" := by
    rcases hc.type with h | h <;> rw [h] <;> decide
  rw [watchStep, diffWatchEvent_shown _ hpod htype, hns, hname]
  apply Machine.run_silent _
  intro cs hcs
  refine statusStep_tracked timestampOf (fun hcs' ↦ ?_) (hc.exclusive cs hcs)
  obtain ⟨cs', hmem, heq, htracked⟩ := hsame.exists_status hcs hcs'
  have hshows : Shows e p cs' := ⟨hep, hshown, hmem, heq ▸ hcs'⟩
  exact ⟨cs', htracked, heq ▸ lookup_of_lastEvent timestampOf hcalls hlast hshows⟩

/-- **Replays are silent.**  After a run from the empty state, showing again pods whose last event
was not `DELETED`, in any order and any number of times, emits no event and leaves the watch state
unchanged. -/
theorem watchRun_replay (calls replay : List WatchCall)
    (hcalls : ∀ c ∈ calls, SlashFreePod c.object ∧ WellFormed c.object)
    (hreplay : ∀ c ∈ replay, Repeats calls c) :
    watchRun timestampOf (watchRun timestampOf ∅ calls).1 replay =
      ((watchRun timestampOf ∅ calls).1, []) :=
  Machine.run_silent _ fun c hc ↦ watchStep_repeats timestampOf hcalls (hreplay c hc)

/-- A pod with a container that died is shown twice more, the second time as `MODIFIED`. -/
theorem watchRun_replay_web :
    let web := podObject "prod" "web-1"
      [statusObject "web" 1 (terminatedAt 1 "Error" "2026-07-13T10:05:00Z")]
    let c : WatchCall := ⟨⟨"ADDED", web, 1783937200⟩, .unspecified⟩
    let d : WatchCall := ⟨⟨"ADDED", web, 1783937300⟩, .unspecified⟩
    let d' : WatchCall := ⟨⟨"MODIFIED", web, 1783937400⟩, .unspecified⟩
    watchRun someTimestamps (watchRun someTimestamps ∅ [c]).1 [d, d'] =
      ((watchRun someTimestamps ∅ [c]).1, []) := by
  intro web c d d'
  have hlast : LastEvent ⟨"prod", "web-1"⟩ [c] c.toWatchEvent :=
    ⟨[], c, [], rfl, rfl, by decide, by simp⟩
  have hrepeats : ∀ e : WatchCall, e.eventType = "ADDED" ∨ e.eventType = "MODIFIED" →
      e.object = web → Repeats [c] e := fun e htype hobject ↦
    ⟨htype, hobject ▸ by decide, _, _, hlast, by decide, hobject ▸ by decide, hobject ▸ rfl⟩
  refine watchRun_replay someTimestamps [c] [d, d'] (fun e he ↦ ?_) fun e he ↦ ?_
  · rw [List.mem_singleton.mp he]
    exact ⟨by decide, by decide, by decide⟩
  · simp only [List.mem_cons, List.not_mem_nil, or_false] at he
    rcases he with rfl | rfl
    · exact hrepeats d (Or.inl rfl) rfl
    · exact hrepeats d' (Or.inr rfl) rfl

end Run

end Swarmagent.Kubernetes
