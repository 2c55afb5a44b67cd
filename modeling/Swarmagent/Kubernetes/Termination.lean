import Swarmagent.Kubernetes.Deletion
import Swarmagent.Kubernetes.EventLog

/-!
# Terminations are reported

A container that is shown terminated has come to an end that is news if it was running when it was
shown last, or has been restarted since then (`NewlyEnded`).  The call then emits one `die` with the
exit code and the reason, right after an `oom` if the container was killed for its memory use; and
otherwise it emits nothing about the container (`termination_reported`).

What was shown last is a matter of the run (`LastShown`), while the agent looks at what it tracks.
That is the same up to what it keeps of a status (`lookup_watchRun_eq_some_iff`): whether the
container runs and how often it was restarted, but not whether it waits or has terminated.  So the
end of a container that was waiting and is shown terminated without a restart is not reported
(`waiting_end_silent`).
-/

namespace Swarmagent.Kubernetes

open Swarmagent.Json Swarmagent.Rust

/-! ## What was shown last -/

/-- This is the last status of the container since its pod was last deleted. -/
def LastShown (p : PodId) (calls : List WatchCall) (container : String) (cs : Value) : Prop :=
  ∃ before c after, calls = before ++ c :: after ∧ Shows c.toWatchEvent p cs ∧
    statusName cs = container ∧
      ∀ d ∈ after, ¬Deletes d.toWatchEvent p ∧ ¬Lists d.toWatchEvent p container

theorem Shows.lists {e : WatchEvent} {p : PodId} {cs : Value} (h : Shows e p cs) :
    Lists e p (statusName cs) :=
  ⟨h.1, h.2.1, List.mem_filter.mpr ⟨List.mem_map_of_mem h.2.2.1, by simpa using h.2.2.2⟩⟩

theorem Lists.exists_shows {e : WatchEvent} {p : PodId} {container : String}
    (h : Lists e p container) : ∃ cs, Shows e p cs ∧ statusName cs = container := by
  obtain ⟨hp, htype, hlisted⟩ := h
  obtain ⟨hmem, hname⟩ := List.mem_filter.mp hlisted
  obtain ⟨cs, hcs, rfl⟩ := List.mem_map.mp hmem
  exact ⟨cs, ⟨hp, htype, hcs, by simpa using hname⟩, rfl⟩

theorem lastShown_nil (p : PodId) (container : String) (cs : Value) :
    ¬LastShown p [] container cs := by
  rintro ⟨before, c, after, h, -⟩
  simp at h

/-- What was shown last is what the last event shows, or what was shown last before, if the last
event neither deletes the pod nor lists the container. -/
theorem lastShown_concat {p : PodId} {calls : List WatchCall} {c : WatchCall} {container : String}
    {cs : Value} :
    LastShown p (calls ++ [c]) container cs ↔
      (Shows c.toWatchEvent p cs ∧ statusName cs = container) ∨
        LastShown p calls container cs ∧ ¬Deletes c.toWatchEvent p ∧
          ¬Lists c.toWatchEvent p container := by
  constructor
  · rintro ⟨before, d, after, heq, hshows, hname, hafter⟩
    rcases List.eq_nil_or_concat' after with rfl | ⟨after, d', rfl⟩
    · obtain ⟨-, hcd⟩ := List.append_inj' heq rfl
      rw [List.cons.injEq] at hcd
      exact Or.inl ⟨hcd.1 ▸ hshows, hname⟩
    · rw [← List.cons_append, ← List.append_assoc] at heq
      obtain ⟨rfl, hcd⟩ := List.append_inj' heq rfl
      rw [List.cons.injEq] at hcd
      refine Or.inr ⟨⟨before, d, after, rfl, hshows, hname, fun x hx ↦ ?_⟩, ?_⟩
      · exact hafter x (List.mem_append_left _ hx)
      · exact hcd.1 ▸ hafter d' (by simp)
  · rintro (⟨hshows, hname⟩ | ⟨⟨before, d, after, rfl, hshows, hname, hafter⟩, hc⟩)
    · exact ⟨calls, c, [], rfl, hshows, hname, by simp⟩
    · refine ⟨before, d, after ++ [c], by simp, hshows, hname, fun x hx ↦ ?_⟩
      rcases List.mem_append.mp hx with hx | hx
      · exact hafter x hx
      · exact List.mem_singleton.mp hx ▸ hc

section Run

variable (timestampOf : String → Option Int)

/-- What one call makes of what is tracked of a container. -/
theorem lookup_watchStep_container {state : WatchState} {c : WatchCall} {p : PodId}
    (hp : p.SlashFree) (hslash : SlashFreePod c.object) (hdistinct : DistinctNames c.object)
    (container : String) :
    (Deletes c.toWatchEvent p ∧
        (watchStep timestampOf state c).1.lookup (p.containerKey container) = none) ∨
      (∃ cs, Shows c.toWatchEvent p cs ∧ statusName cs = container ∧
        (watchStep timestampOf state c).1.lookup (p.containerKey container) =
          some (tracked cs)) ∨
      (¬Deletes c.toWatchEvent p ∧ ¬Lists c.toWatchEvent p container) ∧
        (watchStep timestampOf state c).1.lookup (p.containerKey container) =
          state.lookup (p.containerKey container) := by
  by_cases hdeletes : Deletes c.toWatchEvent p
  · refine Or.inl ⟨hdeletes, ?_⟩
    rw [lookup_watchStep_deletes timestampOf hdeletes, if_pos (p.startsWith_containerKey container)]
  · by_cases hlists : Lists c.toWatchEvent p container
    · obtain ⟨cs, hshows, rfl⟩ := hlists.exists_shows
      refine Or.inr (Or.inl ⟨cs, hshows, rfl, ?_⟩)
      rw [lookup_watchStep, hshows.observationsOf hdistinct, containerRun_status]
    · refine Or.inr (Or.inr ⟨⟨hdeletes, hlists⟩, ?_⟩)
      have hsilent : observationsOf (p.containerKey container) c.toWatchEvent = [] := by
        by_cases hpod : podOf c.object = some p
        · have htype : c.eventType ≠ "DELETED" := fun htype ↦ hdeletes ⟨hpod, htype⟩
          rw [observationsOf_pod_shown hpod htype]
          refine flatMap_statusObservation_eq_nil fun cs hcs hname hkey ↦ hlists ?_
          obtain rfl := (p.containerKey_inj).mp hkey
          exact Shows.lists ⟨hpod, htype, hcs, hname⟩
        · exact observationsOf_other (p.startsWith_containerKey container) hp
            (fun _ hq ↦ hslash.podOf hq) hpod
      rw [lookup_watchStep, hsilent, containerRun_nil]

/-- **What is tracked of a container** is what the agent keeps of its last status. -/
theorem lookup_watchRun_eq_some_iff {calls : List WatchCall}
    (hcalls : ∀ c ∈ calls, SlashFreePod c.object ∧ WellFormed c.object) {p : PodId}
    (hp : p.SlashFree) {container : String} {t : TrackedContainer} :
    (watchRun timestampOf ∅ calls).1.lookup (p.containerKey container) = some t ↔
      ∃ cs, LastShown p calls container cs ∧ tracked cs = t := by
  induction calls using List.reverseRecOn with
  | nil => simp [lastShown_nil]
  | append_singleton calls c ih =>
      have ih := ih fun d hd ↦ hcalls d (List.mem_append_left _ hd)
      obtain ⟨hslash, hwell⟩ := hcalls c (by simp)
      simp only [watchRun_concat, lastShown_concat]
      rcases lookup_watchStep_container timestampOf hp hslash hwell.distinct container with
        ⟨hdeletes, hlookup⟩ | ⟨cs, hshows, hname, hlookup⟩ | ⟨hother, hlookup⟩
      · rw [hlookup]
        refine iff_of_false (by simp) ?_
        rintro ⟨cs, ⟨hshows, -⟩ | ⟨-, hnot, -⟩, -⟩
        · exact hshows.2.1 hdeletes.2
        · exact hnot hdeletes
      · rw [hlookup, Option.some.injEq]
        constructor
        · rintro rfl
          exact ⟨cs, Or.inl ⟨hshows, hname⟩, rfl⟩
        · rintro ⟨cs', ⟨hshows', hname'⟩ | ⟨-, -, hnot⟩, rfl⟩
          · -- the call shows one status of the container only
            have h := hshows.observationsOf hwell.distinct
            rw [hname, ← hname', hshows'.observationsOf hwell.distinct, List.cons.injEq] at h
            obtain ⟨-, -, -, rfl⟩ := (Observation.status.injEq ..).mp h.1
            rfl
          · exact absurd (hname ▸ hshows.lists) hnot
      · rw [hlookup, ih]
        refine exists_congr fun cs ↦ and_congr_left fun _ ↦ ?_
        rw [and_iff_left hother, or_iff_right]
        rintro ⟨hshows, rfl⟩
        exact hother.2 hshows.lists

end Run

/-! ## The end of a container -/

/-- When the container was shown last, it was running or had been restarted less often. -/
def NewlyEnded (before : List WatchCall) (p : PodId) (cs : Value) : Prop :=
  ∃ cs', LastShown p before (statusName cs) cs' ∧
    (statusRunning cs' = true ∨ statusRestartCount cs' < statusRestartCount cs)

/-- The exit code and the reason of a termination, as attributes. -/
structure Explains (attrs : Attributes) (term : Value) : Prop where
  exitCode : attrs.lookup "exitCode" = ((term.get "exitCode").bind Value.asI64).map toString
  reason : attrs.lookup "reason" =
    if term.strAt ["reason"] = "" then none else some (term.strAt ["reason"])

/-- In the output of a call, these are the events of the container, and they stand together. -/
def ReportsOf (k : String) (out events : List AgentEvent) : Prop :=
  ∃ pre post, out = pre ++ events ++ post ∧ ∀ e ∈ pre ++ post, e.actor.id ≠ k

theorem explains_deathAttributes (ns pod container : String) (term : Value) :
    Explains (deathAttributes ns pod container term) term where
  exitCode := by rw [lookup_deathAttributes, if_neg (by decide), if_pos rfl]
  reason := by rw [lookup_deathAttributes, if_pos rfl]

section Step

variable (timestampOf : String → Option Int)

/-- The events of a termination that is news. -/
theorem statusEvents_terminated {ns pod : String} {now : Int} {k : String}
    {prev : Option TrackedContainer} {cs term : Value} (hterm : statusTerminated cs = some term)
    (hrun : statusRunning cs = false) :
    statusEvents timestampOf ns pod now k prev cs =
      if wasRunning prev || missedRestart prev cs then
        let time := tsOr timestampOf now ((term.get "finishedAt").bind Value.asStr)
        let attrs := deathAttributes ns pod (statusName cs) term
        (if term.strAt ["reason"] = "OOMKilled" then [event .oom k attrs time] else []) ++
          [event .die k attrs time]
      else [] := by
  rw [statusEvents, terminatedEvents, runningEvents, terminatedBranch, runningBranch, hterm, hrun]
  simp

/-- The events of the status loop are those of the containers listed. -/
theorem id_of_mem_statusRun {ns pod : String} {now : Int} {state : WatchState}
    {statuses : List Value} {e : AgentEvent}
    (he : e ∈ (Machine.run (statusStep timestampOf ns pod now) state statuses).2) :
    ∃ cs ∈ statuses, statusName cs ≠ "" ∧ e.actor.id = podPrefix ns pod ++ statusName cs := by
  obtain ⟨state', cs, hcs, he⟩ := Machine.exists_step_of_mem_run _ he
  unfold statusStep at he
  split at he
  · cases he
  · next hname => exact ⟨cs, hcs, hname, statusEvents_id timestampOf he⟩

/-- The status loop leaves alone what it tracks of containers that are not listed. -/
theorem lookup_statusRun {ns pod : String} {now : Int} {state : WatchState} {statuses : List Value}
    {k : String} (h : ∀ cs ∈ statuses, statusName cs ≠ "" → podPrefix ns pod ++ statusName cs ≠ k) :
    (Machine.run (statusStep timestampOf ns pod now) state statuses).1.lookup k =
      state.lookup k := by
  rw [(statusStep_projection timestampOf ns pod now k).run_state,
    flatMap_statusObservation_eq_nil h]
  rfl

/-- Where container names are distinct, the other statuses are of containers with other keys. -/
theorem otherKeys_of_distinctNames {pod : Value} {p : PodId} {cs : Value} {l l' : List Value}
    (hdistinct : DistinctNames pod) (hname : statusName cs ≠ "")
    (hsplit : containerStatuses pod = l ++ cs :: l') :
    ∀ cs' ∈ l ++ l', statusName cs' ≠ "" →
      podPrefix p.ns p.name ++ statusName cs' ≠ p.containerKey (statusName cs) := by
  have hnodup : ((l.map statusName).filter (· ≠ "") ++
      statusName cs :: (l'.map statusName).filter (· ≠ "")).Nodup := by
    have h : (listedNames pod).Nodup := hdistinct
    rwa [listedNames, hsplit, List.map_append, List.filter_append, List.map_cons,
      List.filter_cons_of_pos (by simpa using hname)] at h
  obtain ⟨-, hbehind, hdisjoint⟩ := List.nodup_append.mp hnodup
  intro cs' hcs' hname' hkey
  have hsame : statusName cs' = statusName cs := (p.containerKey_inj).mp hkey
  have hmem : ∀ l'' : List Value, cs' ∈ l'' →
      statusName cs ∈ (l''.map statusName).filter (· ≠ "") := fun l'' h ↦
    hsame ▸ List.mem_filter.mpr ⟨List.mem_map_of_mem h, by simpa using hname'⟩
  rcases List.mem_append.mp hcs' with h | h
  · exact hdisjoint _ (hmem l h) _ List.mem_cons_self rfl
  · exact (List.nodup_cons.mp hbehind).1 (hmem l' h)

/-- **What a call says of a container it shows**: the events of its status, and no others. -/
theorem watchStep_reports {state : WatchState} {c : WatchCall} {p : PodId} {cs : Value}
    (hdistinct : DistinctNames c.object) (hshows : Shows c.toWatchEvent p cs) :
    ReportsOf (p.containerKey (statusName cs)) (watchStep timestampOf state c).2
      (statusEvents timestampOf p.ns p.name c.now (p.containerKey (statusName cs))
        (state.lookup (p.containerKey (statusName cs))) cs) := by
  obtain ⟨hp, htype, hcs, hname⟩ := hshows
  obtain ⟨hpod, hns, hpodName⟩ := podOf_eq_some.mp hp
  obtain ⟨l, l', hsplit⟩ := List.append_of_mem hcs
  have hother := otherKeys_of_distinctNames (p := p) hdistinct hname hsplit
  let step := statusStep timestampOf p.ns p.name c.now
  have hlookup : (Machine.run step state l).1.lookup (p.containerKey (statusName cs)) =
      state.lookup (p.containerKey (statusName cs)) :=
    lookup_statusRun timestampOf fun cs' h ↦ hother cs' (List.mem_append_left l' h)
  have hstep : (step (Machine.run step state l).1 cs).2 =
      statusEvents timestampOf p.ns p.name c.now (p.containerKey (statusName cs))
        (state.lookup (p.containerKey (statusName cs))) cs := by
    rw [← hlookup]
    exact congrArg Prod.snd (if_neg hname)
  -- the events of the container stand behind those of `l` and in front of those of `l'`
  refine ⟨(Machine.run step state l).2,
    (Machine.run step (step (Machine.run step state l).1 cs).1 l').2, ?_, ?_⟩
  · rw [watchStep, diffWatchEvent_shown _ hpod htype, hns, hpodName, hsplit, Machine.run_append,
      Machine.run_cons, ← hstep, List.append_assoc]
  · intro e he hid
    rcases List.mem_append.mp he with he | he
    · obtain ⟨cs', hcs', hname', hkey⟩ := id_of_mem_statusRun timestampOf he
      exact hother cs' (List.mem_append_left l' hcs') hname' (hkey.symm.trans hid)
    · obtain ⟨cs', hcs', hname', hkey⟩ := id_of_mem_statusRun timestampOf he
      exact hother cs' (List.mem_append_right l hcs') hname' (hkey.symm.trans hid)

end Step

/-! ## Runs -/

section Run

variable (timestampOf : String → Option Int)

/-- Whether the end of a container is news can be told from what is tracked of it. -/
theorem newlyEnded_iff {before : List WatchCall}
    (hbefore : ∀ d ∈ before, SlashFreePod d.object ∧ WellFormed d.object) {p : PodId}
    (hp : p.SlashFree) {cs : Value} {prev : Option TrackedContainer}
    (hprev : (watchRun timestampOf ∅ before).1.lookup (p.containerKey (statusName cs)) = prev) :
    NewlyEnded before p cs ↔ (wasRunning prev || missedRestart prev cs) = true := by
  rw [Bool.or_eq_true]
  constructor
  · rintro ⟨cs', hlast, hnews⟩
    rw [(lookup_watchRun_eq_some_iff timestampOf hbefore hp).mpr ⟨cs', hlast, rfl⟩] at hprev
    subst hprev
    exact hnews.imp id fun hcount ↦ decide_eq_true hcount
  · intro hnews
    cases prev with
    | none => exact (hnews.elim Bool.false_ne_true Bool.false_ne_true).elim
    | some t =>
        obtain ⟨cs', hlast, rfl⟩ := (lookup_watchRun_eq_some_iff timestampOf hbefore hp).mp hprev
        exact ⟨cs', hlast, hnews.imp id fun hcount ↦ of_decide_eq_true hcount⟩

/-- **No new end of a container is silent.**  In a run from the empty state over well-formed pods,
a call that shows a container terminated emits one `die` for it with its exit code and reason,
after an `oom` if it was killed for its memory use, if the end is news; and nothing for it
otherwise. -/
theorem termination_reported {before : List WatchCall} {c : WatchCall}
    (hcalls : ∀ d ∈ before ++ [c], SlashFreePod d.object ∧ WellFormed d.object) {p : PodId}
    {cs term : Value} (hshows : Shows c.toWatchEvent p cs)
    (hterm : statusTerminated cs = some term) :
    let out := (watchStep timestampOf (watchRun timestampOf ∅ before).1 c).2
    let key := p.containerKey (statusName cs)
    (NewlyEnded before p cs → ∃ attrs time, Explains attrs term ∧ ReportsOf key out
        ((if term.strAt ["reason"] = "OOMKilled" then [event .oom key attrs time] else []) ++
          [event .die key attrs time])) ∧
      (¬NewlyEnded before p cs → ∀ e ∈ out, e.actor.id ≠ key) := by
  obtain ⟨hslash, hwell⟩ := hcalls c (by simp)
  have hrun : statusRunning cs = false := by
    have hex := hwell.exclusive cs hshows.2.2.1
    rw [hterm] at hex
    simpa using hex
  intro out key
  have hreports : ReportsOf key out (statusEvents timestampOf p.ns p.name c.now key
      ((watchRun timestampOf ∅ before).1.lookup key) cs) :=
    watchStep_reports timestampOf hwell.distinct hshows
  rw [statusEvents_terminated timestampOf hterm hrun] at hreports
  have hbefore := fun d hd ↦ hcalls d (List.mem_append_left _ hd)
  have hnews : NewlyEnded before p cs ↔ _ :=
    newlyEnded_iff timestampOf hbefore (hslash.podOf hshows.1) rfl
  constructor
  · intro hended
    rw [if_pos (hnews.mp hended)] at hreports
    exact ⟨_, _, explains_deathAttributes .., hreports⟩
  · intro hended
    rw [if_neg (hnews.not.mp hended)] at hreports
    obtain ⟨pre, post, hout, hother⟩ := hreports
    rw [List.append_nil] at hout
    intro e he
    exact hother e (hout ▸ he)

theorem termination_reported_killed :
    let c : WatchCall := ⟨⟨"ADDED", podObject "prod" "web-1"
      [statusObject "web" 0 (runningSince "2026-07-13T10:00:00Z")], 1783937000⟩, .unspecified⟩
    let c' : WatchCall := ⟨⟨"MODIFIED", podObject "prod" "web-1"
      [statusObject "web" 0 (terminatedAt 137 "OOMKilled" "2026-07-13T10:05:00Z")], 1783937100⟩,
      .unspecified⟩
    ∃ attrs time, attrs.lookup "exitCode" = some "137" ∧ ReportsOf "prod/web-1/web"
      (watchStep someTimestamps (watchRun someTimestamps ∅ [c]).1 c').2
      [event .oom "prod/web-1/web" attrs time, event .die "prod/web-1/web" attrs time] := by
  intro c c'
  have hcalls : ∀ d ∈ [c] ++ [c'], SlashFreePod d.object ∧ WellFormed d.object := by
    intro d hd
    simp only [List.cons_append, List.nil_append, List.mem_cons, List.not_mem_nil, or_false] at hd
    rcases hd with rfl | rfl
    · exact ⟨by decide, by decide, by decide⟩
    · exact ⟨by decide, by decide, by decide⟩
  obtain ⟨hended, -⟩ := termination_reported someTimestamps hcalls
    (p := ⟨"prod", "web-1"⟩) ⟨rfl, by decide, List.mem_singleton_self _, by decide⟩ rfl
  obtain ⟨attrs, time, hexplains, hreports⟩ := hended
    ⟨_, ⟨[], c, [], rfl, ⟨rfl, by decide, List.mem_singleton_self _, by decide⟩, rfl, by simp⟩,
      Or.inl rfl⟩
  exact ⟨attrs, time, hexplains.exitCode, hreports⟩

/-- A container that was waiting when it was shown last and is killed before it is shown running:
the end of it is not reported. -/
theorem waiting_end_silent :
    let waiting := statusObject "web" 0 (waitingFor "ContainerCreating")
    let killed := statusObject "web" 0 (terminatedAt 137 "OOMKilled" "2026-07-13T10:05:00Z")
    let c : WatchCall := ⟨⟨"ADDED", podObject "prod" "web-1" [waiting], 1783937000⟩, .unspecified⟩
    let c' : WatchCall := ⟨⟨"MODIFIED", podObject "prod" "web-1" [killed], 1783937100⟩,
      .unspecified⟩
    (SlashFreeNames c.object ∧ WellFormed c.object) ∧
      (SlashFreeNames c'.object ∧ WellFormed c'.object) ∧
      LastShown ⟨"prod", "web-1"⟩ [c] "web" waiting ∧ statusTerminated waiting = none ∧
      Shows c'.toWatchEvent ⟨"prod", "web-1"⟩ killed ∧ (statusTerminated killed).isSome = true ∧
      (watchStep someTimestamps (watchRun someTimestamps ∅ [c]).1 c').2 = [] := by
  intro waiting killed c c'
  refine ⟨⟨by decide, by decide, by decide⟩, ⟨by decide, by decide, by decide⟩, ?_, rfl, ?_, rfl,
    by decide⟩
  · exact ⟨[], c, [], rfl, ⟨rfl, by decide, List.mem_singleton_self _, by decide⟩, rfl, by simp⟩
  · exact ⟨rfl, by decide, List.mem_singleton_self _, by decide⟩

end Run

end Swarmagent.Kubernetes
