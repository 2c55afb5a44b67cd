import Swarmagent.Kubernetes.Pairing

/-!
# Lives of containers

Two more things that the log of events should be.  A container should not be reported as started
while the last report of it is a `start`.  This is what happens to a container that is lost
(`LosesRunning`) and comes back without having been seen terminated, and to no other
(`started_once_iff`).

An `oom` explains the `die` after it.  The two are always next to each other, and agree in
everything else (`oom_iff_die`), so that a consumer never waits for a `die` which is still to come
and never learns the reason later.
-/

namespace Swarmagent.Kubernetes

open Swarmagent.Json Swarmagent.Rust Machine

/-! ## No start within a life -/

/-- A `start` is allowed unless the container's last event that matters is a `start`. -/
def StartAfterEnd (before : List AgentEvent) (d : AgentEvent) : Prop :=
  d.action = .start → lastLifecycle d.actor.id before ≠ some .start

/-- After the calls `before`, the call `c` shows a container running which is not tracked as running
though a `start` of it is pending. -/
def Resumed (timestampOf : String → Option Int) (before : List WatchCall) (c : WatchCall) : Prop :=
  ∃ p cs, Shows c.toWatchEvent p cs ∧ statusRunning cs = true ∧
    let k := p.containerKey (statusName cs)
    wasRunning ((watchRun timestampOf ∅ before).1.lookup k) = false ∧
      startPending (observations k before).reverse = true

section Run

variable (timestampOf : String → Option Int)

theorem startAfterEnd_filter (log before : List AgentEvent) (d : AgentEvent) :
    StartAfterEnd (log ++ before) d ↔
      StartAfterEnd (log ++ before.filter fun e ↦ e.actor.id = d.actor.id) d := by
  simp only [StartAfterEnd, lastLifecycle_append, lastLifecycle_filter]

/-- A `start` on its own is allowed if the container's last event that matters is no `start`. -/
theorem guarded_start_iff {k : String} {attrs : Attributes} {t : Int} {log : List AgentEvent} :
    Guarded (fun before d ↦ StartAfterEnd (log ++ before) d) [event .start k attrs t] ↔
      lastLifecycle k log ≠ some .start := by
  rw [guarded_singleton_iff, List.append_nil]
  exact ⟨fun h ↦ h rfl, fun h _ ↦ h⟩

/-- Any other event is always allowed. -/
theorem guarded_of_ne_start {log out : List AgentEvent} (h : ∀ d ∈ out, d.action ≠ .start) :
    Guarded (fun before d ↦ StartAfterEnd (log ++ before) d) out := by
  rintro before d after rfl hstart
  exact absurd hstart (h d (by simp))

/-- What a running container makes is allowed if it was running before, as then a `die` is made up
for it, and else if no `start` is pending. -/
theorem guarded_runningEvents_iff {k ns pod : String} {now : Int} {prev : Option TrackedContainer}
    {log : List AgentEvent} {cs : Value} :
    Guarded (fun before d ↦ StartAfterEnd (log ++ before) d)
        (runningEvents timestampOf ns pod now k prev cs) ↔
      (statusRunning cs = true → wasRunning prev = false → lastLifecycle k log ≠ some .start) := by
  unfold runningEvents runningBranch
  cases hrun : statusRunning cs with
  | false => simpa using guarded_nil _
  | true =>
      cases hwas : wasRunning prev with
      | false => simpa using guarded_start_iff
      | true =>
          cases hmiss : missedRestart prev cs with
          | false => simpa using guarded_nil _
          | true =>
              refine iff_of_true (guarded_append.mpr ⟨guarded_of_ne_start (by simp), ?_⟩) (by simp)
              simp only [← List.append_assoc]
              rw [guarded_start_iff, lastLifecycle_append]
              simp [lastLifecycle_singleton]

/-- The events of a status are allowed exactly if no `start` is pending when the container is shown
running without having been tracked as running. -/
theorem guarded_statusEvents_start_iff {k ns pod : String} {now : Int}
    {prev : Option TrackedContainer} {log : List AgentEvent} {cs : Value}
    (hex : ¬(statusRunning cs = true ∧ (statusTerminated cs).isSome = true)) :
    Guarded (fun before d ↦ StartAfterEnd (log ++ before) d)
        (statusEvents timestampOf ns pod now k prev cs) ↔
      (statusRunning cs = true → wasRunning prev = false → lastLifecycle k log ≠ some .start) := by
  have hdied : Guarded (fun before d ↦ StartAfterEnd (log ++ before) d)
      (terminatedEvents timestampOf ns pod now k prev cs) := by
    refine guarded_of_ne_start fun d hd ↦ ?_
    obtain ⟨a, term, t, rfl | rfl, rfl⟩ := mem_terminatedEvents timestampOf hd
    · exact (by decide : Action.oom ≠ .start)
    · exact (by decide : Action.die ≠ .start)
  rw [statusEvents, guarded_append, and_iff_right hdied]
  simp only [← List.append_assoc]
  rw [guarded_runningEvents_iff]
  refine imp_congr_right fun hrun ↦ imp_congr_right fun _ ↦ ?_
  have hterm : statusTerminated cs = none := by simpa [hrun] using hex
  rw [lastLifecycle_append, lastLifecycle_terminatedEvents]
  simp [hterm]

/-- A call emits only allowed `start`s exactly if it does not resume a container. -/
theorem guarded_watchStep_start_iff {calls : List WatchCall} {c : WatchCall}
    (hcalls : ∀ d ∈ calls, WellFormed d.object) (hc : WellFormed c.object) :
    Guarded (fun before d ↦ StartAfterEnd ((watchRun timestampOf ∅ calls).2 ++ before) d)
        (watchStep timestampOf (watchRun timestampOf ∅ calls).1 c).2 ↔
      ¬Resumed timestampOf calls c := by
  rw [guarded_filter_iff (fun e : AgentEvent ↦ e.actor.id) fun before d ↦
    startAfterEnd_filter (watchRun timestampOf ∅ calls).2 before d]
  simp only [filter_watchStep]
  have hlast := lastLifecycle_watchRun timestampOf hcalls
  constructor
  · rintro hall ⟨p, cs, hshows, hrun, hnot, hpend⟩
    have hk := hall (p.containerKey (statusName cs))
    rw [hshows.observationsOf hc.distinct, containerRun_status,
      guarded_statusEvents_start_iff timestampOf (hc.exclusive cs hshows.2.2.1)] at hk
    exact hk hrun hnot ((hlast _).mpr hpend)
  · intro hok k
    rcases observationsOf_cases hc.distinct k with hobs | ⟨p, hobs⟩ | ⟨p, cs, hshows, rfl, hobs⟩ <;>
      rw [hobs]
    · exact guarded_nil _
    · rw [containerRun_deleted]
      refine guarded_of_ne_start fun d hd ↦ ?_
      split at hd
      · rw [List.mem_singleton.mp hd]
        exact (by decide : Action.destroy ≠ .start)
      · cases hd
    · rw [containerRun_status,
        guarded_statusEvents_start_iff timestampOf (hc.exclusive cs hshows.2.2.1)]
      exact fun hrun hnot hstart ↦ hok ⟨p, cs, hshows, hrun, hnot, (hlast _).mp hstart⟩

/-- **When no container is started twice.**  In a run from the empty state over well-formed pods,
whenever a `start` is emitted for a container the most recent earlier `start`, `die` or `destroy`
emitted for it is no `start`, exactly if no step resumes a container. -/
theorem started_once_iff (calls : List WatchCall) (hcalls : ∀ c ∈ calls, WellFormed c.object) :
    (∀ before d after, (watchRun timestampOf ∅ calls).2 = before ++ d :: after →
        d.action = .start → lastLifecycle d.actor.id before ≠ some .start) ↔
      ∀ before c, before ++ [c] <+: calls → ¬Resumed timestampOf before c := by
  have hprefix : (∀ before, before <+: calls →
        Guarded StartAfterEnd (watchRun timestampOf ∅ before).2) ↔
      ∀ before c, before ++ [c] <+: calls → ¬Resumed timestampOf before c := by
    apply prefix_invariant_iff
    · exact guarded_nil _
    · intro before c hpre h
      have hbefore : ∀ d ∈ before, WellFormed d.object := fun d hd ↦
        hcalls d (hpre.subset (by simp [hd]))
      have hc : WellFormed c.object := hcalls c (hpre.subset (by simp))
      rw [watchRun_concat, guarded_append, and_iff_right h]
      exact guarded_watchStep_start_iff timestampOf hbefore hc
  rw [← hprefix]
  refine ⟨fun h before hpre ↦ ?_, fun h ↦ h calls (List.prefix_refl calls)⟩
  obtain ⟨rest, rfl⟩ := hpre
  rw [watchRun_append] at h
  exact (guarded_append.mp h).1

/-- A container that crashed, was seen waiting and runs again is reported as started twice. -/
theorem started_once_iff_crash_loop :
    let pod := fun cs ↦ podObject "prod" "web-1" [cs]
    let calls : List WatchCall :=
      [⟨⟨"ADDED", pod (statusObject "web" 0 (runningSince "2026-07-13T09:00:00Z")), 1783933300⟩,
          .unspecified⟩,
        ⟨⟨"MODIFIED", pod (statusObject "web" 0 (waitingFor "CrashLoopBackOff")), 1783933400⟩,
          .unspecified⟩,
        ⟨⟨"MODIFIED", pod (statusObject "web" 1 (runningSince "2026-07-13T10:00:00Z")),
          1783936900⟩, .unspecified⟩]
    ¬∀ before c, before ++ [c] <+: calls → ¬Resumed someTimestamps before c := by
  intro pod calls
  have hcalls : ∀ c ∈ calls, WellFormed c.object := by
    intro c hc
    simp only [calls, List.mem_cons, List.not_mem_nil, or_false] at hc
    rcases hc with rfl | rfl | rfl <;> exact ⟨by decide, by decide⟩
  rw [← started_once_iff someTimestamps calls hcalls]
  intro h
  let attrs := baseAttributes "prod" "web-1" "web"
  have hlog : (watchRun someTimestamps ∅ calls).2 =
      [event .start "prod/web-1/web" attrs 1783933200] ++
        event .start "prod/web-1/web" attrs 1783936800 :: [] := by decide
  exact h _ _ _ hlog rfl (by decide)

/-- A container that is resumed has been lost before. -/
theorem losesRunning_of_resumed {calls : List WatchCall} {c : WatchCall}
    (hcalls : ∀ d ∈ calls, WellFormed d.object) (h : Resumed timestampOf calls c) :
    ∃ before d, before ++ [d] <+: calls ∧
      LosesRunning (watchRun timestampOf ∅ before).1 d := by
  obtain ⟨p, cs, -, -, hnot, hpend⟩ := h
  by_contra hnone
  have hiff : (∀ before, before <+: calls →
        Faithful (watchRun timestampOf ∅ before).1 (watchRun timestampOf ∅ before).2) ↔
      ∀ before d, before ++ [d] <+: calls →
        ¬LosesRunning (watchRun timestampOf ∅ before).1 d := by
    apply prefix_invariant_iff
    · exact faithful_empty
    · intro before d hpre hbefore
      rw [watchRun_concat]
      exact faithful_watchStep_iff timestampOf (hcalls d (hpre.subset (by simp))) hbefore
  have hfaithful := hiff.mpr (fun before d hpre hlost ↦ hnone ⟨before, d, hpre, hlost⟩) calls
    (List.prefix_refl calls)
  have hlast := (lastLifecycle_watchRun timestampOf hcalls _).mpr hpend
  rw [faithful_iff_lastLifecycle.mp hfaithful, hnot] at hlast
  cases hlast

/-! ## Out of memory -/

/-- A `die` whose reason is that the container ran out of memory. -/
def OomDeath (e : AgentEvent) : Prop :=
  e.action = .die ∧ e.actor.attributes.lookup "reason" = some "OOMKilled"

/-- The log is made of single events and of pairs of an `oom` and its `die`. -/
inductive OomPaired : List AgentEvent → Prop where
  | nil : OomPaired []
  | single {e : AgentEvent} {log : List AgentEvent} (hoom : e.action ≠ .oom) (hdie : ¬OomDeath e)
      (h : OomPaired log) : OomPaired (e :: log)
  | pair {e : AgentEvent} {log : List AgentEvent} (hdie : OomDeath e) (h : OomPaired log) :
      OomPaired ({ e with action := .oom } :: e :: log)

theorem OomPaired.append {log out : List AgentEvent} (h : OomPaired log) (h' : OomPaired out) :
    OomPaired (log ++ out) := by
  induction h with
  | nil => exact h'
  | single hoom hdie _ ih => exact .single hoom hdie ih
  | pair hdie _ ih => exact .pair hdie ih

theorem oomPaired_terminatedEvents (ns pod : String) (now : Int) (k : String)
    (prev : Option TrackedContainer) (cs : Value) :
    OomPaired (terminatedEvents timestampOf ns pod now k prev cs) := by
  unfold terminatedEvents terminatedBranch
  cases statusTerminated cs with
  | none => exact .nil
  | some term =>
      dsimp only
      split
      · let attrs := deathAttributes ns pod (statusName cs) term
        have hlookup : attrs.lookup "reason" =
            if term.strAt ["reason"] = "" then none else some (term.strAt ["reason"]) :=
          (lookup_deathAttributes ns pod (statusName cs) term "reason").trans (if_pos rfl)
        by_cases hreason : term.strAt ["reason"] = "OOMKilled"
        · rw [if_pos hreason]
          have hdie : ∀ t, OomDeath (event .die k attrs t) := fun t ↦ ⟨rfl, by
            rw [event, hlookup, hreason]
            rfl⟩
          exact .pair (hdie _) .nil
        · rw [if_neg hreason]
          refine .single (by simp) ?_ .nil
          rintro ⟨-, hattr⟩
          rw [event, hlookup] at hattr
          split at hattr
          · cases hattr
          · exact hreason (Option.some.inj hattr)
      · exact .nil

/-- A log of single events, none of which tells a reason. -/
theorem oomPaired_of_forall {log : List AgentEvent}
    (h : ∀ e ∈ log, e.action ≠ .oom ∧ e.actor.attributes.lookup "reason" = none) :
    OomPaired log := by
  induction log with
  | nil => exact .nil
  | cons e log ih =>
      obtain ⟨⟨hoom, hreason⟩, hlog⟩ := List.forall_mem_cons.mp h
      refine .single hoom (fun hdie ↦ ?_) (ih hlog)
      have hsome := hdie.2
      rw [hreason] at hsome
      cases hsome

theorem oomPaired_statusEvents (ns pod : String) (now : Int) (k : String)
    (prev : Option TrackedContainer) (cs : Value) :
    OomPaired (statusEvents timestampOf ns pod now k prev cs) := by
  refine (oomPaired_terminatedEvents timestampOf ns pod now k prev cs).append
    (oomPaired_of_forall fun e he ↦ ?_)
  have hreason : (baseAttributes ns pod (statusName cs)).lookup "reason" = none := by
    simp [lookup_baseAttributes]
  obtain ⟨a, t, rfl | rfl, rfl⟩ := mem_runningEvents timestampOf he
  · exact ⟨by simp, hreason⟩
  · exact ⟨by simp, hreason⟩

theorem oomPaired_watchStep (state : WatchState) (c : WatchCall) :
    OomPaired (watchStep timestampOf state c).2 := by
  by_cases hpod : podNamespace c.object = "" ∨ podName c.object = ""
  · rw [watchStep, diffWatchEvent_unnamed _ hpod]
    exact .nil
  · by_cases htype : c.eventType = "DELETED"
    · rw [watchStep, diffWatchEvent_deleted _ hpod htype, destroyRun_output]
      refine oomPaired_of_forall fun e he ↦ ?_
      obtain ⟨k, -, rfl⟩ := List.mem_map.mp he
      exact ⟨by simp [destroyed], by simp [destroyed, event, lookup_baseAttributes]⟩
    · rw [watchStep, diffWatchEvent_shown _ hpod htype]
      refine run_output_of_append _ .nil (fun _ _ ↦ .append) (fun state cs ↦ ?_) _ _
      unfold statusStep
      split
      · exact .nil
      · exact oomPaired_statusEvents timestampOf _ _ _ _ _ _

/-- **The log of any run** is made of single events and of pairs of an `oom` and its `die`. -/
theorem oomPaired_watchRun (state : WatchState) (calls : List WatchCall) :
    OomPaired (watchRun timestampOf state calls).2 :=
  run_output_of_append _ .nil (fun _ _ ↦ .append) (oomPaired_watchStep timestampOf) _ _

/-- What stands next to the events of a pair. -/
theorem OomPaired.adjacent {log before after : List AgentEvent} {d : AgentEvent}
    (h : OomPaired log) (hlog : log = before ++ d :: after) :
    (d.action = .oom → ∃ rest, after = { d with action := .die } :: rest) ∧
      (OomDeath d → ∃ rest, before = rest ++ [{ d with action := .oom }]) := by
  induction h generalizing before with
  | nil => simp at hlog
  | @single e log hoom hdie _ ih =>
      cases before with
      | nil =>
          obtain ⟨rfl, rfl⟩ := List.cons.inj hlog
          exact ⟨fun h ↦ absurd h hoom, fun h ↦ absurd h hdie⟩
      | cons b before =>
          obtain ⟨-, hrest⟩ := List.cons.inj hlog
          obtain ⟨hnext, hlast⟩ := ih hrest
          refine ⟨hnext, fun h ↦ ?_⟩
          obtain ⟨rest, rfl⟩ := hlast h
          exact ⟨b :: rest, rfl⟩
  | @pair e log hdie _ ih =>
      match before with
      | [] =>
          obtain ⟨rfl, rfl⟩ := List.cons.inj hlog
          refine ⟨fun _ ↦ ⟨log, ?_⟩, fun h ↦ Action.noConfusion h.1⟩
          rw [← hdie.1]
      | [b] =>
          obtain ⟨rfl, hrest⟩ := List.cons.inj hlog
          obtain ⟨rfl, rfl⟩ := List.cons.inj hrest
          exact ⟨fun h ↦ absurd (h.symm.trans hdie.1) (by decide), fun _ ↦ ⟨[], rfl⟩⟩
      | b :: b' :: before =>
          obtain ⟨-, hrest⟩ := List.cons.inj hlog
          obtain ⟨-, hrest⟩ := List.cons.inj hrest
          obtain ⟨hnext, hlast⟩ := ih hrest
          refine ⟨hnext, fun h ↦ ?_⟩
          obtain ⟨rest, rfl⟩ := hlast h
          exact ⟨b :: b' :: rest, rfl⟩

/-- **An `oom` and its `die`.**  In the log of any run, an `oom` comes right before a `die` that
agrees in everything else, and right before each `die` of a container that ran out of memory there
is its `oom`. -/
theorem oom_iff_die (state : WatchState) (calls : List WatchCall) {before after : List AgentEvent}
    {d : AgentEvent} (h : (watchRun timestampOf state calls).2 = before ++ d :: after) :
    (d.action = .oom → ∃ rest, after = { d with action := .die } :: rest) ∧
      (OomDeath d → ∃ rest, before = rest ++ [{ d with action := .oom }]) :=
  (oomPaired_watchRun timestampOf state calls).adjacent h

theorem oom_iff_die_web :
    let pod := fun cs ↦ podObject "prod" "web-1" [cs]
    let calls : List WatchCall :=
      [⟨⟨"ADDED", pod (statusObject "web" 0 (runningSince "2026-07-13T09:00:00Z")), 1783933300⟩,
          .unspecified⟩,
        ⟨⟨"MODIFIED", pod (statusObject "web" 0 (terminatedAt 137 "OOMKilled"
          "2026-07-13T10:00:00Z")), 1783936900⟩, .unspecified⟩]
    let attrs := ((baseAttributes "prod" "web-1" "web").insert "exitCode" "137").insert
      "reason" "OOMKilled"
    let die := event .die "prod/web-1/web" attrs 1783936800
    ∃ started oom after, (watchRun someTimestamps ∅ calls).2 = started ++ oom :: after ∧
      oom.action = .oom ∧ ∃ rest, after = die :: rest := by
  intro pod calls attrs die
  let started := event .start "prod/web-1/web" (baseAttributes "prod" "web-1" "web") 1783933200
  have hlog : (watchRun someTimestamps ∅ calls).2 =
      [started] ++ event .oom "prod/web-1/web" attrs 1783936800 :: [die] := by decide
  exact ⟨[started], _, [die], hlog, rfl, (oom_iff_die someTimestamps ∅ calls hlog).1 rfl⟩

end Run

end Swarmagent.Kubernetes
