import Swarmagent.Kubernetes.EventLog
import Swarmagent.Machine.Log

/-!
# Starts and dies in pairs

Does every `die` follow a `start` of the same container?  A `die` comes from one of three places
in the loop, and two of them are safe: a container that is tracked as running has a `start` as
its last event, so the `die` of a running container that is seen terminated and the `die` made up
for a missed restart both end a `start`.

The third is not.  A container that is not tracked as running but is shown terminated with a
higher `restartCount` has died again, unseen, and the agent reports that `die` without the
`start` before it.  The log still pairs up only if a `start` happens to be left over from before,
which what has been shown of the container decides (`startPending`).  `paired_iff` says that this
is the exact condition.
-/

namespace Swarmagent.Kubernetes

open Swarmagent.Json Swarmagent.Rust Machine

/-- A `die` is allowed when the container's last event that matters is a `start`. -/
def DieAfterStart (before : List AgentEvent) (d : AgentEvent) : Prop :=
  d.action = .die → lastLifecycle d.actor.id before = some .start

/-- What is tracked after what has been shown of a container, the latest first. -/
def trackedAfter : List Observation → Option TrackedContainer
  | .status _ _ _ cs :: _ => some (tracked cs)
  | _ => none

/-- Of what has been shown of a container, the latest first: it was seen running, and neither
was its end seen since then nor its pod deleted.  Its end is seen when it is shown terminated
right after it was running, or terminated with a higher `restartCount` than before. -/
def startPending : List Observation → Bool
  | [] => false
  | .deleted _ _ _ :: _ => false
  | .status _ _ _ cs :: earlier =>
      if statusRunning cs then true
      else if (statusTerminated cs).isSome &&
          (wasRunning (trackedAfter earlier) || missedRestart (trackedAfter earlier) cs) then false
      else startPending earlier

/-- After the calls `before`, the call `c` shows a container terminated with a higher
`restartCount` than tracked, though it is not tracked as running and no `start` of it is
pending. -/
def Unmatched (timestampOf : String → Option Int) (before : List WatchCall) (c : WatchCall) :
    Prop :=
  ∃ p cs, Shows c.toWatchEvent p cs ∧ (statusTerminated cs).isSome = true ∧
    let k := p.containerKey (statusName cs)
    let prev := (watchRun timestampOf ∅ before).1.lookup k
    wasRunning prev = false ∧ missedRestart prev cs = true ∧
      startPending (observations k before).reverse = false

/-- A running container has a pending start. -/
theorem startPending_of_wasRunning {obs : List Observation}
    (h : wasRunning (trackedAfter obs) = true) : startPending obs = true := by
  cases obs with
  | nil => simp [trackedAfter, wasRunning] at h
  | cons o obs =>
      cases o with
      | deleted => simp [trackedAfter, wasRunning] at h
      | status ns pod now cs =>
          have hrun : statusRunning cs = true := h
          simp [startPending, hrun]

/-- Where nothing is tracked, no start is pending. -/
theorem startPending_of_untracked {obs : List Observation} (h : trackedAfter obs = none) :
    startPending obs = false := by
  cases obs with
  | nil => rfl
  | cons o obs =>
      cases o with
      | deleted => rfl
      | status => simp [trackedAfter] at h

section Run

variable (timestampOf : String → Option Int)

/-! ## What has been shown decides whether a start is pending -/

theorem containerRun_trackedAfter (k : String) (obs : List Observation) :
    (containerRun timestampOf k none obs).1 = trackedAfter obs.reverse := by
  induction obs using List.reverseRecOn with
  | nil => rfl
  | append_singleton obs o _ =>
      rw [List.reverse_append]
      cases o with
      | status ns pod now cs => simp [trackedAfter]
      | deleted ns pod now => simp [trackedAfter]

/-- No status among the observations is both running and terminated. -/
def ExclusiveObservations (obs : List Observation) : Prop :=
  ∀ ns pod now cs, Observation.status ns pod now cs ∈ obs →
    ¬(statusRunning cs = true ∧ (statusTerminated cs).isSome = true)

/-- **Pending starts.**  The container's last event that matters is a `start` exactly if what has
been shown of the container leaves a start pending. -/
theorem lastLifecycle_containerRun {k : String} {obs : List Observation}
    (hex : ExclusiveObservations obs) :
    lastLifecycle k (containerRun timestampOf k none obs).2 = some .start ↔
      startPending obs.reverse = true := by
  induction obs using List.reverseRecOn with
  | nil => simp [startPending]
  | append_singleton obs o ih =>
      have ih := ih fun ns pod now cs hcs ↦ hex ns pod now cs (List.mem_append_left _ hcs)
      have hprev := containerRun_trackedAfter timestampOf k obs
      rw [containerRun_append, lastLifecycle_append, List.reverse_append, hprev]
      cases o with
      | deleted ns pod now =>
          -- the deletion is reported, unless nothing was tracked and so no start is pending
          cases htracked : trackedAfter obs.reverse with
          | some t => simp [startPending, lastLifecycle_singleton, destroyed]
          | none =>
              have hnot := (not_congr ih).mpr (by simp [startPending_of_untracked htracked])
              simpa [startPending] using hnot
      | status ns pod now cs =>
          have hcs := hex ns pod now cs (by simp)
          have hpend : wasRunning (trackedAfter obs.reverse) = true →
              startPending obs.reverse = true := startPending_of_wasRunning
          simp only [containerRun_status, lastLifecycle_statusEvents, List.reverse_singleton,
            List.singleton_append, startPending]
          generalize wasRunning (trackedAfter obs.reverse) = was at hpend ⊢
          generalize missedRestart (trackedAfter obs.reverse) cs = miss
          cases hrun : statusRunning cs with
          | true =>
              -- a `start`, unless the container was running all along
              cases was <;> cases miss <;> simp_all
          | false =>
              -- a `die` if its end is seen, and nothing new otherwise
              cases (statusTerminated cs).isSome <;> cases was <;> cases miss <;> simp_all

/-! ## One status -/

/-- A `die` on its own is allowed if the container's last event that matters is a `start`. -/
theorem guarded_die_iff {k : String} {attrs : Attributes} {t : Int} {log : List AgentEvent} :
    Guarded (fun before d ↦ DieAfterStart (log ++ before) d) [event .die k attrs t] ↔
      lastLifecycle k log = some .start := by
  rw [guarded_singleton_iff, List.append_nil]
  exact ⟨fun h ↦ h rfl, fun h _ ↦ h⟩

/-- Any other event is always allowed. -/
theorem guarded_of_ne_die {log out : List AgentEvent} (h : ∀ d ∈ out, d.action ≠ .die) :
    Guarded (fun before d ↦ DieAfterStart (log ++ before) d) out := by
  rintro before d after rfl hdie
  exact absurd hdie (h d (by simp))

/-- An `oom` before the `die` changes nothing. -/
theorem guarded_oom_die_iff {k : String} {attrs : Attributes} {t : Int} {oom : Prop}
    [Decidable oom] {log : List AgentEvent} :
    Guarded (fun before d ↦ DieAfterStart (log ++ before) d)
        ((if oom then [event .oom k attrs t] else []) ++ [event .die k attrs t]) ↔
      lastLifecycle k log = some .start := by
  rw [guarded_append]
  simp only [← List.append_assoc]
  rw [guarded_die_iff]
  split
  · have hoom : lastLifecycle k (log ++ [event .oom k attrs t]) = lastLifecycle k log := by
      simp [lastLifecycle_append, lastLifecycle_singleton]
    rw [hoom]
    exact and_iff_right (guarded_of_ne_die (by simp))
  · rw [List.append_nil]
    exact and_iff_right (guarded_nil _)

/-- The `die` of a terminated container, if there is one, needs a `start` before it. -/
theorem guarded_terminatedEvents_iff {k ns pod : String} {now : Int}
    {prev : Option TrackedContainer} {log : List AgentEvent} {cs : Value} :
    Guarded (fun before d ↦ DieAfterStart (log ++ before) d)
        (terminatedEvents timestampOf ns pod now k prev cs) ↔
      ((statusTerminated cs).isSome = true → (wasRunning prev || missedRestart prev cs) = true →
        lastLifecycle k log = some .start) := by
  unfold terminatedEvents terminatedBranch
  cases statusTerminated cs with
  | none => simpa using guarded_nil _
  | some term =>
      cases h : (wasRunning prev || missedRestart prev cs) with
      | true => simpa using guarded_oom_die_iff
      | false => simpa using guarded_nil _

/-- The `die` made up for a missed restart ends the `start` of a running container. -/
theorem guarded_runningEvents {k ns pod : String} {now : Int} {prev : Option TrackedContainer}
    {log : List AgentEvent} {cs : Value}
    (hwas : wasRunning prev = true → lastLifecycle k log = some .start) :
    Guarded (fun before d ↦ DieAfterStart (log ++ before) d)
      (runningEvents timestampOf ns pod now k prev cs) := by
  unfold runningEvents runningBranch
  split
  · refine guarded_append.mpr ⟨?_, ?_⟩
    · split
      · rename_i hmiss
        exact guarded_die_iff.mpr (hwas (Bool.and_eq_true_iff.mp hmiss).2)
      · exact guarded_nil _
    · simp only [← List.append_assoc]
      exact guarded_of_ne_die (by simp)
  · exact guarded_nil _

/-- The events of a status are allowed exactly if a `start` is pending when the container is shown
terminated, once more, without having been tracked as running. -/
theorem guarded_statusEvents_iff {k ns pod : String} {now : Int} {prev : Option TrackedContainer}
    {log : List AgentEvent} {cs : Value}
    (hwas : wasRunning prev = true → lastLifecycle k log = some .start)
    (hex : ¬(statusRunning cs = true ∧ (statusTerminated cs).isSome = true)) :
    Guarded (fun before d ↦ DieAfterStart (log ++ before) d)
        (statusEvents timestampOf ns pod now k prev cs) ↔
      ((statusTerminated cs).isSome = true → wasRunning prev = false →
        missedRestart prev cs = true → lastLifecycle k log = some .start) := by
  rw [statusEvents, guarded_append, guarded_terminatedEvents_iff]
  cases hrun : statusRunning cs with
  | true =>
      have hterm : statusTerminated cs = none := by simpa [hrun] using hex
      have hdied : terminatedEvents timestampOf ns pod now k prev cs = [] := by
        simp [terminatedEvents, terminatedBranch, hterm]
      rw [hdied]
      simpa [hterm] using guarded_runningEvents timestampOf hwas
  | false =>
      have hstarted : runningEvents timestampOf ns pod now k prev cs = [] := by
        simp [runningEvents, runningBranch, hrun]
      rw [hstarted, and_iff_left (guarded_nil _)]
      apply imp_congr_right
      intro _
      cases hw : wasRunning prev with
      | true => simpa using hwas hw
      | false => simp

/-! ## One call -/

theorem dieAfterStart_filter (log before : List AgentEvent) (d : AgentEvent) :
    DieAfterStart (log ++ before) d ↔
      DieAfterStart (log ++ before.filter fun e ↦ e.actor.id = d.actor.id) d := by
  simp only [DieAfterStart, lastLifecycle_append, lastLifecycle_filter]

/-- The statuses shown of a container in a run over well-formed pods are exclusive. -/
theorem exclusiveObservations {calls : List WatchCall}
    (hcalls : ∀ c ∈ calls, WellFormed c.object) (k : String) :
    ExclusiveObservations (observations k calls) := by
  intro ns pod now cs hcs
  obtain ⟨c, hc, hobs⟩ := List.mem_flatMap.mp hcs
  rcases mem_observationsOf hobs with ⟨p, h⟩ | ⟨p, cs', hshows, -, h⟩
  · cases h
  · cases h
    exact (hcalls c hc).exclusive cs hshows.2.2.1

/-- After a run, the container's last event that matters is a `start` exactly if one is pending. -/
theorem lastLifecycle_watchRun {calls : List WatchCall}
    (hcalls : ∀ c ∈ calls, WellFormed c.object) (k : String) :
    lastLifecycle k (watchRun timestampOf ∅ calls).2 = some .start ↔
      startPending (observations k calls).reverse = true := by
  rw [← lastLifecycle_filter, filter_watchRun, Finmap.lookup_empty]
  exact lastLifecycle_containerRun timestampOf (exclusiveObservations hcalls k)

/-- What is tracked as running has a pending `start`. -/
theorem lastLifecycle_of_wasRunning {calls : List WatchCall}
    (hcalls : ∀ c ∈ calls, WellFormed c.object) {k : String}
    (h : wasRunning ((watchRun timestampOf ∅ calls).1.lookup k) = true) :
    lastLifecycle k (watchRun timestampOf ∅ calls).2 = some .start := by
  rw [lookup_watchRun, Finmap.lookup_empty, containerRun_trackedAfter] at h
  exact (lastLifecycle_watchRun timestampOf hcalls k).mpr (startPending_of_wasRunning h)

/-- A call emits only allowed `die`s exactly if it is not unmatched. -/
theorem guarded_watchStep_iff {calls : List WatchCall} {c : WatchCall}
    (hcalls : ∀ d ∈ calls, WellFormed d.object) (hc : WellFormed c.object) :
    Guarded (fun before d ↦ DieAfterStart ((watchRun timestampOf ∅ calls).2 ++ before) d)
        (watchStep timestampOf (watchRun timestampOf ∅ calls).1 c).2 ↔
      ¬Unmatched timestampOf calls c := by
  rw [guarded_filter_iff (fun e : AgentEvent ↦ e.actor.id) fun before d ↦
    dieAfterStart_filter (watchRun timestampOf ∅ calls).2 before d]
  simp only [filter_watchStep]
  have hwas : ∀ k, wasRunning ((watchRun timestampOf ∅ calls).1.lookup k) = true →
      lastLifecycle k (watchRun timestampOf ∅ calls).2 = some .start := fun k ↦
    lastLifecycle_of_wasRunning timestampOf hcalls
  have hlast := lastLifecycle_watchRun timestampOf hcalls
  constructor
  · rintro hall ⟨p, cs, hshows, hterm, hnot, hmiss, hpend⟩
    have hk := hall (p.containerKey (statusName cs))
    rw [hshows.observationsOf hc.distinct, containerRun_status,
      guarded_statusEvents_iff timestampOf (hwas _) (hc.exclusive cs hshows.2.2.1)] at hk
    exact Bool.false_ne_true (hpend.symm.trans ((hlast _).mp (hk hterm hnot hmiss)))
  · intro hok k
    rcases observationsOf_cases hc.distinct k with hobs | ⟨p, hobs⟩ | ⟨p, cs, hshows, rfl, hobs⟩ <;>
      rw [hobs]
    · exact guarded_nil _
    · rw [containerRun_deleted]
      apply guarded_of_ne_die
      intro d hd
      split at hd
      · rw [List.mem_singleton.mp hd]
        simp [destroyed]
      · simp at hd
    · rw [containerRun_status,
        guarded_statusEvents_iff timestampOf (hwas _) (hc.exclusive cs hshows.2.2.1)]
      intro hterm hnot hmiss
      rw [hlast]
      by_contra hpend
      exact hok ⟨p, cs, hshows, hterm, hnot, hmiss, by simpa using hpend⟩

/-! ## Runs -/

/-- **When every `die` has its `start`.**  In a run from the empty state over well-formed pods,
whenever a `die` is emitted for a container the most recent earlier `start`, `die` or `destroy`
emitted for it is a `start`, exactly if no step is unmatched. -/
theorem paired_iff (calls : List WatchCall) (hcalls : ∀ c ∈ calls, WellFormed c.object) :
    (∀ before d after, (watchRun timestampOf ∅ calls).2 = before ++ d :: after →
        d.action = .die → lastLifecycle d.actor.id before = some .start) ↔
      ∀ before c, before ++ [c] <+: calls → ¬Unmatched timestampOf before c := by
  have hprefix : (∀ before, before <+: calls →
        Guarded DieAfterStart (watchRun timestampOf ∅ before).2) ↔
      ∀ before c, before ++ [c] <+: calls → ¬Unmatched timestampOf before c := by
    apply prefix_invariant_iff
    · exact guarded_nil _
    · intro before c hpre h
      have hbefore : ∀ d ∈ before, WellFormed d.object := fun d hd ↦
        hcalls d (hpre.subset (by simp [hd]))
      have hc : WellFormed c.object := hcalls c (hpre.subset (by simp))
      rw [watchRun_concat, guarded_append, and_iff_right h]
      exact guarded_watchStep_iff timestampOf hbefore hc
  rw [← hprefix]
  refine ⟨fun h before hpre ↦ ?_, fun h ↦ h calls (List.prefix_refl calls)⟩
  obtain ⟨rest, rfl⟩ := hpre
  rw [watchRun_append] at h
  exact (guarded_append.mp h).1

/-- Two consecutive observations between which the restart count does not go back, unless the
pod was deleted. -/
def RestartsKept : Observation → Observation → Prop
  | .status _ _ _ cs, .status _ _ _ cs' => statusRestartCount cs ≤ statusRestartCount cs'
  | _, _ => True

/-- A container that is seen terminated and then seen terminated again, after a restart in
between: two `die`s in a row. -/
theorem second_die_unpaired :
    let pod := fun cs ↦ podObject "prod" "web-1" [cs]
    let calls : List WatchCall :=
      [⟨⟨"ADDED", pod (statusObject "web" 0 (runningSince "2026-07-13T09:00:00Z")), 1783933300⟩,
          .unspecified⟩,
        ⟨⟨"MODIFIED", pod (statusObject "web" 0 (terminatedAt 1 "Error" "2026-07-13T10:00:00Z")),
          1783936900⟩, .unspecified⟩,
        ⟨⟨"MODIFIED", pod (statusObject "web" 1 (terminatedAt 1 "Error" "2026-07-13T10:05:00Z")),
          1783937200⟩, .unspecified⟩]
    (∀ c ∈ calls, SlashFreeNames c.object ∧ WellFormed c.object) ∧
      (∀ k, (observations k calls).IsChain RestartsKept) ∧
      ¬∀ before d after, (watchRun someTimestamps ∅ calls).2 = before ++ d :: after →
        d.action = .die → lastLifecycle d.actor.id before = some .start := by
  intro pod calls
  refine ⟨?_, fun k ↦ ?_, fun h ↦ ?_⟩
  · intro c hc
    simp only [calls, List.mem_cons, List.not_mem_nil, or_false] at hc
    rcases hc with rfl | rfl | rfl <;> exact ⟨by decide, by decide, by decide⟩
  · by_cases hk : "prod/web-1/web" = k
    · subst hk
      refine List.isChain_cons_cons.mpr
        ⟨?_, List.isChain_cons_cons.mpr ⟨?_, List.isChain_singleton _⟩⟩
      · exact (by decide : (0 : Int) ≤ 0)
      · exact (by decide : (0 : Int) ≤ 1)
    · have hnone : ∀ now cs, statusName cs = "web" →
          statusObservation k "prod" "web-1" now cs = [] := fun now cs hcs ↦ by
        rw [statusObservation, hcs]
        exact if_neg fun h ↦ hk h.2
      have hobs : observations k calls = [] := by
        apply List.flatMap_eq_nil_iff.mpr
        intro c hc
        simp only [calls, List.mem_cons, List.not_mem_nil, or_false] at hc
        rcases hc with rfl | rfl | rfl <;>
          exact List.flatMap_eq_nil_iff.mpr fun cs hcs ↦ hnone _ _ (by
            rw [List.mem_singleton.mp hcs]; decide)
      rw [hobs]
      exact List.isChain_nil
  · let attrs :=
      ((baseAttributes "prod" "web-1" "web").insert "exitCode" "1").insert "reason" "Error"
    have hlog : (watchRun someTimestamps ∅ calls).2 =
        [event .start "prod/web-1/web" (baseAttributes "prod" "web-1" "web") 1783933200,
          event .die "prod/web-1/web" attrs 1783936800] ++
          event .die "prod/web-1/web" attrs 1783937100 :: [] := by decide
    exact absurd (h _ _ _ hlog rfl) (by decide)

/-- A container that starts again before it dies again is no such case. -/
theorem paired_iff_restarted :
    let pod := fun cs ↦ podObject "prod" "web-1" [cs]
    let calls : List WatchCall :=
      [⟨⟨"ADDED", pod (statusObject "web" 0 (runningSince "2026-07-13T09:00:00Z")), 1783933300⟩,
          .unspecified⟩,
        ⟨⟨"MODIFIED", pod (statusObject "web" 1 (runningSince "2026-07-13T10:00:00Z")),
          1783936900⟩, .unspecified⟩]
    (∀ before d after, (watchRun someTimestamps ∅ calls).2 = before ++ d :: after →
        d.action = .die → lastLifecycle d.actor.id before = some .start) ↔
      ∀ before c, before ++ [c] <+: calls → ¬Unmatched someTimestamps before c := by
  intro pod calls
  apply paired_iff someTimestamps calls
  intro c hc
  simp only [calls, List.mem_cons, List.not_mem_nil, or_false] at hc
  rcases hc with rfl | rfl <;> exact ⟨by decide, by decide⟩

end Run

end Swarmagent.Kubernetes
