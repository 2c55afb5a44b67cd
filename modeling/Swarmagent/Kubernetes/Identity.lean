import Swarmagent.Kubernetes.Deletion
import Swarmagent.Kubernetes.Pairing
import Swarmagent.Kubernetes.Summary

/-!
# One id for both channels

A container is known by its namespace, its pod and its name.  Its stats and its events carry an id
that is made of the three, each in its own place of the code: `container_statuses` joins them anew
for each status, `diff_watch_event` stores the joined key and uses it as `Actor.ID` from then on.

The two agree (`ids_agree`): the statuses of a summary are those of its named containers, each
once and in order, and an event of any run carries the stats id of a container that was listed.
-/

namespace Swarmagent.Kubernetes

open Swarmagent.Json Swarmagent.Rust

/-- What a container is known by. -/
structure ContainerId where
  pod : PodId
  container : String
deriving DecidableEq

namespace ContainerId

/-- The id in both channels. -/
def statsId (t : ContainerId) : String := t.pod.containerKey t.container

/-- None of the names is empty. -/
def Named (t : ContainerId) : Prop := t.pod.ns ≠ "" ∧ t.pod.name ≠ "" ∧ t.container ≠ ""

instance (t : ContainerId) : Decidable t.Named := inferInstanceAs (Decidable (_ ∧ _))

/-- None of the names has a `/`. -/
def SlashFree (t : ContainerId) : Prop := t.pod.SlashFree ∧ Kubernetes.SlashFree t.container

instance (t : ContainerId) : Decidable t.SlashFree := inferInstanceAs (Decidable (_ ∧ _))

/-- The prefix of a pod fits the id of a container only if it is its pod. -/
theorem eq_of_keyPrefix {t : ContainerId} (ht : t.SlashFree) {p : PodId} {rest : String}
    (h : p.keyPrefix ++ rest = t.statsId) : p = t.pod ∧ rest = t.container := by
  have hlist := congrArg String.toList h
  simp only [statsId, PodId.containerKey, String.toList_append, PodId.keyPrefix_toList] at hlist
  have hcount := congrArg (List.count '/') hlist
  simp only [List.count_append, List.count_cons_self, List.count_nil,
    List.count_eq_zero.mpr ht.1.1, List.count_eq_zero.mpr ht.1.2,
    List.count_eq_zero.mpr ht.2] at hcount
  have hp : p.SlashFree :=
    ⟨List.count_eq_zero.mp (by omega), List.count_eq_zero.mp (by omega)⟩
  exact PodId.eq_of_keyPrefix_append hp ht.1 h

/-- **The id determines the container.** -/
theorem eq_of_statsId_eq {t t' : ContainerId} (ht : t.SlashFree) (h : t'.statsId = t.statsId) :
    t' = t := by
  obtain ⟨hpod, hcontainer⟩ := eq_of_keyPrefix ht h
  obtain ⟨pod, container⟩ := t'
  exact (ContainerId.mk.injEq ..).mpr ⟨hpod, hcontainer⟩

theorem nodup_statsId {l : List ContainerId} (hslash : ∀ t ∈ l, t.SlashFree) (hl : l.Nodup) :
    (l.map statsId).Nodup :=
  hl.map_on fun _ _ t ht h ↦ eq_of_statsId_eq (hslash t ht) h

end ContainerId

/-! ## Stats -/

/-- The containers of a summary, in document order. -/
def Summary.containerIds (summary : Summary) : List ContainerId :=
  summary.pods.flatMap fun pod ↦ pod.containers.map fun c ↦ ⟨⟨pod.ns, pod.name⟩, c.name⟩

/-- What a status says whose status it is. -/
def statusIdentity {F : Type} (e : ContainerStatus F) :
    Option String × Option String × String × String :=
  (e.ns, e.pod, e.name, e.id)

/-- What the status of a container is to say of it. -/
def ContainerId.identity (t : ContainerId) : Option String × Option String × String × String :=
  (some t.pod.ns, some t.pod.name, t.container, t.statsId)

section Stats

variable {F : Type} [Arith F] (metas : Finmap fun _ : String ↦ PodMeta) (capacityCores : F)

theorem podStatuses_identity (pod : PodSummary) :
    (podStatuses metas capacityCores pod).map statusIdentity =
      ((pod.containers.map fun c ↦ (⟨⟨pod.ns, pod.name⟩, c.name⟩ : ContainerId)).filter
        ContainerId.Named).map ContainerId.identity := by
  unfold podStatuses
  split
  · next hpod =>
      have hnone : ∀ t ∈ pod.containers.map fun c ↦ (⟨⟨pod.ns, pod.name⟩, c.name⟩ : ContainerId),
          ¬decide t.Named = true := by
        intro t ht
        obtain ⟨c, -, rfl⟩ := List.mem_map.mp ht
        rw [decide_eq_true_iff]
        exact fun h ↦ hpod.elim h.1 h.2.1
      rw [List.filter_eq_nil_iff.mpr hnone]
      rfl
  · next hpod =>
      obtain ⟨hns, hname⟩ := not_or.mp hpod
      simp only
      generalize 0 = n
      induction pod.containers generalizing n with
      | nil => rfl
      | cons c containers ih =>
          rw [List.zipIdx_cons, List.map_cons]
          by_cases hc : c.name = ""
          · rw [List.filter_cons_of_neg (by simp [ContainerId.Named, hc]), ← ih (n + 1)]
            simp only [List.filterMap_cons, if_pos hc]
          · rw [List.filter_cons_of_pos (by simp [ContainerId.Named, hc, hns, hname]),
              List.map_cons, ← ih (n + 1)]
            simp only [List.filterMap_cons, if_neg hc]
            rfl

/-- **The statuses are those of the named containers**, each once and in order. -/
theorem containerStatuses_identity (summary : Summary) :
    (summary.containerStatuses metas capacityCores).map statusIdentity =
      (summary.containerIds.filter ContainerId.Named).map ContainerId.identity := by
  unfold Summary.containerStatuses Summary.containerIds
  rw [List.map_flatMap, List.filter_flatMap, List.map_flatMap]
  exact congrArg (List.flatMap · summary.pods)
    (funext fun pod ↦ podStatuses_identity metas capacityCores pod)

end Stats

/-! ## Events -/

/-- The attributes of an event say whose event it is. -/
def NamesContainer (e : AgentEvent) (t : ContainerId) : Prop :=
  e.actor.attributes.lookup "namespace" = some t.pod.ns ∧
    e.actor.attributes.lookup "pod" = some t.pod.name ∧
    e.actor.attributes.lookup "name" = some t.container

/-- Some call lists the container. -/
def ListedIn (calls : List WatchCall) (t : ContainerId) : Prop :=
  ∃ c ∈ calls, ∃ cs, Shows c.toWatchEvent t.pod cs ∧ statusName cs = t.container

section Attributes

variable {e : AgentEvent} {p : PodId} {container : String}

theorem namesContainer_of_base
    (h : e.actor.attributes = baseAttributes p.ns p.name container) :
    NamesContainer e ⟨p, container⟩ := by
  unfold NamesContainer
  rw [h]
  simp [lookup_baseAttributes]

theorem namesContainer_of_death {term : Value}
    (h : e.actor.attributes = deathAttributes p.ns p.name container term) :
    NamesContainer e ⟨p, container⟩ := by
  unfold NamesContainer
  rw [h]
  simp [lookup_deathAttributes, lookup_baseAttributes]

end Attributes

section Run

variable (timestampOf : String → Option Int)

/-- An event of a status names the container of the status. -/
theorem namesContainer_of_mem_statusEvents {p : PodId} {now : Int} {k : String}
    {prev : Option TrackedContainer} {cs : Value} {e : AgentEvent}
    (he : e ∈ statusEvents timestampOf p.ns p.name now k prev cs) :
    NamesContainer e ⟨p, statusName cs⟩ := by
  rcases List.mem_append.mp he with he | he
  · obtain ⟨a, term, t, -, rfl⟩ := mem_terminatedEvents timestampOf he
    exact namesContainer_of_death rfl
  · obtain ⟨a, t, -, rfl⟩ := mem_runningEvents timestampOf he
    exact namesContainer_of_base rfl

/-- Something is tracked only after a status. -/
theorem exists_status_of_trackedAfter {obs : List Observation}
    (h : (trackedAfter obs).isSome = true) :
    ∃ ns pod now cs, Observation.status ns pod now cs ∈ obs := by
  cases obs with
  | nil => cases h
  | cons o obs =>
      cases o with
      | status ns pod now cs => exact ⟨ns, pod, now, cs, List.mem_cons_self⟩
      | deleted => cases h

/-- **Where the events of a container come from**: a status, or a deletion after some status. -/
theorem mem_containerRun {k : String} {obs : List Observation} {e : AgentEvent}
    (he : e ∈ (containerRun timestampOf k none obs).2) :
    (∃ ns pod now cs prev, .status ns pod now cs ∈ obs ∧
        e ∈ statusEvents timestampOf ns pod now k prev cs) ∨
      (∃ ns pod now, .deleted ns pod now ∈ obs ∧ e = destroyed ns pod now k) ∧
        ∃ ns pod now cs, Observation.status ns pod now cs ∈ obs := by
  induction obs using List.reverseRecOn with
  | nil => cases he
  | append_singleton obs o ih =>
      have hprev := containerRun_trackedAfter timestampOf k obs
      rw [containerRun_append, List.mem_append, hprev] at he
      rcases he with he | he
      · rcases ih he with ⟨ns, pod, now, cs, prev, hmem, he⟩ |
          ⟨⟨ns, pod, now, hmem, he⟩, ns', pod', now', cs', hmem'⟩
        · exact Or.inl ⟨ns, pod, now, cs, prev, List.mem_append_left _ hmem, he⟩
        · exact Or.inr ⟨⟨ns, pod, now, List.mem_append_left _ hmem, he⟩, ns', pod', now', cs',
            List.mem_append_left _ hmem'⟩
      · cases o with
        | status ns pod now cs =>
            rw [containerRun_status] at he
            exact Or.inl ⟨ns, pod, now, cs, _, by simp, he⟩
        | deleted ns pod now =>
            rw [containerRun_deleted] at he
            split at he
            · next htracked =>
                obtain ⟨ns', pod', now', cs', hmem⟩ := exists_status_of_trackedAfter htracked
                exact Or.inr ⟨⟨ns, pod, now, by simp, List.mem_singleton.mp he⟩, ns', pod', now',
                  cs', List.mem_append_left _ (List.mem_reverse.mp hmem)⟩
            · cases he

theorem mem_observations {k : String} {calls : List WatchCall} {o : Observation} :
    o ∈ observations k calls ↔ ∃ c ∈ calls, o ∈ observationsOf k c.toWatchEvent :=
  List.mem_flatMap

/-- A status of a container is that of a listed one with its id. -/
theorem listedIn_of_mem_observations {k : String} {calls : List WatchCall} {ns pod : String}
    {now : Int} {cs : Value} (h : .status ns pod now cs ∈ observations k calls) :
    ListedIn calls ⟨⟨ns, pod⟩, statusName cs⟩ ∧
      k = (⟨⟨ns, pod⟩, statusName cs⟩ : ContainerId).statsId := by
  obtain ⟨c, hc, ho⟩ := mem_observations.mp h
  rcases mem_observationsOf ho with ⟨p, hp⟩ | ⟨p, cs', hshows, hk, ho'⟩
  · cases hp
  · obtain ⟨rfl, rfl, rfl, rfl⟩ := (Observation.status.injEq ..).mp ho'
    exact ⟨⟨c, hc, cs, hshows, rfl⟩, hk⟩

/-- A deletion is shown to the containers with the prefix of the pod. -/
theorem startsWith_of_mem_observations {k : String} {calls : List WatchCall} {ns pod : String}
    {now : Int} (h : .deleted ns pod now ∈ observations k calls) :
    startsWith k (PodId.keyPrefix ⟨ns, pod⟩) = true := by
  obtain ⟨c, -, ho⟩ := mem_observations.mp h
  cases hp : podOf c.object with
  | none =>
      rw [observationsOf_unnamed (podOf_eq_none.mp hp)] at ho
      cases ho
  | some p =>
      by_cases htype : c.eventType = "DELETED"
      · rw [observationsOf_pod_deleted hp htype] at ho
        split at ho
        · next hk =>
            obtain ⟨rfl, rfl, -⟩ := (Observation.deleted.injEq ..).mp (List.mem_singleton.mp ho)
            exact hk
        · cases ho
      · rw [observationsOf_pod_shown hp htype] at ho
        obtain ⟨cs, -, ho⟩ := List.mem_flatMap.mp ho
        unfold statusObservation at ho
        split at ho
        · cases List.mem_singleton.mp ho
        · cases ho

/-- **The id of an event** is the stats id of a container that was listed; and if the names of this
one have no `/`, the event names it, and no other container has the id. -/
theorem event_id_of_watchRun {calls : List WatchCall} {e : AgentEvent}
    (he : e ∈ (watchRun timestampOf ∅ calls).2) :
    ∃ t : ContainerId, ListedIn calls t ∧ e.actor.id = t.statsId ∧
      (t.SlashFree → NamesContainer e t ∧
        ∀ t' : ContainerId, t'.statsId = e.actor.id → t' = t) := by
  have hown : e ∈ (watchRun timestampOf ∅ calls).2.filter (fun d ↦ d.actor.id = e.actor.id) :=
    List.mem_filter.mpr ⟨he, by simp⟩
  rw [filter_watchRun] at hown
  rcases mem_containerRun timestampOf hown with ⟨ns, pod, now, cs, prev, hmem, hstatus⟩ |
    ⟨⟨ns, pod, now, hmem, hdestroyed⟩, ns', pod', now', cs, hmem'⟩
  · obtain ⟨hlisted, hid⟩ := listedIn_of_mem_observations hmem
    refine ⟨_, hlisted, hid, fun hslash ↦ ⟨?_, fun t' ht' ↦ ?_⟩⟩
    · exact namesContainer_of_mem_statusEvents timestampOf hstatus
    · exact ContainerId.eq_of_statsId_eq hslash (ht'.trans hid)
  · obtain ⟨hlisted, hid⟩ := listedIn_of_mem_observations hmem'
    refine ⟨_, hlisted, hid, fun hslash ↦ ⟨?_, fun t' ht' ↦ ?_⟩⟩
    · -- the pod that was deleted is the container's own
      obtain ⟨rest, hrest⟩ := startsWith_iff.mp (startsWith_of_mem_observations hmem)
      obtain ⟨hpod, -⟩ := ContainerId.eq_of_keyPrefix hslash (hrest.symm.trans hid)
      obtain ⟨rfl, rfl⟩ := (PodId.mk.injEq ..).mp hpod
      have hname : rsplitNext e.actor.id '/' = statusName cs := by
        rw [hid]
        exact PodId.rsplitNext_containerKey _ hslash.2
      rw [hdestroyed]
      refine namesContainer_of_base ?_
      rw [destroyed, hname]
      rfl
    · exact ContainerId.eq_of_statsId_eq hslash (ht'.trans hid)

/-- **One id for both channels.**  The statuses of a summary are those of its named containers, each
once, in order and with its stats id; if no container is listed twice, no id is; and in any run, an
event carries the stats id of a listed container, which it names, and which no other container
has. -/
theorem ids_agree {F : Type} [Arith F] (summary : Summary)
    (metas : Finmap fun _ : String ↦ PodMeta) (capacityCores : F)
    (hslash : ∀ t ∈ summary.containerIds, t.SlashFree) :
    (summary.containerStatuses metas capacityCores).map statusIdentity =
        (summary.containerIds.filter ContainerId.Named).map ContainerId.identity ∧
      ((summary.containerIds.filter ContainerId.Named).Nodup →
        ((summary.containerStatuses metas capacityCores).map fun e ↦ e.id).Nodup) ∧
      ∀ calls, ∀ e ∈ (watchRun timestampOf ∅ calls).2, ∃ t : ContainerId, ListedIn calls t ∧
        e.actor.id = t.statsId ∧ (t.SlashFree → NamesContainer e t ∧
          ∀ t' : ContainerId, t'.statsId = e.actor.id → t' = t) := by
  have hidentity := containerStatuses_identity metas capacityCores summary
  refine ⟨hidentity, fun hnodup ↦ ?_, fun calls e he ↦ event_id_of_watchRun timestampOf he⟩
  have hids := congrArg (List.map fun i ↦ i.2.2.2) hidentity
  rw [List.map_map, List.map_map] at hids
  show ((summary.containerStatuses metas capacityCores).map
    ((fun i ↦ i.2.2.2) ∘ statusIdentity)).Nodup
  rw [hids]
  exact ContainerId.nodup_statsId (fun t ht ↦ hslash t (List.mem_of_mem_filter ht)) hnodup

/-- The statuses of a pod, and the start of one of its containers. -/
theorem ids_agree_web :
    let summary : Summary := { pods := [quietPod "prod" "web-1" ["web", "", "log"] none] }
    let c : WatchCall := ⟨⟨"ADDED", podObject "prod" "web-1"
      [statusObject "web" 0 (runningSince "2026-07-13T10:00:00Z")], 1783937000⟩, .unspecified⟩
    let started := event .start "prod/web-1/web" (baseAttributes "prod" "web-1" "web") 1783936800
    ((summary.containerStatuses ∅ (1 : F64)).map fun e ↦ e.id).Nodup ∧
      ∃ t ∈ summary.containerIds, ListedIn [c] t ∧ started.actor.id = t.statsId ∧
        NamesContainer started t := by
  intro summary c started
  obtain ⟨-, hnodup, hevents⟩ :=
    ids_agree someTimestamps summary ∅ (1 : F64) (by decide)
  have hlog : (watchRun someTimestamps ∅ [c]).2 = [started] := by decide
  obtain ⟨t, hlisted, hid, hnames⟩ := hevents [c] started (hlog ▸ List.mem_singleton_self _)
  have hslash : (⟨⟨"prod", "web-1"⟩, "web"⟩ : ContainerId).SlashFree := by decide
  have hid' : t.statsId = ContainerId.statsId ⟨⟨"prod", "web-1"⟩, "web"⟩ :=
    hid.symm.trans (by decide)
  obtain rfl := ContainerId.eq_of_statsId_eq hslash hid'
  exact ⟨hnodup (by decide), _, List.mem_cons_self, hlisted, hid, (hnames hslash).1⟩

end Run

end Swarmagent.Kubernetes
