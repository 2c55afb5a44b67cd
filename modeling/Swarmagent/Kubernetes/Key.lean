import Swarmagent.Kubernetes.Container

/-!
# Keys and pods

The key of a container is its namespace, its pod and its name joined by `/`, and a deletion
finds the keys of a pod by their prefix.  This is sound because Kubernetes names have no `/` in
them: a key then belongs to one pod only (`PodId.eq_of_keyPrefix_append`), and the container's
name is what stands after the last `/` (`PodId.rsplitNext_containerKey`).  From it follows the
locality used by everything about several pods: an event shows nothing of the containers of other
pods (`observationsOf_other`).
-/

namespace Swarmagent.Kubernetes

open Swarmagent.Json Swarmagent.Rust

/-- A name without `/`. -/
def SlashFree (s : String) : Prop := '/' ∉ s.toList

instance (s : String) : Decidable (SlashFree s) := inferInstanceAs (Decidable (_ ∉ _))

/-- A pod is identified by its namespace and its name. -/
structure PodId where
  ns : String
  name : String
deriving DecidableEq, Repr

/-- The pod an object is about: none if its namespace or its name is missing. -/
def podOf (pod : Value) : Option PodId :=
  if podNamespace pod = "" ∨ podName pod = "" then none else some ⟨podNamespace pod, podName pod⟩

namespace PodId

/-- What the keys of a pod begin with. -/
def keyPrefix (p : PodId) : String := podPrefix p.ns p.name

/-- The key of a container of a pod. -/
def containerKey (p : PodId) (container : String) : String := p.keyPrefix ++ container

/-- Neither the namespace nor the name has a `/`. -/
def SlashFree (p : PodId) : Prop := Kubernetes.SlashFree p.ns ∧ Kubernetes.SlashFree p.name

instance (p : PodId) : Decidable p.SlashFree := inferInstanceAs (Decidable (_ ∧ _))

theorem keyPrefix_toList (p : PodId) :
    p.keyPrefix.toList = (p.ns.toList ++ '/' :: p.name.toList) ++ ['/'] := by
  simp [keyPrefix, podPrefix]

@[simp] theorem startsWith_containerKey (p : PodId) (c : String) :
    startsWith (p.containerKey c) p.keyPrefix = true := startsWith_append _ _

/-- **A key belongs to one pod only.** -/
theorem eq_of_keyPrefix_append {p q : PodId} (hp : p.SlashFree) (hq : q.SlashFree)
    {rest rest' : String} (h : p.keyPrefix ++ rest = q.keyPrefix ++ rest') :
    p = q ∧ rest = rest' := by
  have hlist := congrArg String.toList h
  simp only [String.toList_append, keyPrefix_toList, List.append_assoc, List.cons_append,
    List.nil_append] at hlist
  obtain ⟨hns, htail⟩ := append_cons_inj_of_first hp.1 hq.1 hlist
  obtain ⟨hname, hrest⟩ := append_cons_inj_of_first hp.2 hq.2 htail
  obtain ⟨ns, name⟩ := p
  obtain ⟨ns', name'⟩ := q
  simp only [PodId.mk.injEq]
  exact ⟨⟨String.toList_inj.mp hns, String.toList_inj.mp hname⟩, String.toList_inj.mp hrest⟩

theorem eq_of_startsWith {p q : PodId} (hp : p.SlashFree) (hq : q.SlashFree) {k : String}
    (hkp : startsWith k p.keyPrefix = true) (hkq : startsWith k q.keyPrefix = true) : p = q := by
  obtain ⟨rest, hrest⟩ := startsWith_iff.mp hkp
  obtain ⟨rest', hrest'⟩ := startsWith_iff.mp hkq
  exact (eq_of_keyPrefix_append hp hq (hrest.symm.trans hrest')).1

/-- Two containers of a pod have different keys. -/
theorem containerKey_inj (p : PodId) {c c' : String} :
    p.containerKey c = p.containerKey c' ↔ c = c' := by
  refine ⟨fun h ↦ ?_, fun h ↦ h ▸ rfl⟩
  have hlist := congrArg String.toList h
  simp only [containerKey, String.toList_append, List.append_cancel_left_eq] at hlist
  exact String.toList_inj.mp hlist

/-- The name of a container is what stands after the last `/` of its key. -/
theorem rsplitNext_containerKey (p : PodId) {c : String} (hc : Kubernetes.SlashFree c) :
    rsplitNext (p.containerKey c) '/' = c :=
  rsplitNext_append p.keyPrefix_toList hc

end PodId

/-! ## Events about a pod -/

theorem podOf_eq_none {pod : Value} :
    podOf pod = none ↔ podNamespace pod = "" ∨ podName pod = "" := by
  unfold podOf
  split <;> simp_all

theorem podOf_eq_some {pod : Value} {p : PodId} :
    podOf pod = some p ↔ ¬(podNamespace pod = "" ∨ podName pod = "") ∧
      podNamespace pod = p.ns ∧ podName pod = p.name := by
  unfold podOf
  by_cases hpod : podNamespace pod = "" ∨ podName pod = ""
  · simp [hpod]
  · cases p
    simp [hpod]

theorem podOf_slashFree {pod : Value} {p : PodId} (h : podOf pod = some p)
    (hns : SlashFree (podNamespace pod)) (hname : SlashFree (podName pod)) : p.SlashFree := by
  obtain ⟨-, hp, hp'⟩ := podOf_eq_some.mp h
  exact ⟨hp ▸ hns, hp' ▸ hname⟩

section About

variable {k : String} {e : WatchEvent} {p : PodId}

/-- A deletion shows every key with the pod's prefix. -/
theorem observationsOf_pod_deleted (hp : podOf e.object = some p)
    (htype : e.eventType = "DELETED") :
    observationsOf k e =
      if startsWith k p.keyPrefix then [.deleted p.ns p.name e.now] else [] := by
  obtain ⟨hpod, hns, hname⟩ := podOf_eq_some.mp hp
  rw [observationsOf_deleted hpod htype, hns, hname]
  rfl

/-- Any other event of a pod shows the containers it lists. -/
theorem observationsOf_pod_shown (hp : podOf e.object = some p) (htype : e.eventType ≠ "DELETED") :
    observationsOf k e =
      (containerStatuses e.object).flatMap (statusObservation k p.ns p.name e.now) := by
  obtain ⟨hpod, hns, hname⟩ := podOf_eq_some.mp hp
  rw [observationsOf_shown hpod htype, hns, hname]

/-- An event shows nothing of a key without the prefix of its pod. -/
theorem observationsOf_eq_nil
    (h : ∀ p, podOf e.object = some p → ¬startsWith k p.keyPrefix = true) :
    observationsOf k e = [] := by
  cases hp : podOf e.object with
  | none => exact observationsOf_unnamed (podOf_eq_none.mp hp)
  | some p =>
      have hk := h p hp
      by_cases htype : e.eventType = "DELETED"
      · rw [observationsOf_pod_deleted hp htype, if_neg hk]
      · rw [observationsOf_pod_shown hp htype, List.flatMap_eq_nil_iff]
        intro cs _
        rw [statusObservation, if_neg]
        rintro ⟨-, rfl⟩
        exact hk (startsWith_append _ _)

/-- **Locality.**  An event shows nothing of the containers of other pods. -/
theorem observationsOf_other (hk : startsWith k p.keyPrefix = true) (hp : p.SlashFree)
    (hslash : ∀ q, podOf e.object = some q → q.SlashFree) (hne : podOf e.object ≠ some p) :
    observationsOf k e = [] :=
  observationsOf_eq_nil fun q hq hkq ↦
    hne (hq.trans (congrArg some (PodId.eq_of_startsWith (hslash q hq) hp hkq hk)))

end About

/-! ## Well-formed pods

The conditions under which the container statuses of a pod mean what they say. -/

/-- The pod is named without `/`. -/
def SlashFreePod (pod : Value) : Prop := SlashFree (podNamespace pod) ∧ SlashFree (podName pod)

instance (pod : Value) : Decidable (SlashFreePod pod) := inferInstanceAs (Decidable (_ ∧ _))

/-- The pod and all the containers it lists are named without `/`. -/
def SlashFreeNames (pod : Value) : Prop :=
  SlashFreePod pod ∧ ∀ cs ∈ containerStatuses pod, SlashFree (statusName cs)

instance (pod : Value) : Decidable (SlashFreeNames pod) := inferInstanceAs (Decidable (_ ∧ _))

/-- The names of the containers a pod lists. -/
def listedNames (pod : Value) : List String :=
  ((containerStatuses pod).map statusName).filter (· ≠ "")

/-- No container is listed twice. -/
def DistinctNames (pod : Value) : Prop := (listedNames pod).Nodup

instance (pod : Value) : Decidable (DistinctNames pod) := inferInstanceAs (Decidable (List.Nodup _))

/-- No status is both running and terminated. -/
def ExclusiveStates (pod : Value) : Prop :=
  ∀ cs ∈ containerStatuses pod, ¬(statusRunning cs = true ∧ (statusTerminated cs).isSome = true)

instance (pod : Value) : Decidable (ExclusiveStates pod) :=
  inferInstanceAs (Decidable (∀ _ ∈ _, _))

theorem SlashFreePod.podOf {pod : Value} (h : SlashFreePod pod) {p : PodId}
    (hp : podOf pod = some p) : p.SlashFree := podOf_slashFree hp h.1 h.2

/-- A pod that lists a container once shows one status of it. -/
theorem flatMap_statusObservation {statuses : List Value} {p : PodId} {now : Int} {cs : Value}
    (hcs : cs ∈ statuses) (hname : statusName cs ≠ "")
    (hnodup : ((statuses.map statusName).filter (· ≠ "")).Nodup) :
    statuses.flatMap (statusObservation (p.containerKey (statusName cs)) p.ns p.name now) =
      [.status p.ns p.name now cs] := by
  have hkey : ∀ cs', (podPrefix p.ns p.name ++ statusName cs' = p.containerKey (statusName cs)) ↔
      statusName cs' = statusName cs := fun cs' ↦ p.containerKey_inj
  induction statuses with
  | nil => simp at hcs
  | cons cs' statuses ih =>
      rw [List.flatMap_cons]
      rcases List.mem_cons.mp hcs with rfl | hmem
      · have hrest : ∀ x ∈ statuses, statusObservation (p.containerKey (statusName cs)) p.ns p.name
            now x = [] := by
          intro x hx
          rw [statusObservation, if_neg]
          rintro ⟨hx', hxk⟩
          rw [List.map_cons, List.filter_cons_of_pos (by simpa using hname)] at hnodup
          refine (List.nodup_cons.mp hnodup).1 (List.mem_filter.mpr ⟨?_, by simpa using hname⟩)
          exact (hkey x).mp hxk ▸ List.mem_map_of_mem hx
        rw [List.flatMap_eq_nil_iff.mpr hrest, statusObservation,
          if_pos ⟨hname, (hkey cs).mpr rfl⟩, List.append_nil]
      · have hne : statusName cs' ≠ "" → statusName cs' ≠ statusName cs := by
          intro hcs' heq
          rw [List.map_cons, List.filter_cons_of_pos (by simpa using hcs')] at hnodup
          refine (List.nodup_cons.mp hnodup).1 (List.mem_filter.mpr ⟨?_, by simpa using hcs'⟩)
          exact heq ▸ List.mem_map_of_mem hmem
        have htail : ((statuses.map statusName).filter (· ≠ "")).Nodup := by
          rw [List.map_cons] at hnodup
          exact hnodup.sublist ((List.sublist_cons_self _ _).filter _)
        rw [statusObservation, if_neg, List.nil_append, ih hmem htail]
        rintro ⟨hcs', hxk⟩
        exact hne hcs' ((hkey cs').mp hxk)

/-- A pod that does not list a container shows no status of it. -/
theorem flatMap_statusObservation_eq_nil {statuses : List Value} {k ns pod : String} {now : Int}
    (h : ∀ cs ∈ statuses, statusName cs ≠ "" → podPrefix ns pod ++ statusName cs ≠ k) :
    statuses.flatMap (statusObservation k ns pod now) = [] :=
  List.flatMap_eq_nil_iff.mpr fun cs hcs ↦ if_neg fun hk ↦ h cs hcs hk.1 hk.2

/-- The event shows the status `cs` of a container of the pod `p`. -/
def Shows (e : WatchEvent) (p : PodId) (cs : Value) : Prop :=
  podOf e.object = some p ∧ e.eventType ≠ "DELETED" ∧ cs ∈ containerStatuses e.object ∧
    statusName cs ≠ ""

/-- **What an event can show**: the deletion of a pod, or statuses of its containers. -/
theorem mem_observationsOf {k : String} {e : WatchEvent} {o : Observation}
    (h : o ∈ observationsOf k e) :
    (∃ p : PodId, o = .deleted p.ns p.name e.now) ∨
      ∃ p cs, Shows e p cs ∧ k = p.containerKey (statusName cs) ∧
        o = .status p.ns p.name e.now cs := by
  cases hp : podOf e.object with
  | none => rw [observationsOf_unnamed (podOf_eq_none.mp hp)] at h; simp at h
  | some p =>
      by_cases htype : e.eventType = "DELETED"
      · rw [observationsOf_pod_deleted hp htype] at h
        split at h
        · exact Or.inl ⟨p, List.mem_singleton.mp h⟩
        · simp at h
      · rw [observationsOf_pod_shown hp htype] at h
        obtain ⟨cs, hcs, ho⟩ := List.mem_flatMap.mp h
        unfold statusObservation at ho
        split at ho
        · rename_i hk
          exact Or.inr ⟨p, cs, ⟨hp, htype, hcs, hk.1⟩, hk.2.symm, List.mem_singleton.mp ho⟩
        · simp at ho

/-- What an event of a pod with distinct container names shows of a container it lists. -/
theorem Shows.observationsOf {e : WatchEvent} {p : PodId} {cs : Value} (h : Shows e p cs)
    (hdistinct : DistinctNames e.object) :
    observationsOf (p.containerKey (statusName cs)) e = [.status p.ns p.name e.now cs] := by
  rw [observationsOf_pod_shown h.1 h.2.1]
  exact flatMap_statusObservation h.2.2.1 h.2.2.2 hdistinct

/-- **What an event of a pod with distinct container names shows of a container**: nothing, the
deletion of its pod, or one status. -/
theorem observationsOf_cases {e : WatchEvent} (hdistinct : DistinctNames e.object) (k : String) :
    observationsOf k e = [] ∨
      (∃ p : PodId, observationsOf k e = [.deleted p.ns p.name e.now]) ∨
      ∃ p cs, Shows e p cs ∧ k = p.containerKey (statusName cs) ∧
        observationsOf k e = [.status p.ns p.name e.now cs] := by
  cases hp : podOf e.object with
  | none => exact Or.inl (observationsOf_unnamed (podOf_eq_none.mp hp))
  | some p =>
      by_cases htype : e.eventType = "DELETED"
      · rw [observationsOf_pod_deleted hp htype]
        split
        · exact Or.inr (Or.inl ⟨p, rfl⟩)
        · exact Or.inl rfl
      · by_cases hlisted : ∃ cs ∈ containerStatuses e.object,
            statusName cs ≠ "" ∧ p.containerKey (statusName cs) = k
        · obtain ⟨cs, hcs, hname, rfl⟩ := hlisted
          have hshows : Shows e p cs := ⟨hp, htype, hcs, hname⟩
          exact Or.inr (Or.inr ⟨p, cs, hshows, rfl, hshows.observationsOf hdistinct⟩)
        · refine Or.inl ?_
          rw [observationsOf_pod_shown hp htype]
          exact flatMap_statusObservation_eq_nil fun cs hcs hname hk ↦ hlisted ⟨cs, hcs, hname, hk⟩

end Swarmagent.Kubernetes
