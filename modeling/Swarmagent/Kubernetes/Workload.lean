import Swarmagent.Kubernetes.MetadataJoin

/-!
# The workload of a pod

A pod is reported under the workload that its owner stands for, so that the pods of one Deployment
are reported under one workload, and those of different ones under different ones
(`workload_recovery`).
-/

namespace Swarmagent.Kubernetes

open Swarmagent.Json Swarmagent.Rust Machine

/-! ## The report -/

/-- The item has a namespace and a name, and no later item of the list has the same key. -/
def Listed (podList item : Value) : Prop :=
  ∃ ns name, About ns name item ∧
    IsLast (Gives podEntry (ns ++ "/" ++ name)) item (listItems podList)

/-- In a list that has each key once, as a list of pods does, any item with both names will do. -/
theorem listed_of_nodup {podList item : Value} {ns name : String}
    (hkeys : (((listItems podList).filterMap podEntry).map Prod.fst).Nodup)
    (hitem : item ∈ listItems podList) (habout : About ns name item) : Listed podList item := by
  obtain ⟨pre, post, hlist⟩ := List.append_of_mem hitem
  have hentry : podEntry item = some (ns ++ "/" ++ name, podMeta item) := podEntry_of_about habout
  refine ⟨ns, name, habout, pre, post, hlist, ⟨_, hentry⟩, ?_⟩
  rintro later hlater ⟨m, hm⟩
  rw [hlist, List.filterMap_append, List.filterMap_cons_some hentry, List.map_append,
    List.map_cons] at hkeys
  refine (List.nodup_cons.mp (List.nodup_append.mp hkeys).2.1).1 ?_
  exact List.mem_map.mpr ⟨_, List.mem_filterMap.mpr ⟨later, hlater, hm⟩, rfl⟩

/-- Under the key of the item, the map has the workload. -/
def HasWorkload (metas : Finmap fun _ : String ↦ PodMeta) (item : Value) (kind workload : String) :
    Prop :=
  ∃ ns name m, About ns name item ∧ metas.lookup (ns ++ "/" ++ name) = some m ∧
    m.workloadKind = some kind ∧ m.workload = some workload

section Report

variable {podList item owner : Value} {metas : Finmap fun _ : String ↦ PodMeta}
  {kind kind' workload workload' : String}

theorem HasWorkload.eq (h : HasWorkload metas item kind workload)
    (h' : HasWorkload metas item kind' workload') : workload = workload' := by
  obtain ⟨_, _, m, ⟨-, -, rfl, rfl⟩, hm, -, hworkload⟩ := h
  obtain ⟨_, _, m', ⟨-, -, rfl, rfl⟩, hm', -, hworkload'⟩ := h'
  obtain rfl := Option.some.inj (hm.symm.trans hm')
  exact Option.some.inj (hworkload.symm.trans hworkload')

/-- What the map says of an item is what its owner stands for. -/
theorem hasWorkload_of_standsFor (hitem : Listed podList item)
    (howner : FirstOwner (ownerReferences item) owner) (hkind : owner.strAt ["kind"] ≠ "")
    (hname : owner.strAt ["name"] ≠ "") (hstands : StandsFor owner kind workload) :
    HasWorkload (parsePodMetas podList) item kind workload := by
  obtain ⟨ns, name, habout, hlast⟩ := hitem
  refine ⟨ns, name, podMeta item, habout,
    lookup_collect_of_isLast hlast (podEntry_of_about habout), ?_⟩
  rcases podWorkload_cases item with
    ⟨owner', kind', workload', howner', -, -, hstands', hworkload⟩ | ⟨hnames, -⟩
  · obtain rfl := howner.eq howner'
    obtain ⟨rfl, rfl⟩ := hstands.eq hstands'
    simp [podMeta, hworkload]
  · exact absurd (hnames owner howner) (not_or.mpr ⟨hkind, hname⟩)

theorem hasWorkload_of_replicaSetOf {d : String} (hitem : Listed podList item)
    (howner : FirstOwner (ownerReferences item) owner) (h : ReplicaSetOf d owner) :
    HasWorkload (parsePodMetas podList) item "Deployment" d :=
  hasWorkload_of_standsFor hitem howner h.names.1 h.names.2 (Or.inl ⟨d, h, rfl, rfl⟩)

/-- **Workload recovery.**  A pod of a ReplicaSet of a Deployment is reported under the Deployment,
a pod of any other owner under that owner.  So the pods of one Deployment are reported under one
workload, and those of different ones under different ones. -/
theorem workload_recovery (hitem : Listed podList item)
    (howner : FirstOwner (ownerReferences item) owner) :
    (∀ d, ReplicaSetOf d owner → HasWorkload (parsePodMetas podList) item "Deployment" d) ∧
    ((∀ d, ¬ReplicaSetOf d owner) → owner.strAt ["kind"] ≠ "" → owner.strAt ["name"] ≠ "" →
      HasWorkload (parsePodMetas podList) item (owner.strAt ["kind"]) (owner.strAt ["name"])) ∧
    ∀ podList' item' owner' d d' kind kind' workload workload', Listed podList' item' →
      FirstOwner (ownerReferences item') owner' → ReplicaSetOf d owner → ReplicaSetOf d' owner' →
      HasWorkload (parsePodMetas podList) item kind workload →
      HasWorkload (parsePodMetas podList') item' kind' workload' →
        (workload = workload' ↔ d = d') := by
  refine ⟨fun d h ↦ hasWorkload_of_replicaSetOf hitem howner h,
    fun h hkind hname ↦
      hasWorkload_of_standsFor hitem howner hkind hname (Or.inr ⟨h, rfl, rfl⟩), ?_⟩
  intro podList' item' owner' d d' kind kind' workload workload' hitem' howner' h h' hw hw'
  rw [hw.eq (hasWorkload_of_replicaSetOf hitem howner h),
    hw'.eq (hasWorkload_of_replicaSetOf hitem' howner' h')]

end Report

/-- A pod in the namespace `prod` with the owners. -/
def ownedPod (name : String) (owners : List Value) : Value :=
  .object [("metadata", .object [("namespace", .string "prod"), ("name", .string name),
    ("ownerReferences", .array owners)])]

/-- A reference to an owner. -/
def ownerReference (kind name : String) (controller : Value) : Value :=
  .object [("kind", .string kind), ("name", .string name), ("controller", controller)]

theorem workload_recovery_myApp :
    let owner := ownerReference "ReplicaSet" "my-app-7f9c" (.bool true)
    let pod := ownedPod "my-app-7f9c-x2b" [ownerReference "Node" "n1" (.string "true"), owner]
    let podList : Value := .object [("items", .array [ownedPod "job-1" [], pod])]
    HasWorkload (parsePodMetas podList) pod "Deployment" "my-app" := by
  intro owner pod podList
  have hlisted : Listed podList pod := by
    have habout : About "prod" "my-app-7f9c-x2b" pod := ⟨by decide, by decide, rfl, rfl⟩
    exact listed_of_nodup (by decide) (List.mem_cons_of_mem _ List.mem_cons_self) habout
  have howner : FirstOwner (ownerReferences pod) owner := by
    refine Or.inl ⟨[ownerReference "Node" "n1" (.string "true")], [], rfl, rfl, ?_⟩
    rintro o ho h
    obtain rfl := List.mem_singleton.mp ho
    cases h
  exact (workload_recovery hlisted howner).1 "my-app" ⟨by decide, rfl, "7f9c", by decide, rfl⟩

end Swarmagent.Kubernetes
