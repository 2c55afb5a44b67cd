import Swarmagent.Kubernetes.Key
import Swarmagent.Kubernetes.Owner

/-!
# Metadata and samples

The samples of a container come from the Summary API, the workload and the memory limit of its pod
from the pod list.  The two are joined by the key `"{namespace}/{pod}"`, through the map that
`parsePodMetas` makes of the list.

That map decides four fields of a status and nothing else, and of the map only the entry of the pod
matters (`containerStatuses_metas`).  The entry is that of the last item about the pod
(`metadata_join`), as names have no `/` in them.
-/

namespace Swarmagent.Kubernetes

open Swarmagent.Json Swarmagent.Rust Machine

section Metadata

variable {F : Type} [Arith F]

/-! ## What metadata decides -/

/-- A status without what comes from the pod list. -/
def withoutMetadata (e : ContainerStatus F) : ContainerStatus F :=
  { e with workload := none, workloadKind := none, memoryLimit := 0, memoryPercentage := 0 }

/-- Two statuses differ in what comes from the pod list at most, and not even there if the maps say
the same of the pod. -/
def DifferInMetadata (metas metas' : Finmap fun _ : String ↦ PodMeta)
    (e e' : ContainerStatus F) : Prop :=
  withoutMetadata e = withoutMetadata e' ∧ ∀ ns pod, e.ns = some ns → e.pod = some pod →
    metas.lookup (ns ++ "/" ++ pod) = metas'.lookup (ns ++ "/" ++ pod) → e = e'

section Frame

variable (metas metas' : Finmap fun _ : String ↦ PodMeta) (capacityCores : F)

theorem podStatuses_metas (pod : PodSummary) :
    List.Forall₂ (DifferInMetadata metas metas') (podStatuses metas capacityCores pod)
      (podStatuses metas' capacityCores pod) := by
  unfold podStatuses
  split
  · exact .nil
  · refine List.rel_filterMap (R := (· = ·)) ?_ (List.forall₂_refl pod.containers.zipIdx)
    rintro ⟨c, idx⟩ _ rfl
    by_cases hname : c.name = ""
    · simp only [if_pos hname]
      exact .none
    · simp only [if_neg hname]
      refine .some ⟨rfl, ?_⟩
      rintro ns name ⟨⟩ ⟨⟩ hlookup
      rw [hlookup]

/-- **A frame for metadata.**  Under two maps, the statuses of a summary are as many and in the same
order, and differ in metadata only. -/
theorem containerStatuses_metas (summary : Summary) :
    (summary.containerStatuses metas capacityCores).length =
        (summary.containerStatuses metas' capacityCores).length ∧
      List.Forall₂ (DifferInMetadata metas metas') (summary.containerStatuses metas capacityCores)
        (summary.containerStatuses metas' capacityCores) := by
  have h : List.Forall₂ (DifferInMetadata metas metas')
      (summary.containerStatuses metas capacityCores)
      (summary.containerStatuses metas' capacityCores) := by
    refine List.rel_flatMap (R := (· = ·)) (List.forall₂_refl summary.pods) ?_
    rintro pod _ rfl
    exact podStatuses_metas metas metas' capacityCores pod
  exact ⟨h.length_eq, h⟩

end Frame

/-! ## What the pod list says -/

/-- The items of a list. -/
def listItems (podList : Value) : List Value := (arrayAt podList ["items"]).getD []

/-- The containers of a pod, as specified. -/
def specContainers (pod : Value) : List Value := (arrayAt pod ["spec", "containers"]).getD []

/-- The item has a namespace and a name, and they are these. -/
def About (ns name : String) (item : Value) : Prop :=
  ns ≠ "" ∧ name ≠ "" ∧ item.strAt ["metadata", "namespace"] = ns ∧
    item.strAt ["metadata", "name"] = name

/-- The container has the name and a memory limit of so many bytes. -/
def HasLimit (cname : String) (bytes : UInt64) (c : Value) : Prop :=
  c.strAt ["name"] = cname ∧ ∃ text,
    c.pointer ["resources", "limits", "memory"] = some (.string text) ∧
      parseQuantityBytes F64 text = some bytes

/-- The metadata of a status is what an item of the list says of its pod. -/
structure TakenFrom (item : Value) (e : ContainerStatus F) : Prop where
  /-- The workload is what the controlling owner stands for, if there is one and it has both
  names. -/
  workload : (∃ owner kind workload, FirstOwner (ownerReferences item) owner ∧
      owner.strAt ["kind"] ≠ "" ∧ owner.strAt ["name"] ≠ "" ∧ StandsFor owner kind workload ∧
      e.workloadKind = some kind ∧ e.workload = some workload) ∨
    (∀ owner, FirstOwner (ownerReferences item) owner →
      owner.strAt ["kind"] = "" ∨ owner.strAt ["name"] = "") ∧
      e.workloadKind = none ∧ e.workload = none
  /-- The limit is that of the last container of the name that has one. -/
  memoryLimit : (∃ c bytes,
      IsLast (fun c ↦ ∃ bytes, HasLimit e.name bytes c) c (specContainers item) ∧
      HasLimit e.name bytes c ∧ e.memoryLimit = bytes.toNat) ∨
    (∀ c ∈ specContainers item, ∀ bytes, ¬HasLimit e.name bytes c) ∧ e.memoryLimit = 0

/-! ### Keys of pods -/

/-- A key belongs to one pod, if the names of that one have no `/`. -/
theorem podKey_inj {ns name ns' name' : String} (hns : SlashFree ns) (hname : SlashFree name)
    (h : ns' ++ "/" ++ name' = ns ++ "/" ++ name) : ns' = ns ∧ name' = name := by
  have hlist := congrArg String.toList h
  simp only [String.toList_append, show "/".toList = ['/'] from rfl, List.append_assoc,
    List.singleton_append] at hlist
  have hns' : '/' ∉ ns'.toList := by
    have hcount := congrArg (List.count '/') hlist
    rw [List.count_append, List.count_append, List.count_cons_self, List.count_cons_self,
      List.count_eq_zero.mpr hns, List.count_eq_zero.mpr hname] at hcount
    exact List.count_eq_zero.mp (by omega)
  obtain ⟨hns, hname⟩ := append_cons_inj_of_first hns' hns hlist
  exact ⟨String.toList_inj.mp hns, String.toList_inj.mp hname⟩

section Keys

variable {ns name : String} {item : Value}

theorem podEntry_of_about (h : About ns name item) :
    podEntry item = some (ns ++ "/" ++ name, podMeta item) := by
  obtain ⟨hns, hname, rfl, rfl⟩ := h
  exact if_neg (by simp [hns, hname])

theorem gives_podEntry_iff (hns : SlashFree ns) (hname : SlashFree name) (hne : ns ≠ "")
    (hne' : name ≠ "") : Gives podEntry (ns ++ "/" ++ name) item ↔ About ns name item := by
  refine ⟨?_, fun h ↦ ⟨_, podEntry_of_about h⟩⟩
  rintro ⟨_, hentry⟩
  simp only [podEntry] at hentry
  split at hentry
  · cases hentry
  · have hkey := congrArg Prod.fst (Option.some.inj hentry)
    obtain ⟨h, h'⟩ := podKey_inj hns hname hkey
    exact ⟨hne, hne', h, h'⟩

end Keys

/-! ### Memory limits -/

theorem memLimit_eq_some_iff {cname : String} (hcname : cname ≠ "") {c : Value} {bytes : UInt64} :
    memLimit c = some (cname, bytes) ↔ HasLimit cname bytes c := by
  unfold memLimit HasLimit
  by_cases hname : c.strAt ["name"] = ""
  · simp only [if_pos hname]
    refine iff_of_false (by simp) fun h ↦ hcname (h.1.symm.trans hname)
  · simp only [if_neg hname, Option.map_eq_some_iff,
      Option.bind_eq_some_iff (f := parseQuantityBytes F64), Value.bind_asStr_eq_some_iff,
      Prod.mk.injEq]
    constructor
    · rintro ⟨_, ⟨text, hv, hparse⟩, rfl, rfl⟩
      exact ⟨rfl, text, hv, hparse⟩
    · rintro ⟨rfl, text, hv, hparse⟩
      exact ⟨bytes, ⟨text, hv, hparse⟩, rfl, rfl⟩

theorem gives_memLimit_iff {cname : String} (hcname : cname ≠ "") (c : Value) :
    Gives memLimit cname c ↔ ∃ bytes, HasLimit cname bytes c :=
  exists_congr fun _ ↦ memLimit_eq_some_iff hcname

/-- **The limit of a container**: that of the last container of the name that has one. -/
theorem lookup_memLimits_cases {cname : String} (hcname : cname ≠ "") (item : Value) :
    (∃ c bytes, IsLast (fun c ↦ ∃ bytes, HasLimit cname bytes c) c (specContainers item) ∧
        HasLimit cname bytes c ∧ (podMeta item).memLimits.lookup cname = some bytes) ∨
      (∀ c ∈ specContainers item, ∀ bytes, ¬HasLimit cname bytes c) ∧
        (podMeta item).memLimits.lookup cname = none := by
  by_cases hlimited : ∃ c ∈ specContainers item, ∃ bytes, HasLimit cname bytes c
  · obtain ⟨c, hlast⟩ := exists_isLast hlimited
    obtain ⟨bytes, hbytes⟩ := hlast.prop
    refine Or.inl ⟨c, bytes, hlast, hbytes, ?_⟩
    exact lookup_collect_of_isLast ((isLast_congr (gives_memLimit_iff hcname)).mpr hlast)
      ((memLimit_eq_some_iff hcname).mpr hbytes)
  · have hnone : ∀ c ∈ specContainers item, ∀ bytes, ¬HasLimit cname bytes c :=
      fun c hc bytes hbytes ↦ hlimited ⟨c, hc, bytes, hbytes⟩
    refine Or.inr ⟨hnone, lookup_collect_eq_none fun c hc hgives ↦ ?_⟩
    obtain ⟨bytes, hbytes⟩ := (gives_memLimit_iff hcname c).mp hgives
    exact hnone c hc bytes hbytes

/-- What a status takes from what is kept of a pod is what the pod says. -/
theorem takenFrom_podMeta (item : Value) (pod : PodSummary) (capacityCores : F)
    {c : ContainerSample} (hname : c.name ≠ "") (idx : ℕ) :
    TakenFrom item (containerStatus pod (some (podMeta item)) capacityCores c idx) where
  workload := by
    rcases podWorkload_cases item with
      ⟨owner, kind, workload, howner, hkind, hoName, hstands, hworkload⟩ | ⟨hnames, hworkload⟩
    · exact Or.inl ⟨owner, kind, workload, howner, hkind, hoName, hstands,
        by simp [containerStatus, podMeta, hworkload]⟩
    · exact Or.inr ⟨hnames, by simp [containerStatus, podMeta, hworkload]⟩
  memoryLimit := by
    have hlimit : (containerStatus pod (some (podMeta item)) capacityCores c idx).memoryLimit =
      (((podMeta item).memLimits.lookup c.name).getD 0).toNat := rfl
    rcases lookup_memLimits_cases hname item with
      ⟨c', bytes, hlast, hbytes, hlookup⟩ | ⟨hnone, hlookup⟩
    · refine Or.inl ⟨c', bytes, hlast, hbytes, ?_⟩
      rw [hlimit, hlookup, Option.getD_some]
    · refine Or.inr ⟨hnone, ?_⟩
      rw [hlimit, hlookup]
      exact Arith.natCast_zero

/-! ### The join -/

/-- The metadata of a status is that of the last item of the list about its pod, and there is none
if no item is about it. -/
def HasMetadataOf (podList : Value) (e : ContainerStatus F) : Prop :=
  ∃ ns name, e.ns = some ns ∧ e.pod = some name ∧
    ((∃ item, IsLast (About ns name) item (listItems podList) ∧ TakenFrom item e) ∨
      (∀ item ∈ listItems podList, ¬About ns name item) ∧
        e.workload = none ∧ e.workloadKind = none ∧ e.memoryLimit = 0)

/-- **The join of the two documents.**  Each status has the metadata of its pod in the list.  Items
about no pod or another one, wherever they stand in the list, make no difference to a pod. -/
theorem metadata_join (podList : Value) (summary : Summary) (capacityCores : F)
    (hslash : ∀ pod ∈ summary.pods, SlashFree pod.ns ∧ SlashFree pod.name) :
    (∀ e ∈ summary.containerStatuses (parsePodMetas podList) capacityCores,
      HasMetadataOf podList e) ∧
    ∀ podList' pre item post, listItems podList = pre ++ item :: post →
      listItems podList' = pre ++ post → ∀ pod ∈ summary.pods, ¬About pod.ns pod.name item →
        podStatuses (parsePodMetas podList) capacityCores pod =
          podStatuses (parsePodMetas podList') capacityCores pod := by
  constructor
  · intro e he
    obtain ⟨pod, hpod, he⟩ := List.mem_flatMap.mp he
    obtain ⟨⟨hns, hname⟩, c, idx, -, hc, rfl⟩ := mem_podStatuses_iff.mp he
    obtain ⟨hslash, hslash'⟩ := hslash pod hpod
    refine ⟨pod.ns, pod.name, rfl, rfl, ?_⟩
    by_cases hsome : ∃ item ∈ listItems podList, About pod.ns pod.name item
    · obtain ⟨item, hlast⟩ := exists_isLast hsome
      have hgives : IsLast (Gives podEntry (pod.ns ++ "/" ++ pod.name)) item (listItems podList) :=
        (isLast_congr fun _ ↦ gives_podEntry_iff hslash hslash' hns hname).mpr hlast
      have hlookup : (parsePodMetas podList).lookup (pod.ns ++ "/" ++ pod.name) = _ :=
        lookup_collect_of_isLast hgives (podEntry_of_about hlast.prop)
      rw [hlookup]
      exact Or.inl ⟨item, hlast, takenFrom_podMeta item pod capacityCores hc idx⟩
    · have hnone : ∀ item ∈ listItems podList, ¬About pod.ns pod.name item :=
        fun item hitem habout ↦ hsome ⟨item, hitem, habout⟩
      have hlookup : (parsePodMetas podList).lookup (pod.ns ++ "/" ++ pod.name) = none := by
        refine lookup_collect_eq_none fun item hitem hgives ↦ hnone item hitem ?_
        exact (gives_podEntry_iff hslash hslash' hns hname).mp hgives
      rw [hlookup]
      exact Or.inr ⟨hnone, rfl, rfl, Arith.natCast_zero⟩
  · intro podList' pre item post hlist hlist' pod hpod habout
    obtain ⟨hslash, hslash'⟩ := hslash pod hpod
    by_cases hnamed : pod.ns = "" ∨ pod.name = ""
    · rw [podStatuses, podStatuses, if_pos hnamed, if_pos hnamed]
    · obtain ⟨hns, hname⟩ := not_or.mp hnamed
      have hlookup : (parsePodMetas podList).lookup (pod.ns ++ "/" ++ pod.name) =
          (parsePodMetas podList').lookup (pod.ns ++ "/" ++ pod.name) := by
        show (collect podEntry (listItems podList)).lookup _ =
          (collect podEntry (listItems podList')).lookup _
        rw [hlist, hlist']
        exact lookup_collect_insert fun hgives ↦
          habout ((gives_podEntry_iff hslash hslash' hns hname).mp hgives)
      rw [podStatuses, podStatuses, hlookup]

end Metadata

/-- A pod of a ReplicaSet, with a container that has a memory limit. -/
def limitedPod (name owner limit : String) : Value :=
  .object [
    ("metadata", .object [("namespace", .string "prod"), ("name", .string name),
      ("ownerReferences", .array [.object [("kind", .string "ReplicaSet"),
        ("name", .string owner), ("controller", .bool true)]])]),
    ("spec", .object [("containers", .array [.object [("name", .string "web"),
      ("resources", .object [("limits", .object [("memory", .string limit)])])]])])]

/-- A list of pods. -/
def podListOf (items : List Value) : Value := .object [("items", .array items)]

/-- An older item about the pod, one about another pod, and then the one that counts. -/
theorem metadata_join_web :
    let older := limitedPod "web-1" "old-5d2a" "64Mi"
    let other := limitedPod "db-0" "db-1b3c" "1Gi"
    let last := limitedPod "web-1" "web-7f9c" "256Mi"
    let summary : Summary := { pods := [quietPod "prod" "web-1" ["web"] none] }
    (∀ e ∈ summary.containerStatuses (parsePodMetas (podListOf [older, other, last])) (1 : F64),
        HasMetadataOf (podListOf [older, other, last]) e) ∧
      podStatuses (parsePodMetas (podListOf [older, other, last])) (1 : F64)
          (quietPod "prod" "web-1" ["web"] none) =
        podStatuses (parsePodMetas (podListOf [older, last])) 1
          (quietPod "prod" "web-1" ["web"] none) := by
  have hjoin := metadata_join (podListOf [limitedPod "web-1" "old-5d2a" "64Mi",
    limitedPod "db-0" "db-1b3c" "1Gi", limitedPod "web-1" "web-7f9c" "256Mi"])
    { pods := [quietPod "prod" "web-1" ["web"] none] } (1 : F64) (by decide)
  refine ⟨hjoin.1, hjoin.2 _ [_] _ [_] rfl rfl _ List.mem_cons_self ?_⟩
  -- the other pod has another name
  exact fun h ↦ absurd h.2.2.2 (by decide)

end Swarmagent.Kubernetes
