import Swarmagent.Kubernetes.Pods

/-!
# The owner of a pod

A Deployment runs its pods through ReplicaSets, which it names after itself and a hash of the pod
template, `<deployment>-<pod-template-hash>`.  The agent shows the Deployment, and any other owner
as it is.

The owner that counts is the first one marked as the controller, or the first of all if none is
(`controllerOwner_eq_some_iff`).  Taking the hash off a name undoes putting it there, as a hash has
no dash in it, whatever the Deployment has (`workloadFromOwner_eq_iff`).
-/

namespace Swarmagent.Kubernetes

open Swarmagent.Json Swarmagent.Rust Machine

/-! ## The owner -/

/-- The owners of a pod. -/
def ownerReferences (pod : Value) : List Value :=
  (arrayAt pod ["metadata", "ownerReferences"]).getD []

/-- Marked `controller: true`. -/
def IsController (o : Value) : Prop := o.get "controller" = some (.bool true)

/-- The first owner that is marked, or the first of all if none is. -/
def FirstOwner (owners : List Value) (owner : Value) : Prop :=
  (∃ pre post, owners = pre ++ owner :: post ∧ IsController owner ∧ ∀ o ∈ pre, ¬IsController o) ∨
    owners.head? = some owner ∧ ∀ o ∈ owners, ¬IsController o

section Owners

variable {owners : List Value} {pod owner : Value}

theorem find?_isController_eq_some_iff :
    (owners.find? fun o ↦ (o.get "controller").bind Value.asBool = some true) = some owner ↔
      ∃ pre post, owners = pre ++ owner :: post ∧ IsController owner ∧
        ∀ o ∈ pre, ¬IsController o := by
  simp only [List.find?_eq_some_iff_append, Value.bind_asBool_eq_some_iff, decide_eq_true_eq,
    Bool.not_eq_true', decide_eq_false_iff_not]
  constructor
  · rintro ⟨hctrl, pre, post, hlist, hpre⟩
    exact ⟨pre, post, hlist, hctrl, hpre⟩
  · rintro ⟨pre, post, hlist, hctrl, hpre⟩
    exact ⟨hctrl, pre, post, hlist, hpre⟩

theorem find?_isController_eq_none_iff :
    (owners.find? fun o ↦ (o.get "controller").bind Value.asBool = some true) = none ↔
      ∀ o ∈ owners, ¬IsController o := by
  simp only [List.find?_eq_none, Value.bind_asBool_eq_some_iff, decide_eq_true_eq]
  rfl

/-- **The owner that counts.** -/
theorem controllerOwner_eq_some_iff :
    controllerOwner pod = some owner ↔ FirstOwner (ownerReferences pod) owner := by
  unfold controllerOwner ownerReferences FirstOwner
  cases arrayAt pod ["metadata", "ownerReferences"] with
  | none => simp
  | some owners =>
      rw [Option.bind_some, Option.getD_some, ← find?_isController_eq_some_iff,
        ← find?_isController_eq_none_iff]
      cases owners.find? fun o ↦ (o.get "controller").bind Value.asBool = some true with
      | none => simp
      | some o => simp

/-- There is one owner that counts. -/
theorem FirstOwner.eq {owner' : Value} (h : FirstOwner (ownerReferences pod) owner)
    (h' : FirstOwner (ownerReferences pod) owner') : owner = owner' :=
  Option.some.inj ((controllerOwner_eq_some_iff.mpr h).symm.trans
    (controllerOwner_eq_some_iff.mpr h'))

end Owners

/-! ## The name -/

/-- The owner is a ReplicaSet of the Deployment: its name is that of the Deployment, a dash and a
hash, which has no dash. -/
def ReplicaSetOf (d : String) (owner : Value) : Prop :=
  d ≠ "" ∧ owner.strAt ["kind"] = "ReplicaSet" ∧
    ∃ h : String, '-' ∉ h.toList ∧ owner.strAt ["name"] = d ++ "-" ++ h

/-- The workload that the owner stands for: the Deployment, if it is a ReplicaSet of one, or else
the owner itself. -/
def StandsFor (owner : Value) (kind workload : String) : Prop :=
  (∃ d, ReplicaSetOf d owner ∧ kind = "Deployment" ∧ workload = d) ∨
    (∀ d, ¬ReplicaSetOf d owner) ∧ kind = owner.strAt ["kind"] ∧ workload = owner.strAt ["name"]

section Name

variable {d : String} {owner : Value}

theorem ReplicaSetOf.names (h : ReplicaSetOf d owner) :
    owner.strAt ["kind"] ≠ "" ∧ owner.strAt ["name"] ≠ "" := by
  obtain ⟨hd, hkind, hash, -, hname⟩ := h
  rw [hkind, hname]
  exact ⟨by decide, by simp⟩

theorem workloadFromOwner_of_replicaSetOf (h : ReplicaSetOf d owner) :
    workloadFromOwner (owner.strAt ["kind"]) (owner.strAt ["name"]) = ("Deployment", d) := by
  obtain ⟨hd, hkind, hash, hdash, hname⟩ := h
  have hsplit : rsplitOnce (d ++ "-" ++ hash) '-' = some (d, hash) := by
    refine rsplitOnce_of_last ?_ hdash
    rw [String.toList_append, String.toList_append, List.append_assoc]
    rfl
  rw [hkind, hname, workloadFromOwner, if_pos rfl, hsplit]
  exact if_neg hd

theorem workloadFromOwner_of_not (h : ∀ d, ¬ReplicaSetOf d owner) :
    workloadFromOwner (owner.strAt ["kind"]) (owner.strAt ["name"]) =
      (owner.strAt ["kind"], owner.strAt ["name"]) := by
  unfold workloadFromOwner
  split
  · next hkind =>
      split
      · next pre hash hsplit =>
          obtain ⟨hname, hdash⟩ := rsplitOnce_eq_some_iff.mp hsplit
          refine if_pos (by_contra fun hpre ↦ h pre ⟨hpre, hkind, hash, hdash, ?_⟩)
          apply String.toList_inj.mp
          rw [hname, String.toList_append, String.toList_append, List.append_assoc]
          rfl
      · rfl
  · rfl

/-- **What an owner stands for.** -/
theorem workloadFromOwner_eq_iff {kind workload : String} :
    workloadFromOwner (owner.strAt ["kind"]) (owner.strAt ["name"]) = (kind, workload) ↔
      StandsFor owner kind workload := by
  by_cases h : ∃ d, ReplicaSetOf d owner
  · obtain ⟨d, hd⟩ := h
    rw [workloadFromOwner_of_replicaSetOf hd, Prod.mk.injEq]
    constructor
    · rintro ⟨rfl, rfl⟩
      exact Or.inl ⟨_, hd, rfl, rfl⟩
    · rintro (⟨d', hd', rfl, rfl⟩ | ⟨hnot, -⟩)
      · have h' := workloadFromOwner_of_replicaSetOf hd'
        rw [workloadFromOwner_of_replicaSetOf hd] at h'
        exact ⟨rfl, congrArg Prod.snd h'⟩
      · exact absurd hd (hnot d)
  · have hnot : ∀ d, ¬ReplicaSetOf d owner := not_exists.mp h
    rw [workloadFromOwner_of_not hnot, Prod.mk.injEq]
    constructor
    · rintro ⟨rfl, rfl⟩
      exact Or.inr ⟨hnot, rfl, rfl⟩
    · rintro (⟨d, hd, -⟩ | ⟨-, rfl, rfl⟩)
      · exact absurd hd (hnot d)
      · exact ⟨rfl, rfl⟩

/-- An owner stands for one workload. -/
theorem StandsFor.eq {kind kind' workload workload' : String} (h : StandsFor owner kind workload)
    (h' : StandsFor owner kind' workload') : kind = kind' ∧ workload = workload' :=
  Prod.mk.inj ((workloadFromOwner_eq_iff.mpr h).symm.trans (workloadFromOwner_eq_iff.mpr h'))

end Name

/-! ## The workload -/

/-- **The workload of a pod**: it has one if its owner has both names. -/
theorem podWorkload_cases (item : Value) :
    (∃ owner kind workload, FirstOwner (ownerReferences item) owner ∧
        owner.strAt ["kind"] ≠ "" ∧ owner.strAt ["name"] ≠ "" ∧
        StandsFor owner kind workload ∧ podWorkload item = some (kind, workload)) ∨
      (∀ owner, FirstOwner (ownerReferences item) owner →
        owner.strAt ["kind"] = "" ∨ owner.strAt ["name"] = "") ∧ podWorkload item = none := by
  simp only [← controllerOwner_eq_some_iff]
  unfold podWorkload
  cases controllerOwner item with
  | none =>
      refine Or.inr ⟨?_, rfl⟩
      rintro _ ⟨⟩
  | some owner =>
      by_cases hnames : owner.strAt ["kind"] = "" ∨ owner.strAt ["name"] = ""
      · refine Or.inr ⟨?_, if_pos hnames⟩
        rintro _ ⟨⟩
        exact hnames
      · obtain ⟨hkind, hname⟩ := not_or.mp hnames
        exact Or.inl ⟨owner, _, _, rfl, hkind, hname, workloadFromOwner_eq_iff.mp rfl,
          if_neg hnames⟩

end Swarmagent.Kubernetes
