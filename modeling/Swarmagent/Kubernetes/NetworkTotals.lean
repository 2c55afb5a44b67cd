import Swarmagent.Kubernetes.Summary
import Mathlib.Algebra.BigOperators.Group.List.Basic

/-!
# Network counters of pods

The kubelet counts network traffic by pod, not by container.  The counters of a pod are attributed
to its first container, so that sums over all containers stay correct.

They are attributed by position, and containers without a name are passed over.  So if the first
container of a pod has no name and another one has, the counters of the pod are lost.  That is all
that can happen (`conserved_iff`).

The kubelet counts each direction for the pod, and again by interface.  The interfaces are to make
up for a counter of the pod that is missing.  They take the place of both counters if one of them
is missing, and so of one that is present (`totals_iff`).
-/

namespace Swarmagent.Kubernetes

open Swarmagent.Rust

/-- `(rx, tx)` of a pod, 0 if it has no network section. -/
def PodSummary.networkTotals (pod : PodSummary) : UInt64 × UInt64 :=
  (pod.network.map NetworkSample.totals).getD (0, 0)

section Counters

variable {F : Type} [Arith F]

variable (F) in
/-- One of the two counters: what a status says of it, which of the totals of a pod it is, and that
it is attributed to the first container. -/
structure Counter where
  ofStatus : ContainerStatus F → UInt64
  ofTotals : UInt64 × UInt64 → UInt64
  attributed : ∀ pod podMeta capacityCores c idx,
    ofStatus (containerStatus pod podMeta capacityCores c idx) =
      if idx = 0 then ofTotals pod.networkTotals else 0

namespace Counter

def rx : Counter F where
  ofStatus e := e.networkRxBytes
  ofTotals totals := totals.1
  attributed _ _ _ _ idx := by cases idx <;> rfl

def tx : Counter F where
  ofStatus e := e.networkTxBytes
  ofTotals totals := totals.2
  attributed _ _ _ _ idx := by cases idx <;> rfl

/-- The sum over statuses, as a natural number. -/
def sum (counter : Counter F) (statuses : List (ContainerStatus F)) : ℕ :=
  (statuses.map fun e ↦ (counter.ofStatus e).toNat).sum

/-- The total of a pod. -/
def total (counter : Counter F) (pod : PodSummary) : ℕ := (counter.ofTotals pod.networkTotals).toNat

@[simp] theorem sum_nil (counter : Counter F) : counter.sum [] = 0 := rfl

@[simp] theorem sum_cons (counter : Counter F) (e : ContainerStatus F)
    (statuses : List (ContainerStatus F)) :
    counter.sum (e :: statuses) = (counter.ofStatus e).toNat + counter.sum statuses :=
  List.sum_cons

theorem sum_append (counter : Counter F) (l l' : List (ContainerStatus F)) :
    counter.sum (l ++ l') = counter.sum l + counter.sum l' := by
  rw [sum, List.map_append, List.sum_append]
  rfl

end Counter

/-- The pod has both names, and one of its containers has one. -/
def Reported (pod : PodSummary) : Prop :=
  pod.ns ≠ "" ∧ pod.name ≠ "" ∧ ∃ c ∈ pod.containers, c.name ≠ ""

instance (pod : PodSummary) : Decidable (Reported pod) := inferInstanceAs (Decidable (_ ∧ _ ∧ _))

/-- The first container of the pod has a name. -/
def FirstNamed (pod : PodSummary) : Prop := ∃ c ∈ pod.containers.head?, c.name ≠ ""

instance (pod : PodSummary) : Decidable (FirstNamed pod) :=
  inferInstanceAs (Decidable (∃ _ ∈ _, _))

section Sum

variable (counter : Counter F) (metas : Finmap fun _ : String ↦ PodMeta) (capacityCores : F)

/-- Behind the first container nothing is attributed. -/
theorem sum_behind_first (pod : PodSummary) (podMeta : Option PodMeta)
    (containers : List ContainerSample) (n : ℕ) :
    counter.sum ((containers.zipIdx (n + 1)).filterMap fun (c, idx) ↦
      if c.name = "" then none
      else some (containerStatus pod podMeta capacityCores c idx)) = 0 := by
  induction containers generalizing n with
  | nil => rfl
  | cons c containers ih =>
      rw [List.zipIdx_cons, List.filterMap_cons]
      have hstatus :
          counter.ofStatus (containerStatus pod podMeta capacityCores c (n + 1)) = 0 := by
        rw [counter.attributed, if_neg (Nat.succ_ne_zero n)]
      by_cases hc : c.name = ""
      · simp only [if_pos hc, ih]
      · simp only [if_neg hc, Counter.sum_cons, ih, hstatus]
        rfl

/-- What is attributed to the containers of a pod. -/
theorem sum_podStatuses (pod : PodSummary) :
    counter.sum (podStatuses metas capacityCores pod) =
      if Reported pod ∧ FirstNamed pod then counter.total pod else 0 := by
  unfold podStatuses
  split
  · next hpod =>
      rw [if_neg fun h ↦ hpod.elim h.1.1 h.1.2.1]
      rfl
  · next hpod =>
      obtain ⟨hns, hname⟩ := not_or.mp hpod
      cases hcontainers : pod.containers with
      | nil => simp [Reported, hcontainers]
      | cons c containers =>
          have hfirst : FirstNamed pod ↔ c.name ≠ "" := by simp [FirstNamed, hcontainers]
          simp only [List.zipIdx_cons, List.filterMap_cons]
          have hrest := sum_behind_first counter capacityCores pod
            (metas.lookup (pod.ns ++ "/" ++ pod.name)) containers 0
          by_cases hc : c.name = ""
          · have hlost : ¬(Reported pod ∧ FirstNamed pod) := fun h ↦ hfirst.mp h.2 hc
            simp only [if_pos hc, if_neg hlost]
            exact hrest
          · have hreported : Reported pod := ⟨hns, hname, c, by rw [hcontainers]; simp, hc⟩
            have hkept : Reported pod ∧ FirstNamed pod := ⟨hreported, hfirst.mpr hc⟩
            simp only [if_neg hc, if_pos hkept, Counter.sum_cons, counter.attributed, if_true]
            exact congrArg (counter.total pod + ·) hrest

end Sum

/-- The counter of each reported pod is the sum over its statuses, and so is the sum over all. -/
def Conserved (counter : Counter F) (summary : Summary) (metas : Finmap fun _ : String ↦ PodMeta)
    (capacityCores : F) : Prop :=
  (∀ pod ∈ summary.pods, Reported pod →
    counter.sum (podStatuses metas capacityCores pod) = counter.total pod) ∧
  counter.sum (summary.containerStatuses metas capacityCores) =
    ((summary.pods.filter fun pod ↦ Reported pod).map counter.total).sum

section Conserved

variable (counter : Counter F) (summary : Summary) (metas : Finmap fun _ : String ↦ PodMeta)
  (capacityCores : F)

/-- If the counters of the pods are conserved, so is their sum. -/
theorem sum_containerStatuses (pods : List PodSummary)
    (h : ∀ pod ∈ pods, Reported pod →
      counter.sum (podStatuses metas capacityCores pod) = counter.total pod) :
    counter.sum (pods.flatMap (podStatuses metas capacityCores)) =
      ((pods.filter fun pod ↦ Reported pod).map counter.total).sum := by
  induction pods with
  | nil => rfl
  | cons pod pods ih =>
      rw [List.flatMap_cons, Counter.sum_append,
        ih fun pod' hpod' ↦ h pod' (List.mem_cons_of_mem pod hpod')]
      by_cases hpod : Reported pod
      · rw [List.filter_cons_of_pos (by simpa using hpod), List.map_cons, List.sum_cons,
          h pod List.mem_cons_self hpod]
      · rw [List.filter_cons_of_neg (by simpa using hpod), sum_podStatuses,
          if_neg fun h ↦ hpod h.1, Nat.zero_add]

theorem counter_conserved_iff :
    Conserved counter summary metas capacityCores ↔
      ∀ pod ∈ summary.pods, Reported pod → FirstNamed pod ∨ counter.total pod = 0 := by
  constructor
  · rintro ⟨h, -⟩ pod hpod hreported
    by_contra hlost
    obtain ⟨hfirst, htotal⟩ := not_or.mp hlost
    have hsum := h pod hpod hreported
    rw [sum_podStatuses, if_neg fun h ↦ hfirst h.2] at hsum
    exact htotal hsum.symm
  · intro h
    have hpods : ∀ pod ∈ summary.pods, Reported pod →
        counter.sum (podStatuses metas capacityCores pod) = counter.total pod := by
      intro pod hpod hreported
      rw [sum_podStatuses]
      split
      · rfl
      · next hlost =>
          exact ((h pod hpod hreported).resolve_left fun hfirst ↦ hlost ⟨hreported, hfirst⟩).symm
    exact ⟨hpods, sum_containerStatuses counter metas capacityCores summary.pods hpods⟩

/-- **When network counters are conserved**: if in each pod that is reported, the first container
has a name, or nothing was counted. -/
theorem conserved_iff :
    Conserved .rx summary metas capacityCores ∧ Conserved .tx summary metas capacityCores ↔
      ∀ pod ∈ summary.pods, Reported pod → FirstNamed pod ∨ pod.networkTotals = (0, 0) := by
  rw [counter_conserved_iff, counter_conserved_iff, ← forall₂_and]
  refine forall₂_congr fun pod _ ↦ ?_
  have htotals : pod.networkTotals = (0, 0) ↔
      (Counter.rx : Counter F).total pod = 0 ∧ (Counter.tx : Counter F).total pod = 0 := by
    rw [Prod.ext_iff, ← UInt64.toNat_inj, ← UInt64.toNat_inj]
    rfl
  rw [htotals, or_and_left, ← imp_and]

/-- The traffic of this pod is lost, as its first container has no name. -/
theorem traffic_lost :
    let network : NetworkSample := { rxBytes := some 7, txBytes := some 5, interfaces := [] }
    let summary : Summary := { pods := [quietPod "prod" "web-1" ["", "web"] (some network)] }
    (∀ pod ∈ summary.pods, Reported pod ∧ (Counter.rx : Counter F64).total pod = 7) ∧
      Counter.rx.sum (summary.containerStatuses ∅ (1 : F64)) = 0 ∧
        ¬Conserved .rx summary ∅ (1 : F64) := by
  intro network summary
  refine ⟨by decide, ?_, ?_⟩
  · rw [Summary.containerStatuses, List.flatMap_singleton, sum_podStatuses]
    decide
  · rw [counter_conserved_iff]
    decide

end Conserved

end Counters

/-! ## Each direction by itself -/

namespace NetworkSample

/-- What the interfaces have counted in a direction. -/
def interfaceTotal (n : NetworkSample) (counter : InterfaceSample → Option UInt64) : ℕ :=
  cappedSum (fun i ↦ (counter i).getD 0) n.interfaces

/-- The counter of a direction, or what the interfaces have counted if it is missing. -/
def directionTotal (n : NetworkSample) (top : Option UInt64)
    (counter : InterfaceSample → Option UInt64) : ℕ :=
  match top with
  | some bytes => bytes.toNat
  | none => n.interfaceTotal counter

/-- If just one of the counters is present, the interfaces have counted the same. -/
def Agrees (n : NetworkSample) : Prop :=
  match n.rxBytes, n.txBytes with
  | some rx, none => rx.toNat = n.interfaceTotal fun i ↦ i.rxBytes
  | none, some tx => tx.toNat = n.interfaceTotal fun i ↦ i.txBytes
  | _, _ => True

/-- What the totals are when a counter is missing. -/
theorem toNat_totals_of_missing {n : NetworkSample} (h : n.rxBytes = none ∨ n.txBytes = none) :
    n.totals.1.toNat = n.interfaceTotal (fun i ↦ i.rxBytes) ∧
      n.totals.2.toNat = n.interfaceTotal (fun i ↦ i.txBytes) := by
  have htotals : n.totals =
      (n.interfaces.foldl (fun rx i ↦ saturatingAdd rx (i.rxBytes.getD 0)) 0,
        n.interfaces.foldl (fun tx i ↦ saturatingAdd tx (i.txBytes.getD 0)) 0) := by
    rw [← foldl_pair]
    unfold totals
    split
    · next rx tx hrx htx =>
        rcases h with h | h
        · cases hrx.symm.trans h
        · cases htx.symm.trans h
    · rfl
  rw [htotals]
  exact ⟨toNat_foldl_saturatingAdd _ _, toNat_foldl_saturatingAdd _ _⟩

/-- **When the totals are right in each direction**: if none or both of the counters are present, or
the interfaces have counted the same as the one that is. -/
theorem totals_iff (n : NetworkSample) :
    n.totals.1.toNat = n.directionTotal n.rxBytes (fun i ↦ i.rxBytes) ∧
        n.totals.2.toNat = n.directionTotal n.txBytes (fun i ↦ i.txBytes) ↔ n.Agrees := by
  obtain ⟨rxBytes, txBytes, interfaces⟩ := n
  cases rxBytes with
  | none =>
      obtain ⟨hrx, htx⟩ := toNat_totals_of_missing (n := ⟨none, txBytes, interfaces⟩) (Or.inl rfl)
      rw [hrx, htx]
      cases txBytes with
      | none => exact iff_of_true ⟨rfl, rfl⟩ trivial
      | some tx => exact (and_iff_right rfl).trans eq_comm
  | some rx =>
      cases txBytes with
      | none =>
          obtain ⟨hrx, htx⟩ :=
            toNat_totals_of_missing (n := ⟨some rx, none, interfaces⟩) (Or.inr rfl)
          rw [hrx, htx]
          exact (and_iff_left rfl).trans eq_comm
      | some tx => exact iff_of_true ⟨rfl, rfl⟩ trivial

/-- What the pod has received is discarded, as it is not known what it has sent. -/
theorem received_discarded :
    let n : NetworkSample := { rxBytes := some 7, txBytes := none, interfaces := [] }
    n.directionTotal n.rxBytes (fun i ↦ i.rxBytes) = 7 ∧ n.totals.1 = 0 ∧
      n.totals.1.toNat ≠ n.directionTotal n.rxBytes (fun i ↦ i.rxBytes) :=
  ⟨rfl, rfl, by decide⟩

end NetworkSample

end Swarmagent.Kubernetes
