import Swarmagent.Models
import Swarmagent.Rust.Int
import Mathlib.Data.Finmap

/-!
# The kubelet Summary API

The mapping of `/stats/summary` to the agent's own models: the types of `summary.rs` and the model
of `container_statuses`.

Unlike Docker, the kubelet does not hand out CPU counters but the usage itself, in billionths of a
core (`usageNanoCores`).
-/

namespace Swarmagent.Kubernetes

open Swarmagent.Rust

/-! ## Samples -/

structure CpuSample where
  usageNanoCores : Option UInt64

structure MemorySample where
  /-- What is left before memory runs short, reported of the node only. -/
  availableBytes : Option UInt64
  workingSetBytes : Option UInt64

structure FsSample where
  capacityBytes : Option UInt64
  usedBytes : Option UInt64
  availableBytes : Option UInt64

/-- The samples of the whole node. -/
structure NodeSummary where
  cpu : Option CpuSample := none
  memory : Option MemorySample := none
  fs : Option FsSample := none

structure ContainerSample where
  name : String
  cpu : Option CpuSample
  memory : Option MemorySample

structure InterfaceSample where
  rxBytes : Option UInt64
  txBytes : Option UInt64

/-- Pod network counters.  The interfaces are a fallback. -/
structure NetworkSample where
  rxBytes : Option UInt64
  txBytes : Option UInt64
  interfaces : List InterfaceSample

/-- The identity of a pod. -/
structure Summary.PodRef where
  name : String
  ns : String

structure PodSummary extends Summary.PodRef where
  containers : List ContainerSample
  network : Option NetworkSample

structure Summary where
  node : NodeSummary := {}
  pods : List PodSummary

/-- A pod of which nothing is sampled but the network. -/
def quietPod (ns name : String) (containers : List String) (network : Option NetworkSample) :
    PodSummary where
  name := name
  ns := ns
  containers := containers.map fun c ↦ { name := c, cpu := none, memory := none }
  network := network

/-- What the pod list tells about a pod. -/
structure PodMeta where
  workload : Option String
  workloadKind : Option String
  /-- Memory limits in bytes, by container name. -/
  memLimits : Finmap fun _ : String ↦ UInt64

/-! ## Container statuses -/

/-- `(rx, tx)`: the counters of the pod if it has both, or else the sums over its interfaces. -/
def NetworkSample.totals (n : NetworkSample) : UInt64 × UInt64 :=
  match n.rxBytes, n.txBytes with
  | some rx, some tx => (rx, tx)
  | _, _ => n.interfaces.foldl
      (fun (rx, tx) i ↦
        (saturatingAdd rx (i.rxBytes.getD 0), saturatingAdd tx (i.txBytes.getD 0))) (0, 0)

section Statuses

variable {F : Type} [Arith F]

/-- A percentage, 0 when the denominator is 0. -/
def pct (used total : F) : F := if total > 0 then used / total * 100 else 0

/-- The status of a container, the `idx`-th of its pod. -/
def containerStatus (pod : PodSummary) (podMeta : Option PodMeta) (capacityCores : F)
    (c : ContainerSample) (idx : ℕ) : ContainerStatus F :=
  let usageNano := (c.cpu.bind fun s ↦ s.usageNanoCores).getD 0
  let workingSet : F := ((c.memory.bind fun m ↦ m.workingSetBytes).getD 0).toNat
  let limit : F := ((podMeta.bind fun m ↦ m.memLimits.lookup c.name).getD 0).toNat
  let podTotals := (pod.network.map NetworkSample.totals).getD (0, 0)
  -- the counters of the pod are attributed to its first container
  let totals := if idx = 0 then podTotals else (0, 0)
  { name := c.name
    id := pod.ns ++ "/" ++ pod.name ++ "/" ++ c.name
    ns := some pod.ns
    pod := some pod.name
    workload := podMeta.bind fun m ↦ m.workload
    workloadKind := podMeta.bind fun m ↦ m.workloadKind
    cpuPercentage := pct usageNano.toNat (capacityCores * Arith.ofRat (10 ^ 9))
    memory := workingSet
    memoryLimit := limit
    memoryPercentage := pct workingSet limit
    networkRxBytes := totals.1
    networkTxBytes := totals.2
    blockReadBytes := 0
    blockWriteBytes := 0
    pids := 0 }

/-- The statuses of the containers of a pod. -/
def podStatuses (metas : Finmap fun _ : String ↦ PodMeta) (capacityCores : F)
    (pod : PodSummary) : List (ContainerStatus F) :=
  if pod.ns = "" ∨ pod.name = "" then []
  else
    let podMeta := metas.lookup (pod.ns ++ "/" ++ pod.name)
    pod.containers.zipIdx.filterMap fun (c, idx) ↦
      if c.name = "" then none else some (containerStatus pod podMeta capacityCores c idx)

/-- `container_statuses`: maps per-pod container samples to statuses. -/
def Summary.containerStatuses (summary : Summary) (metas : Finmap fun _ : String ↦ PodMeta)
    (capacityCores : F) : List (ContainerStatus F) :=
  summary.pods.flatMap (podStatuses metas capacityCores)

/-- The statuses of a pod are those of its named containers, if it is named itself. -/
theorem mem_podStatuses_iff {metas : Finmap fun _ : String ↦ PodMeta} {capacityCores : F}
    {pod : PodSummary} {e : ContainerStatus F} :
    e ∈ podStatuses metas capacityCores pod ↔ (pod.ns ≠ "" ∧ pod.name ≠ "") ∧
      ∃ c idx, (c, idx) ∈ pod.containers.zipIdx ∧ c.name ≠ "" ∧
        e = containerStatus pod (metas.lookup (pod.ns ++ "/" ++ pod.name)) capacityCores c idx := by
  unfold podStatuses
  split
  · next hpod => exact iff_of_false List.not_mem_nil fun h ↦ hpod.elim h.1.1 h.1.2
  · next hpod =>
      rw [and_iff_right (not_or.mp hpod), List.mem_filterMap]
      constructor
      · rintro ⟨⟨c, idx⟩, hmem, hstatus⟩
        simp only at hstatus
        split at hstatus
        · cases hstatus
        · next hname => exact ⟨c, idx, hmem, hname, (Option.some.inj hstatus).symm⟩
      · rintro ⟨c, idx, hmem, hname, rfl⟩
        exact ⟨(c, idx), hmem, if_neg hname⟩

/-- Each status is that of a container of the summary. -/
theorem exists_of_mem_containerStatuses {summary : Summary}
    {metas : Finmap fun _ : String ↦ PodMeta} {capacityCores : F} {e : ContainerStatus F}
    (he : e ∈ summary.containerStatuses metas capacityCores) :
    ∃ pod ∈ summary.pods, ∃ c ∈ pod.containers, ∃ podMeta idx,
      e = containerStatus pod podMeta capacityCores c idx := by
  obtain ⟨pod, hpod, he⟩ := List.mem_flatMap.mp he
  obtain ⟨-, c, idx, hmem, -, rfl⟩ := mem_podStatuses_iff.mp he
  exact ⟨pod, hpod, c, List.fst_mem_of_mem_zipIdx hmem, _, idx, rfl⟩

end Statuses

end Swarmagent.Kubernetes
