import Swarmagent.Docker.Collect
import Swarmagent.Docker.EventStream
import Swarmagent.Kubernetes.Client
import Swarmagent.Kubernetes.Watch
import Swarmagent.Payload

/-!
# Providers

A provider is what the rest of the agent sees of an orchestrator: snapshots of the node, and a
source of events.  This file makes one of each of the two orchestrators, and shows what may be
relied on whichever it is.

* A snapshot names the provider it comes from, and its payload can be read back if its figures are
  finite (`Sound`).  They are unless `sysinfo` says otherwise, or the capacity of a node is next to
  nothing (`sound_providers`).
* A container has the same members in every payload of a provider, but for its workload, which
  only some containers on Kubernetes have (`keys_of_containers`).
* Its figures fit together (`consistent_containers`).

## What is left open

A snapshot may be any that the orchestrator's answers can lead to, so a provider has a set of them.
-/

namespace Swarmagent

open Json Rust Kubernetes Docker

/-- `Provider`, where `μ` are the messages that it posts as events. -/
structure Provider (σ ι μ η : Type) where
  orchestrator : String
  /-- What `status` may return. -/
  status : Except η Status → Prop
  /-- What `run_events` begins with. -/
  start : σ
  /-- What it makes of what it reads. -/
  read : σ → ι → σ × List μ
  /-- How a message is written. -/
  toValue : μ → Value

/-- What `drain_stream` posts for an item of the stream, which is a message or an error. -/
def Docker.readItem {ε μ : Type} (_ : Unit) : Except ε μ → Unit × List μ
  | .ok msg => ((), [msg])
  | .error _ => ((), [])

/-- `DockerProvider`. -/
def dockerProvider (ε ε' : Type) {μ : Type} (instantOf : String → Option Int) (cfg : Config)
    (toValue : μ → Value) : Provider Unit (Except ε' μ) μ String where
  orchestrator := "swarm"
  status r := ∃ (docker : Engine ε) (host : Host.Platform String),
    Collects instantOf docker cfg host r
  start := ()
  read := readItem
  toValue := toValue

/-- `KubernetesProvider`. -/
def kubernetesProvider (timestampOf : String → Option Int) (provider : KubernetesProvider String) :
    Provider WatchState WatchCall AgentEvent (StatusError String) where
  orchestrator := "kubernetes"
  status r := ∃ client, KubernetesProvider.status { provider with client := client } = r
  start := ∅
  read := watchStep timestampOf
  toValue := AgentEvent.toValue

/-! ## Snapshots -/

/-- The snapshot says which provider has made it, and can be read back if its figures are finite. -/
structure Status.Sound (orchestrator : String) (s : Status) : Prop where
  readable : Status.ofValue s.toValue = some s ↔ AllFinite s.figures
  orchestrator : s.orchestrator = orchestrator
  agentVersion : s.agentVersion = packageVersion

theorem readable_iff {s : Status} (h : s.cpu.InRange) :
    Status.ofValue s.toValue = some s ↔ AllFinite s.figures := by
  rw [Status.ofValue_toValue h]
  split
  · next hfinite => exact iff_of_true rfl hfinite
  · next hfinite => exact iff_of_false (Option.some_ne_none s).symm hfinite

/-- Every snapshot of the provider is sound. -/
def Provider.Sound {σ ι μ η : Type} (p : Provider σ ι μ η) : Prop :=
  ∀ s, p.status (.ok s) → s.Sound p.orchestrator

section Docker

variable {ε ε' μ π : Type} [DecidableEq π] {instantOf : String → Option Int} {cfg : Config}
variable {docker : Engine ε} {host : Host.Platform π} {s : Status}

/-- What is collected is a status with some tasks. -/
theorem exists_head_of_collects (h : Collects instantOf docker cfg host (.ok s)) :
    ∃ head tasks, collectHead docker host = .ok head ∧ s = { head.status with tasks } ∧
      ∀ c ∈ tasks, ∃ n id, c = containerStatsOne instantOf (docker.stats n) id head.osType := by
  cases h with
  | @collected head pool hhead hreach hfinished =>
      refine ⟨head, pool.collected, hhead, rfl, fun c hc ↦ ?_⟩
      obtain ⟨⟨id, r⟩, hmem, hr⟩ := List.mem_filterMap.mp hc
      obtain rfl : r = some c := hr
      obtain ⟨n, -, hn⟩ := (hfinished.covers hreach).outcome _ hmem
      exact ⟨n, id, hn⟩

/-- What is known of the daemon. -/
theorem status_of_collectHead {head : Head} (h : collectHead docker host = .ok head) :
    head.status.orchestrator = "swarm" ∧ head.status.agentVersion = packageVersion ∧
      head.status.cpu.InRange := by
  rw [collectHead] at h
  obtain ⟨⟨info, ver⟩, -, h⟩ := bind_eq_ok_iff.mp h
  cases h
  exact ⟨rfl, rfl, Int32.minValue_le_toInt _, Int32.toInt_lt _⟩

theorem host_of_collectHead {head : Head} (h : collectHead docker host = .ok head) :
    head.status.disk = Host.diskUsage host.path host.windows host.disks ∧
      head.status.memory = Host.memoryUsage host.sys := by
  rw [collectHead] at h
  obtain ⟨⟨info, ver⟩, -, h⟩ := bind_eq_ok_iff.mp h
  cases h
  exact ⟨rfl, rfl⟩

theorem sound_dockerProvider (toValue : μ → Value) :
    (dockerProvider ε ε' instantOf cfg toValue).Sound := by
  rintro s ⟨docker, host, h⟩
  obtain ⟨head, tasks, hhead, rfl, -⟩ := exists_head_of_collects h
  obtain ⟨horchestrator, hversion, hrange⟩ := status_of_collectHead hhead
  exact ⟨readable_iff hrange, horchestrator, hversion⟩

variable (instantOf) in
/-- Next to Docker, a container has none of the members that only Kubernetes knows. -/
theorem unset_containerStatsOne (answer : String → StatsOptions → Option (Except ε Stats))
    (id osType : String) :
    let c := containerStatsOne instantOf answer id osType
    c.ns = none ∧ c.pod = none ∧ c.workload = none ∧ c.workloadKind = none := by
  intro c
  unfold c containerStatsOne
  split <;> exact ⟨rfl, rfl, rfl, rfl⟩

end Docker

section Kubernetes

variable {ε : Type} {provider : KubernetesProvider ε} {s : Status}

/-- What a tick that succeeds has read, and makes of it. -/
theorem exists_summary_of_status (h : provider.status = .ok s) :
    ∃ (node podList : Value) (summary : Summary),
      let nodeMeta := parseNodeMeta node
      provider.client.getJson ("/api/v1/nodes/" ++ provider.nodeName) = .ok node ∧
        s.id = provider.nodeName ∧ s.orchestrator = "kubernetes" ∧
        s.agentVersion = packageVersion ∧
        (s.cpu, s.memory, s.disk) = nodeStatusParts summary.node nodeMeta.capacityCores
          nodeMeta.capacityMemBytes ∧
        s.tasks = summary.containerStatuses (parsePodMetas podList) nodeMeta.capacityCores := by
  rw [KubernetesProvider.status] at h
  obtain ⟨node, hnode, h⟩ := bind_eq_ok_iff.mp h
  obtain ⟨raw, -, h⟩ := bind_eq_ok_iff.mp h
  have hnode : provider.client.getJson ("/api/v1/nodes/" ++ provider.nodeName) = .ok node := by
    cases hget : provider.client.getJson ("/api/v1/nodes/" ++ provider.nodeName) <;>
      rw [hget] at hnode <;> cases hnode
    rfl
  cases hsummary : Summary.fromValue raw with
  | none =>
      rw [hsummary] at h
      cases h
  | some summary =>
      rw [hsummary] at h
      cases h
      exact ⟨node, _, summary, hnode, rfl, rfl, rfl, rfl, rfl⟩

/-- The number of cores is at least 1 and stays within an `i32`. -/
theorem inRange_cpuStatus (node : NodeSummary) (capacityCores : F64) :
    (cpuStatus node capacityCores).InRange := by
  have hround := F64.roundI32_range capacityCores
  show -2 ^ 31 ≤ max 1 capacityCores.roundI32 ∧ max 1 capacityCores.roundI32 < 2 ^ 31
  omega

theorem sound_kubernetesProvider (timestampOf : String → Option Int)
    (provider : KubernetesProvider String) : (kubernetesProvider timestampOf provider).Sound := by
  rintro s ⟨client, h⟩
  obtain ⟨node, podList, summary, -, -, horchestrator, hversion, hparts, -⟩ :=
    exists_summary_of_status h
  have hcpu : s.cpu = cpuStatus summary.node _ := congrArg Prod.fst hparts
  exact ⟨readable_iff (hcpu ▸ inRange_cpuStatus summary.node _), horchestrator, hversion⟩

/-- A pod has both a workload and its kind, or neither. -/
theorem isSome_workload_iff {podList : Value} {key : String} {m : PodMeta}
    (h : (parsePodMetas podList).lookup key = some m) :
    m.workloadKind.isSome = m.workload.isSome := by
  obtain ⟨item, -, hentry⟩ := Machine.exists_of_lookup_collect h
  have hm : podMeta item = m := by
    unfold podEntry at hentry
    simp only at hentry
    split at hentry
    · cases hentry
    · exact congrArg Prod.snd (Option.some.inj hentry)
  rw [← hm, podMeta, Option.isSome_map, Option.isSome_map]

/-- On Kubernetes, a container has the namespace and the name of its pod, and a workload with its
kind or neither. -/
theorem set_containerStatuses {summary : Summary} {podList : Value} {capacityCores : F64}
    {c : ContainerStatus}
    (hc : c ∈ summary.containerStatuses (parsePodMetas podList) capacityCores) :
    c.ns.isSome = true ∧ c.pod.isSome = true ∧ c.workloadKind.isSome = c.workload.isSome := by
  obtain ⟨pod, -, hc⟩ := List.mem_flatMap.mp hc
  obtain ⟨-, sample, idx, -, -, rfl⟩ := mem_podStatuses_iff.mp hc
  refine ⟨rfl, rfl, ?_⟩
  show (Option.bind _ _).isSome = (Option.bind _ _).isSome
  cases hlookup : (parsePodMetas podList).lookup (pod.ns ++ "/" ++ pod.name) with
  | none => rfl
  | some m => exact isSome_workload_iff hlookup

end Kubernetes

/-! ### Members -/

/-- **The members of a container.**  Next to Docker they are the common ones, and on Kubernetes
these and those naming its pod, and if the pod has a workload, those naming it and its kind. -/
theorem keys_of_containers {ε ε' μ : Type} (instantOf timestampOf : String → Option Int)
    (cfg : Config) (toValue : μ → Value) (provider : KubernetesProvider String) :
    (∀ s, (dockerProvider ε ε' instantOf cfg toValue).status (.ok s) →
      ∀ c ∈ s.tasks, ∀ key, key ∈ c.toValue.keys ↔ key ∈ ContainerStatus.commonKeys) ∧
    ∀ s, (kubernetesProvider timestampOf provider).status (.ok s) →
      ∀ c ∈ s.tasks, ∀ key, key ∈ c.toValue.keys ↔
        key ∈ ContainerStatus.commonKeys ∨ key ∈ ["namespace", "pod"] ∨
          (c.workload.isSome = true ∧ key ∈ ["workload", "workloadKind"]) := by
  constructor
  · rintro s ⟨docker, host, h⟩ c hc key
    obtain ⟨head, tasks, -, rfl, htasks⟩ := exists_head_of_collects h
    obtain ⟨n, id, rfl⟩ := htasks c hc
    obtain ⟨hns, hpod, hworkload, hkind⟩ :=
      unset_containerStatsOne instantOf (docker.stats n) id head.osType
    rw [ContainerStatus.mem_keys_toValue, hns, hpod, hworkload, hkind]
    simp
  · rintro s ⟨client, h⟩ c hc key
    obtain ⟨node, podList, summary, -, -, -, -, -, htasks⟩ := exists_summary_of_status h
    obtain ⟨hns, hpod, hkind⟩ := set_containerStatuses (htasks ▸ hc)
    rw [ContainerStatus.mem_keys_toValue, hns, hpod, hkind]
    simp only [List.mem_cons, List.not_mem_nil, or_false]
    grind

/-! ### Figures -/

section Figures

variable {ε : Type} {instantOf : String → Option Int}

/-- A percentage of something that is not very small. -/
theorem isAmount_pct (n : UInt64) {total : F64} (h : total = 0 ∨ 1 ≤ total) :
    (pct (n.toNat : F64) total).IsAmount := by
  unfold pct
  split
  · next hpos =>
      refine F64.isAmount_percent n (h.resolve_left ?_)
      rintro rfl
      exact absurd ((F64.lt_iff F64.value_zero F64.value_zero).mp hpos) (lt_irrefl 0)
  · exact F64.isAmount_zero

theorem isAmount_pct_u64 (n n' : UInt64) : (pct (n.toNat : F64) n'.toNat).IsAmount := by
  refine isAmount_pct n ?_
  by_cases h : n' = 0
  · exact Or.inl (F64.u64_eq_zero_iff.mpr h)
  · exact Or.inr (F64.one_le_u64 h)

theorem pct_eq_ite (n n' : UInt64) : pct (n.toNat : F64) n'.toNat =
    if (n'.toNat : F64) = 0 then 0 else (n.toNat : F64) / n'.toNat * 100 := by
  unfold pct
  simp only [F64.u64_pos_iff, F64.u64_eq_zero_iff, ne_eq, ite_not]

theorem isAmount_calculateCpuPercentWindows (readPrereadNs : UInt64) (numProcs : UInt32)
    (intervalsUsed : UInt64) :
    (calculateCpuPercentWindows readPrereadNs numProcs intervalsUsed : F64).IsAmount := by
  unfold calculateCpuPercentWindows
  simp only
  split
  · next hpos =>
      exact F64.isAmount_percent _ (F64.one_le_u64 (UInt64.pos_iff_ne_zero.mp hpos))
  · exact F64.isAmount_zero

theorem calculateMemoryPercent_eq_pct (limit used : UInt64) :
    calculateMemoryPercentUnixNoCache (limit.toNat : F64) used.toNat =
      pct (used.toNat : F64) limit.toNat := by
  rw [pct_eq_ite, calculateMemoryPercentUnixNoCache]
  exact ite_not _ _ _

/-- **Next to Docker** all figures are finite, whatever is answered. -/
theorem figures_containerStatsOne (answer : String → StatsOptions → Option (Except ε Stats))
    (id osType : String) :
    let c := containerStatsOne instantOf answer id osType
    (∀ x ∈ c.figures, x.IsAmount) ∧ c.memoryPercentage =
      if c.memoryLimit = 0 then 0 else c.memory / c.memoryLimit * 100 := by
  have hzero := F64.isAmount_zero
  have hempty : ∀ x ∈ (ContainerStatus.empty id : ContainerStatus).figures, x.IsAmount :=
    ContainerStatus.forall_mem_figures.mpr ⟨hzero, hzero, hzero, hzero⟩
  intro c
  unfold c containerStatsOne
  split
  · next stats _ =>
      unfold containerStatusFromStats
      cases isWindows osType with
      | true =>
          refine ⟨ContainerStatus.forall_mem_figures.mpr ⟨?_, F64.isAmount_u64 _, hzero, hzero⟩,
            (if_pos rfl).symm⟩
          exact isAmount_calculateCpuPercentWindows _ _ _
      | false =>
          have hpercentage := calculateMemoryPercent_eq_pct (stats.memoryStats.limit.getD 0)
            (saturatingSub (stats.memoryStats.usage.getD 0) (cacheBytes stats.memoryStats))
          refine ⟨ContainerStatus.forall_mem_figures.mpr ⟨?_, F64.isAmount_u64 _,
            F64.isAmount_u64 _, ?_⟩, hpercentage.trans (pct_eq_ite _ _)⟩
          · exact isAmount_calculateCpuPercentUnix _ _ _
          · have hamount := isAmount_pct_u64 (saturatingSub (stats.memoryStats.usage.getD 0)
              (cacheBytes stats.memoryStats)) (stats.memoryStats.limit.getD 0)
            rwa [← hpercentage] at hamount
  · exact ⟨hempty, (if_pos rfl).symm⟩
  · exact ⟨hempty, (if_pos rfl).symm⟩

/-- **Next to Docker**, all figures of a status are finite, unless `sysinfo` says of the CPU usage
of the host that it is not. -/
theorem allFinite_iff_of_collects {π : Type} [DecidableEq π] {cfg : Config} {docker : Engine ε}
    {host : Host.Platform π} {s : Status} (h : Collects instantOf docker cfg host (.ok s)) :
    AllFinite s.figures ↔ s.cpu.usedPercentage.isFinite = true := by
  obtain ⟨head, tasks, hhead, rfl, htasks⟩ := exists_head_of_collects h
  obtain ⟨hdisk, hmemory⟩ := host_of_collectHead hhead
  refine ⟨fun h ↦ h _ (by simp [Status.figures]), fun hcpu x hx ↦ ?_⟩
  simp only [Status.figures, List.mem_cons, List.mem_flatMap] at hx
  rcases hx with rfl | rfl | rfl | ⟨c, hc, hx⟩
  · rw [hdisk]
    exact Host.isFinite_diskUsage _
  · exact hcpu
  · rw [hmemory]
    exact Host.isFinite_usedPercentage _ _
  · obtain ⟨n, id, rfl⟩ := htasks c hc
    exact ((figures_containerStatsOne _ id head.osType).1 x hx).isFinite

/-! #### Kubernetes -/

theorem figures_containerStatus (pod : PodSummary) (m : Option PodMeta) (capacityCores : F64)
    (c : ContainerSample) (idx : ℕ) :
    let status := containerStatus pod m capacityCores c idx
    let nanocores := capacityCores * Arith.ofRat (10 ^ 9)
    (∃ n : UInt64, status.cpuPercentage = pct (n.toNat : F64) nanocores) ∧
      status.memory.IsAmount ∧ status.memoryLimit.IsAmount ∧ status.memoryPercentage.IsAmount ∧
        status.memoryPercentage =
          if status.memoryLimit = 0 then 0 else status.memory / status.memoryLimit * 100 :=
  ⟨⟨_, rfl⟩, F64.isAmount_u64 _, F64.isAmount_u64 _, isAmount_pct_u64 _ _, pct_eq_ite _ _⟩

/-- The capacity of a node is a finite number of cores, and not negative. -/
theorem isAmount_capacityCores (node : Value) : (parseNodeMeta node).capacityCores.IsAmount := by
  show (Option.getD (Option.bind _ parseQuantityCores) (0 : F64)).IsAmount
  cases hread : ((node.pointer ["status", "capacity", "cpu"]).bind Value.asStr).bind
      (parseQuantityCores (F := F64)) with
  | none => exact F64.isAmount_zero
  | some cores =>
      obtain ⟨raw, -, hparse⟩ := Option.bind_eq_some_iff.mp hread
      obtain ⟨hfinite, hnonneg⟩ := parseQuantityCores_spec hparse
      obtain ⟨c, hc⟩ := F64.isFinite_iff.mp hfinite
      exact ⟨c, hc, (F64.le_iff F64.value_zero hc).mp hnonneg⟩

/-- The capacity in billionths of a core. -/
theorem nanocores_cases {cores : F64} (hcores : cores.IsAmount)
    (h : ∀ c, cores.value = some c → c = 0 ∨ 1 / 10 ^ 9 ≤ c) :
    cores * Arith.ofRat (10 ^ 9) = 0 ∨ 1 ≤ cores * Arith.ofRat (10 ^ 9) := by
  obtain ⟨c, hc, -⟩ := hcores
  have hbillion : (Arith.ofRat (10 ^ 9) : F64).value = some (10 ^ 9) := by
    have hnearest : binary64.nearest (10 ^ 9 : ℚ) = 10 ^ 9 := by
      exact_mod_cast F64.nearest_natCast (n := 10 ^ 9) (by decide)
    exact (F64.value_ofRat_of_le (k := 30) (by decide) (by norm_num)).trans
      (congrArg some hnearest)
  rw [F64.mul_eq hc hbillion]
  rcases h c hc with rfl | hle
  · rw [zero_mul]
    exact Or.inl rfl
  · exact Or.inr (F64.one_le_ofRat (by rwa [div_le_iff₀ (by norm_num)] at hle))

/-- **On Kubernetes**, all figures of a status are finite, unless the node has a capacity of less
than a billionth of a core. -/
theorem allFinite_of_status {provider : KubernetesProvider ε} {node : Value} {s : Status}
    (h : provider.status = .ok s)
    (hnode : provider.client.getJson ("/api/v1/nodes/" ++ provider.nodeName) = .ok node)
    (hcapacity : ∀ c, (parseNodeMeta node).capacityCores.value = some c → c = 0 ∨ 1 / 10 ^ 9 ≤ c) :
    AllFinite s.figures := by
  obtain ⟨node', podList, summary, hnode', -, -, -, hparts, htasks⟩ := exists_summary_of_status h
  obtain rfl : node' = node := Except.ok.inj (hnode'.symm.trans hnode)
  have hnanocores := nanocores_cases (isAmount_capacityCores node') hcapacity
  obtain ⟨hcpu, hmemory, hdisk⟩ : s.cpu = _ ∧ s.memory = _ ∧ s.disk = _ :=
    ⟨congrArg Prod.fst hparts, congrArg (fun p ↦ p.2.1) hparts, congrArg (fun p ↦ p.2.2) hparts⟩
  intro x hx
  simp only [Status.figures, List.mem_cons, List.mem_flatMap] at hx
  rcases hx with rfl | rfl | rfl | ⟨c, hc, hx⟩
  · rw [hdisk]
    exact (isAmount_pct_u64 _ _).isFinite
  · rw [hcpu]
    exact (isAmount_pct _ hnanocores).isFinite
  · rw [hmemory]
    exact (isAmount_pct_u64 _ _).isFinite
  · obtain ⟨pod, -, sample, -, m, idx, rfl⟩ := exists_of_mem_containerStatuses (htasks ▸ hc)
    obtain ⟨⟨n, hn⟩, hmem, hlimit, hpercentage, -⟩ :=
      figures_containerStatus pod m (parseNodeMeta node').capacityCores sample idx
    exact (ContainerStatus.forall_mem_figures.mpr
      ⟨hn ▸ isAmount_pct n hnanocores, hmem, hlimit, hpercentage⟩ x hx).isFinite

end Figures

/-! ### The results -/

/-- **Snapshots can be read back**, whichever provider has made them, if their figures are finite,
and say which it was.  Next to Docker the figures are finite if `sysinfo` gives a finite CPU usage
of the host, and on Kubernetes if the node has no capacity or at least a billionth of a core. -/
theorem sound_providers {ε ε' μ : Type} (instantOf timestampOf : String → Option Int)
    (cfg : Config) (toValue : μ → Value) (provider : KubernetesProvider String) :
    (dockerProvider ε ε' instantOf cfg toValue).Sound ∧
      (kubernetesProvider timestampOf provider).Sound ∧
      (∀ s, (dockerProvider ε ε' instantOf cfg toValue).status (.ok s) →
        (AllFinite s.figures ↔ s.cpu.usedPercentage.isFinite = true)) ∧
      ∀ (client : KubeClient String) node s,
        KubernetesProvider.status { provider with client := client } = .ok s →
        client.getJson ("/api/v1/nodes/" ++ provider.nodeName) = .ok node →
        (∀ c, (parseNodeMeta node).capacityCores.value = some c → c = 0 ∨ 1 / 10 ^ 9 ≤ c) →
        AllFinite s.figures := by
  refine ⟨sound_dockerProvider toValue, sound_kubernetesProvider timestampOf provider, ?_, ?_⟩
  · rintro s ⟨docker, host, h⟩
    exact allFinite_iff_of_collects h
  · exact fun client node s h hnode hcapacity ↦ allFinite_of_status h hnode hcapacity

end Swarmagent
