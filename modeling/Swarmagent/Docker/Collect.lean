import Swarmagent.Docker.OneShot
import Swarmagent.Host
import Swarmagent.Kubernetes.Client
import Swarmagent.Machine.Pool

/-!
# The stats tick of Docker

The model of `collect_status` in `docker.rs`.  A tick asks the daemon what it is and which
containers run, and then spawns a task for each of these, which requests the stats of its container
as soon as it gets one of the permits of a semaphore.  The tasks are a `Machine.Pool`, so what is
shown of a tick holds for any order in which they happen to run.

* Never more requests are open than the configuration allows (`requests_le`), and as it always
  allows one, the tasks of a tick end (`collection_ends`).
* A tick posts one status for each container that was listed, in any order (`collects_iff`), unless
  a task panics, and the number of permits makes no difference to it.

## What is left open

* `Engine` is what requests to the daemon come to.  A stats request may be answered differently at
  each moment, and may panic.
* A release is built to abort when something panics (`panic = "abort"`), which is the end of the
  run.  What is shown of a release is therefore shown of an engine that never panics.
* Of tokio, what is documented is taken for granted.  A `Semaphore` has no more permits than it was
  made with, `acquire_owned` waits until there is one, and a permit is returned when it is dropped,
  by a task that panics too.  `join_next` of a `JoinSet` waits for one of its tasks and returns the
  outcome of each once, in the order in which they end, an error for one that panicked, and `None`
  when there are no more.
* Of an error only the context is kept that the agent adds to it.
-/

namespace Swarmagent.Docker

open Kubernetes (context packageVersion)
open Machine (Pool)

/-! ## What the daemon answers -/

structure SwarmInfo where
  nodeId : Option String

/-- `docker info`. -/
structure SystemInfo where
  swarm : Option SwarmInfo
  name : Option String
  ncpu : Option Int64
  osType : Option String
  serverVersion : Option String
  kernelVersion : Option String

/-- `docker version`. -/
structure SystemVersion where
  version : Option String
  apiVersion : Option String
  kernelVersion : Option String

structure ContainerSummary where
  id : Option String

/-- The options of a request for the list of containers. -/
structure ListContainersOptions where
  all : Bool := false
  limit : Option ℕ := none
  size : Bool := false
  filters : List (String × List String) := []

/-- What requests to the daemon come to. -/
structure Engine (ε : Type) where
  info : Except ε SystemInfo
  version : Except ε SystemVersion
  listContainers : ListContainersOptions → Except ε (List ContainerSummary)
  /-- The first item of the stream that a stats request opens, at each moment. -/
  stats : ℕ → String → StatsOptions → Option (Except ε Stats)
  /-- Whether reading it panics, at each moment. -/
  panics : ℕ → String → Bool := fun _ _ ↦ false

/-! ## The tick -/

/-- `try_join!` of two requests. -/
def tryJoin {ε α β : Type} (x : Except ε α) (y : Except ε β) : Except ε (α × β) := do
  let a ← x
  let b ← y
  return (a, b)

/-- What is known when the tasks are spawned. -/
structure Head where
  osType : String
  /-- The containers that were listed. -/
  ids : List String
  /-- The status, without its tasks. -/
  status : Status

section Collect

variable {ε π : Type} [DecidableEq π]

/-- The containers that are listed, as far as they have an id. -/
def containerIds (docker : Engine ε) : List String :=
  let summaries := match docker.listContainers {} with
    | .ok summaries => summaries
    | .error _ => []
  summaries.filterMap fun c ↦ c.id

/-- `collect_status`, up to the tasks. -/
def collectHead (docker : Engine ε) (host : Host.Platform π) : Except String Head := do
  let (info, ver) ← context "docker info / version" (tryJoin docker.info docker.version)
  let nodeId := (info.swarm.bind fun s ↦ s.nodeId).getD ""
  let hostname := info.name.getD ""
  let ncpu := (info.ncpu.getD 1).toInt32
  let osType := info.osType.getD "linux"
  let engineVersion := ver.version.getD (info.serverVersion.getD "")
  let apiVersion := ver.apiVersion.getD ""
  let kernelVersion := ver.kernelVersion.getD (info.kernelVersion.getD "")
  return {
    osType
    ids := containerIds docker
    status := {
      id := nodeId
      hostname
      orchestrator := "swarm"
      disk := Host.diskUsage host.path host.windows host.disks
      cpu := Host.cpuUsage host.sys ncpu.toInt
      memory := Host.memoryUsage host.sys
      tasks := []
      engineVersion, apiVersion, kernelVersion
      agentVersion := packageVersion } }

variable (instantOf : String → Option Int)

/-- What a task may come to: the status made of what the daemon answers, or nothing if it panics. -/
def TaskOutcome (docker : Engine ε) (osType id : String) : Option ContainerStatus → Prop
  | some s => ∃ n, docker.panics n id = false ∧
      s = containerStatsOne instantOf (docker.stats n) id osType
  | none => ∃ n, docker.panics n id = true

/-- The tasks of a tick, before the first is spawned. -/
def Head.tasks (cfg : Config) (head : Head) : Pool String ContainerStatus :=
  .init head.ids cfg.statsMaxConcurrency.toNat

/-- What `collect_status` may come to. -/
inductive Collects (docker : Engine ε) (cfg : Config) (host : Host.Platform π) :
    Except String Status → Prop
  | failed {e : String} : collectHead docker host = .error e →
      Collects docker cfg host (.error e)
  | collected {head : Head} {pool : Pool String ContainerStatus} :
      collectHead docker host = .ok head →
      Pool.Reaches (TaskOutcome instantOf docker head.osType) (head.tasks cfg) pool →
      pool.Finished →
      Collects docker cfg host (.ok { head.status with tasks := pool.collected })

/-! ## The requests of a tick -/

section Requests

variable {docker : Engine ε} {osType : String} {head : Head} {env : Env}
variable {pool : Pool String ContainerStatus}

/-- **The bound.**  Whatever the environment is, and however the tasks of a tick are interleaved,
never more stats requests are open than the configuration says, nor more than 512, and each is for
a container that was listed, and for each of these there is one at most. -/
theorem requests_le
    (h : Pool.Reaches (TaskOutcome instantOf docker osType) (head.tasks (.fromEnv env)) pool) :
    pool.running.card ≤ (Config.fromEnv env).statsMaxConcurrency.toNat ∧
      pool.running.card ≤ 512 ∧ pool.running ≤ head.ids := by
  have hle : pool.running.card ≤ (Config.fromEnv env).statsMaxConcurrency.toNat :=
    Pool.running_le h
  obtain ⟨-, -, hmax, -⟩ := Config.fromEnv_bounds env
  refine ⟨hle, hle.trans (UInt64.le_iff_toNat_le.mp hmax), ?_⟩
  rw [← (Pool.inv_of_reaches h).tasks, Pool.allTasks]
  exact Multiset.le_iff_exists_add.mpr
    ⟨pool.toSpawn + pool.waiting + pool.finished.map Prod.fst + (pool.joined.map Prod.fst : List _),
      by abel⟩

/-- A task comes to a status or panics. -/
theorem exists_taskOutcome (id : String) : ∃ r, TaskOutcome instantOf docker osType id r := by
  cases hpanics : docker.panics 0 id with
  | false => exact ⟨some _, 0, hpanics, rfl⟩
  | true => exact ⟨none, 0, hpanics⟩

theorem permits_pos : 0 < (Config.fromEnv env).statsMaxConcurrency.toNat :=
  UInt64.le_iff_toNat_le.mp (Config.fromEnv_bounds env).2.1

/-- **A tick ends.**  In any interleaving its tasks take finitely many steps.  They stop only when
the outcome of each has been taken, unless there is a container and no permit; and whatever the
environment is, there is a permit. -/
theorem collection_ends :
    (∀ run : ℕ → Pool String ContainerStatus,
        ¬∀ n, Pool.Step (TaskOutcome instantOf docker osType) (run n) (run (n + 1))) ∧
      (∀ (cfg : Config) (head : Head),
        (∀ pool, Pool.Reaches (TaskOutcome instantOf docker osType) (head.tasks cfg) pool →
            (∀ pool', ¬Pool.Step (TaskOutcome instantOf docker osType) pool pool') →
            pool.Finished) ↔
          0 < cfg.statsMaxConcurrency.toNat ∨ head.ids = []) ∧
      ∀ env, 0 < (Config.fromEnv env).statsMaxConcurrency.toNat := by
  refine ⟨Machine.not_forever (μ := Pool.work) fun _ _ h ↦ Pool.Step.work_lt h,
    fun cfg head ↦ ⟨fun h ↦ ?_, ?_⟩, fun _ ↦ permits_pos⟩
  · by_contra! hnone
    obtain ⟨hpermits, hids⟩ := hnone
    obtain ⟨pool, hreach, hstuck⟩ := Machine.exists_stuck
      (fun s s' (hstep : Pool.Step (TaskOutcome instantOf docker osType) s s') ↦ hstep.work_lt)
      (head.tasks cfg)
    have hperm := ((h pool hreach hstuck).covers hreach).perm
    rw [Head.tasks, Nat.le_zero.mp hpermits] at hreach
    rw [(Pool.joined_of_no_permit hreach).2.2] at hperm
    exact hids hperm.nil_eq.symm
  · intro hcap pool hreach hstuck
    by_contra hwork
    have hinv := Pool.inv_of_reaches hreach
    rcases hcap with hcap | hids
    · obtain ⟨pool', hstep⟩ := Pool.exists_step (fun id _ ↦ exists_taskOutcome instantOf id)
        hcap hinv hwork
      exact hstuck pool' hstep
    · -- there is no task
      have htasks := hinv.tasks
      rw [hids, Multiset.coe_nil, Pool.allTasks] at htasks
      simp only [add_eq_zero, Multiset.map_eq_zero, Multiset.coe_eq_zero] at htasks
      exact hwork ⟨htasks.1.1.1.1, htasks.1.1.1.2, htasks.1.1.2, htasks.1.2⟩

end Requests

/-! ## What a tick comes to -/

section Status

variable {docker : Engine ε} {cfg : Config} {host : Host.Platform π}

/-- **What a tick may come to**: an error if the daemon does not say what it is, and else a status
with one outcome for each container that was listed, in any order. -/
theorem collects_iff (hcap : 0 < cfg.statsMaxConcurrency.toNat) {r : Except String Status} :
    Collects instantOf docker cfg host r ↔
      (∃ e, collectHead docker host = .error e ∧ r = .error e) ∨
        ∃ head l, collectHead docker host = .ok head ∧
          Pool.Covers (TaskOutcome instantOf docker head.osType) head.ids l ∧
          r = .ok { head.status with tasks := l.filterMap Prod.snd } := by
  constructor
  · rintro (herror | ⟨hhead, hreach, hfinished⟩)
    · exact Or.inl ⟨_, herror, rfl⟩
    · exact Or.inr ⟨_, _, hhead, hfinished.covers hreach, rfl⟩
  · rintro (⟨e, herror, rfl⟩ | ⟨head, l, hhead, hcovers, rfl⟩)
    · exact .failed herror
    · obtain ⟨pool, hreach, hfinished, rfl⟩ := (Pool.outcomes_iff hcap).mpr hcovers
      exact .collected hhead hreach hfinished

/-- **Every configuration** leaves a permit, and how many it leaves makes no difference to what a
tick may come to. -/
theorem collects_fromEnv_iff (env : Env) {r : Except String Status} :
    Collects instantOf docker (.fromEnv env) host r ↔
      (∃ e, collectHead docker host = .error e ∧ r = .error e) ∨
        ∃ head l, collectHead docker host = .ok head ∧
          Pool.Covers (TaskOutcome instantOf docker head.osType) head.ids l ∧
          r = .ok { head.status with tasks := l.filterMap Prod.snd } :=
  collects_iff instantOf permits_pos

theorem ids_of_collectHead {head : Head} (h : collectHead docker host = .ok head) :
    head.ids = containerIds docker := by
  rw [collectHead] at h
  obtain ⟨_, -, h⟩ := Kubernetes.bind_eq_ok_iff.mp h
  cases h
  rfl

/-- The daemon answers for the container it is asked about. -/
def Engine.AnswersFor (docker : Engine ε) : Prop :=
  ∀ n id opts stats, docker.stats n id opts = some (.ok stats) → stats.id = "" ∨ stats.id = id

/-- Then the status is that of the container, whether there is an answer or not. -/
theorem id_containerStatsOne (h : docker.AnswersFor) (n : ℕ) (id osType : String) :
    (containerStatsOne instantOf (docker.stats n) id osType).id = id := by
  unfold containerStatsOne
  split
  · next stats hstats =>
      rcases h n id _ stats hstats with hid | hid
      · exact if_pos hid
      · show (if stats.id = "" then id else stats.id) = id
        rw [hid, ite_self]
  · rfl
  · rfl

/-- The ids of the statuses, and of the containers whose tasks panicked. -/
theorem perm_ids_outcomes (h : docker.AnswersFor) {osType : String}
    {l : List (String × Option ContainerStatus)}
    (hl : ∀ x ∈ l, TaskOutcome instantOf docker osType x.1 x.2) :
    ∃ lost : List String,
      ((l.filterMap Prod.snd).map (fun s ↦ s.id) ++ lost).Perm (l.map Prod.fst) ∧
        ∀ id ∈ lost, ∃ n, docker.panics n id = true := by
  induction l with
  | nil => exact ⟨[], .nil, List.forall_mem_nil _⟩
  | cons x l ih =>
      obtain ⟨id, r⟩ := x
      obtain ⟨hx, hrest⟩ := List.forall_mem_cons.mp hl
      obtain ⟨lost, hperm, hlost⟩ := ih hrest
      cases r with
      | none => exact ⟨id :: lost, List.perm_middle.trans (hperm.cons id),
          List.forall_mem_cons.mpr ⟨hx, hlost⟩⟩
      | some s =>
          obtain ⟨n, -, hs⟩ : ∃ n, docker.panics n id = false ∧
            s = containerStatsOne instantOf (docker.stats n) id osType := hx
          have hid : s.id = id := hs ▸ id_containerStatsOne instantOf h n id osType
          exact ⟨lost, hid ▸ hperm.cons s.id, hlost⟩

/-- **The containers of a status** are those that were listed, each once, without those whose task
panicked; so if nothing panics, they are those that were listed. -/
theorem collects_ids (hanswers : docker.AnswersFor) {status : Status}
    (h : Collects instantOf docker cfg host (.ok status)) :
    (∃ lost : List String,
        ((status.tasks.map fun s ↦ s.id) ++ lost).Perm (containerIds docker) ∧
          ∀ id ∈ lost, ∃ n, docker.panics n id = true) ∧
      ((∀ n id, docker.panics n id = false) →
        (status.tasks.map fun s ↦ s.id).Perm (containerIds docker)) := by
  cases h with
  | collected hhead hreach hfinished =>
      obtain ⟨hperm, houtcome⟩ := hfinished.covers hreach
      rw [ids_of_collectHead hhead] at hperm
      obtain ⟨lost, hids, hlost⟩ := perm_ids_outcomes instantOf hanswers houtcome
      refine ⟨⟨lost, hids.trans hperm, hlost⟩, fun hquiet ↦ ?_⟩
      have hnone : lost = [] := by
        rw [List.eq_nil_iff_forall_not_mem]
        intro id hid
        obtain ⟨n, hn⟩ := hlost id hid
        exact Bool.false_ne_true ((hquiet n id).symm.trans hn)
      rw [hnone, List.append_nil] at hids
      exact hids.trans hperm

end Status

end Collect

/-! ### A daemon with two containers -/

/-- Stats without any counters. -/
def quietStats (id : String) : Stats where
  name := "/" ++ id
  id := id
  read := ""
  preread := ""
  numProcs := 0
  networks := none
  pidsCurrent := none
  ioServiceBytesRecursive := none
  cpuStats := sample 0 none
  precpuStats := sample 0 none
  memoryStats := { stats := none, usage := none, limit := none, privateworkingset := none }

/-- The stats of one can be read, and those of the other cannot. -/
def quietEngine : Engine Unit where
  info := .ok
    { swarm := none, name := some "host", ncpu := some 4, osType := none, serverVersion := none
      kernelVersion := none }
  version := .ok { version := some "27.3.1", apiVersion := some "1.47", kernelVersion := none }
  listContainers _ := .ok [⟨some "a"⟩, ⟨none⟩, ⟨some "b"⟩]
  stats _ id _ := if id = "a" then some (.ok (quietStats id)) else some (.error ())

def bareHost : Host.Platform String where
  path := id
  windows := false
  disks := []
  sys := { globalCpuUsage := 0, totalMemory := 0, usedMemory := 0, freeMemory := 0 }

def quietHead : Head where
  osType := "linux"
  ids := ["a", "b"]
  status := {
    id := "", hostname := "host", orchestrator := "swarm"
    disk := { total := 0, used := 0, usedPercentage := 0, free := 0 }
    cpu := { usedPercentage := 0, cores := 4 }
    memory := { total := 0, used := 0, usedPercentage := 0, free := 0 }
    tasks := [], engineVersion := "27.3.1", apiVersion := "1.47", kernelVersion := ""
    agentVersion := "0.1.2" }

theorem collectHead_quiet : collectHead quietEngine bareHost = .ok quietHead := rfl

/-- One of the two tasks waits, and the other has been granted a permit. -/
theorem requests_le_quiet :
    (1 : ℕ) ≤ (Config.fromEnv fun _ ↦ none).statsMaxConcurrency.toNat ∧ 1 ≤ 512 ∧
      ({"a"} : Multiset String) ≤ (quietHead.ids : Multiset String) := by
  let env : Env := fun _ ↦ none
  let start : Pool String ContainerStatus := quietHead.tasks (.fromEnv env)
  have hreach : Pool.Reaches (TaskOutcome (fun _ ↦ none) quietEngine "linux") start
      ⟨["b"], 31, 0, {"a"}, 0, []⟩ := by
    have hpermits : start.permits = 31 + 1 := rfl
    exact .tail (.single (.spawn rfl)) (.acquire rfl hpermits)
  exact requests_le (fun _ ↦ none) hreach

theorem answersFor_quiet : quietEngine.AnswersFor := by
  intro n id opts stats h
  by_cases hid : id = "a"
  · simp only [quietEngine, if_pos hid, Option.some.injEq, Except.ok.injEq] at h
    exact Or.inr (h ▸ rfl)
  · simp [quietEngine, hid] at h

/-- The tasks end in another order. -/
theorem collects_ids_quiet :
    let answered := containerStatsOne (fun _ ↦ none) (quietEngine.stats 0) "a" "linux"
    let status := { quietHead.status with tasks := [.empty "b", answered] }
    answered.name = "/a" ∧ (status.tasks.map fun s ↦ s.id).Perm ["a", "b"] := by
  intro answered status
  let l : List (String × Option ContainerStatus) :=
    [("b", some (.empty "b")), ("a", some answered)]
  have hcovers : Pool.Covers (TaskOutcome (fun _ ↦ none) quietEngine "linux") ["a", "b"] l := by
    refine ⟨.swap _ _ _, fun x hx ↦ ?_⟩
    rcases List.mem_pair.mp hx with rfl | rfl
    · exact ⟨0, rfl, rfl⟩
    · exact ⟨0, rfl, rfl⟩
  have hcollects : Collects (fun _ ↦ none) quietEngine (.fromEnv fun _ ↦ none) bareHost
      (.ok status) :=
    (collects_iff (fun _ ↦ none) permits_pos).mpr
      (Or.inr ⟨quietHead, l, collectHead_quiet, hcovers, rfl⟩)
  exact ⟨rfl, (collects_ids (fun _ ↦ none) answersFor_quiet hcollects).2 fun _ _ ↦ rfl⟩

end Swarmagent.Docker
