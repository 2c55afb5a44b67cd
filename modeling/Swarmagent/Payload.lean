import Swarmagent.Json.Object
import Swarmagent.Kubernetes.Events
import Swarmagent.Models

/-!
# What is sent

The `Serialize` implementations of `models.rs` and of `AgentEvent`, and the envelope that
`post_event` puts around both.  Each type has a reader next to it, which is what its payload means:
reading what was written gives it back (`Status.ofValue_toValue`, `AgentEvent.ofValue_toValue`), so
that nothing is lost on the way and no two statuses or events look alike.  The exception are figures
that are not finite, as these are written as `null`.

A status of a container has four members on Kubernetes that it does not have next to Docker.  They
are skipped when they are not set (`ContainerStatus.mem_keys_toValue`).
-/

namespace Swarmagent

open Json Rust

/-! ## Reading members -/

namespace Json.Value

def str? (v : Value) (key : String) : Option String := (v.get key).bind asStr

def u64? (v : Value) (key : String) : Option UInt64 := (v.get key).bind asU64

def i64? (v : Value) (key : String) : Option Int := (v.get key).bind asI64

def f64? (v : Value) (key : String) : Option F64 := (v.get key).bind asF64

end Json.Value

/-! ## Statuses -/

def DiskStatus.fields (d : DiskStatus) : List (String × Option Value) := [
  ("total", some (.ofU64 d.total)),
  ("used", some (.ofU64 d.used)),
  ("used_percentage", some (.ofF64 d.usedPercentage)),
  ("free", some (.ofU64 d.free))]

def DiskStatus.toValue (d : DiskStatus) : Value := .ofFields d.fields

def DiskStatus.ofValue (v : Value) : Option DiskStatus := do
  let total ← v.u64? "total"
  let used ← v.u64? "used"
  let usedPercentage ← v.f64? "used_percentage"
  let free ← v.u64? "free"
  return { total, used, usedPercentage, free }

def CpuStatus.fields (c : CpuStatus) : List (String × Option Value) := [
  ("used_percentage", some (.ofF64 c.usedPercentage)),
  ("cores", some (.ofI64 c.cores))]

def CpuStatus.toValue (c : CpuStatus) : Value := .ofFields c.fields

def CpuStatus.ofValue (v : Value) : Option CpuStatus := do
  let usedPercentage ← v.f64? "used_percentage"
  let cores ← v.i64? "cores"
  return { usedPercentage, cores }

def MemoryStatus.fields (m : MemoryStatus) : List (String × Option Value) := [
  ("total", some (.ofU64 m.total)),
  ("used", some (.ofU64 m.used)),
  ("used_percentage", some (.ofF64 m.usedPercentage)),
  ("free", some (.ofU64 m.free))]

def MemoryStatus.toValue (m : MemoryStatus) : Value := .ofFields m.fields

def MemoryStatus.ofValue (v : Value) : Option MemoryStatus := do
  let total ← v.u64? "total"
  let used ← v.u64? "used"
  let usedPercentage ← v.f64? "used_percentage"
  let free ← v.u64? "free"
  return { total, used, usedPercentage, free }

def ContainerStatus.fields (c : ContainerStatus) : List (String × Option Value) := [
  ("name", some (.string c.name)),
  ("id", some (.string c.id)),
  ("namespace", c.ns.map .string),
  ("pod", c.pod.map .string),
  ("workload", c.workload.map .string),
  ("workloadKind", c.workloadKind.map .string),
  ("cpuPercentage", some (.ofF64 c.cpuPercentage)),
  ("memory", some (.ofF64 c.memory)),
  ("memoryLimit", some (.ofF64 c.memoryLimit)),
  ("memoryPercentage", some (.ofF64 c.memoryPercentage)),
  ("networkRxBytes", some (.ofU64 c.networkRxBytes)),
  ("networkTxBytes", some (.ofU64 c.networkTxBytes)),
  ("blockReadBytes", some (.ofU64 c.blockReadBytes)),
  ("blockWriteBytes", some (.ofU64 c.blockWriteBytes)),
  ("pids", some (.ofU64 c.pids))]

def ContainerStatus.toValue (c : ContainerStatus) : Value := .ofFields c.fields

def ContainerStatus.ofValue (v : Value) : Option ContainerStatus := do
  let name ← v.str? "name"
  let id ← v.str? "id"
  let cpuPercentage ← v.f64? "cpuPercentage"
  let memory ← v.f64? "memory"
  let memoryLimit ← v.f64? "memoryLimit"
  let memoryPercentage ← v.f64? "memoryPercentage"
  let networkRxBytes ← v.u64? "networkRxBytes"
  let networkTxBytes ← v.u64? "networkTxBytes"
  let blockReadBytes ← v.u64? "blockReadBytes"
  let blockWriteBytes ← v.u64? "blockWriteBytes"
  let pids ← v.u64? "pids"
  return {
    name, id
    -- these may be missing
    ns := v.str? "namespace"
    pod := v.str? "pod"
    workload := v.str? "workload"
    workloadKind := v.str? "workloadKind"
    cpuPercentage, memory, memoryLimit, memoryPercentage, networkRxBytes, networkTxBytes
    blockReadBytes, blockWriteBytes, pids }

def Status.fields (s : Status) : List (String × Option Value) := [
  ("id", some (.string s.id)),
  ("hostname", some (.string s.hostname)),
  ("orchestrator", some (.string s.orchestrator)),
  ("disk", some s.disk.toValue),
  ("cpu", some s.cpu.toValue),
  ("memory", some s.memory.toValue),
  ("containers", some (.array (s.tasks.map ContainerStatus.toValue))),
  ("engineVersion", some (.string s.engineVersion)),
  ("apiVersion", some (.string s.apiVersion)),
  ("kernelVersion", some (.string s.kernelVersion)),
  ("agentVersion", some (.string s.agentVersion))]

def Status.toValue (s : Status) : Value := .ofFields s.fields

def Status.ofValue (v : Value) : Option Status := do
  let id ← v.str? "id"
  let hostname ← v.str? "hostname"
  let orchestrator ← v.str? "orchestrator"
  let disk ← (v.get "disk").bind DiskStatus.ofValue
  let cpu ← (v.get "cpu").bind CpuStatus.ofValue
  let memory ← (v.get "memory").bind MemoryStatus.ofValue
  let containers ← (v.get "containers").bind Value.asArray
  let tasks ← containers.mapM ContainerStatus.ofValue
  let engineVersion ← v.str? "engineVersion"
  let apiVersion ← v.str? "apiVersion"
  let kernelVersion ← v.str? "kernelVersion"
  let agentVersion ← v.str? "agentVersion"
  return {
    id, hostname, orchestrator, disk, cpu, memory, tasks, engineVersion, apiVersion, kernelVersion
    agentVersion }

/-! ### Round trips -/

/-- None of the figures is infinite. -/
def AllFinite (figures : List F64) : Prop := ∀ x ∈ figures, x.isFinite = true

instance (figures : List F64) : Decidable (AllFinite figures) :=
  inferInstanceAs (Decidable (∀ _ ∈ _, _))

/-- The figures of a container. -/
def ContainerStatus.figures (c : ContainerStatus) : List F64 :=
  [c.cpuPercentage, c.memory, c.memoryLimit, c.memoryPercentage]

theorem ContainerStatus.forall_mem_figures {c : ContainerStatus} {P : F64 → Prop} :
    (∀ x ∈ c.figures, P x) ↔
      P c.cpuPercentage ∧ P c.memory ∧ P c.memoryLimit ∧ P c.memoryPercentage := by
  simp [figures]

/-- The figures of a status, those of its containers last. -/
def Status.figures (s : Status) : List F64 :=
  s.disk.usedPercentage :: s.cpu.usedPercentage :: s.memory.usedPercentage ::
    s.tasks.flatMap ContainerStatus.figures

theorem DiskStatus.ofValue_toValue (d : DiskStatus) :
    ofValue d.toValue = if d.usedPercentage.isFinite then some d else none := by
  have hget : ∀ key, d.toValue.get key = (d.fields.lookup key).join :=
    get_ofFields (by simp [fields])
  by_cases h : d.usedPercentage.isFinite = true <;>
    simp [ofValue, Value.u64?, Value.f64?, hget, fields, lookup_cons_ite, Value.asF64_ofF64, h]

/-- The number of cores is an `i32`. -/
def CpuStatus.InRange (c : CpuStatus) : Prop := -2 ^ 31 ≤ c.cores ∧ c.cores < 2 ^ 31

theorem CpuStatus.ofValue_toValue {c : CpuStatus} (h : c.InRange) :
    ofValue c.toValue = if c.usedPercentage.isFinite then some c else none := by
  have hget : ∀ key, c.toValue.get key = (c.fields.lookup key).join :=
    get_ofFields (by simp [fields])
  have hcores : (Value.ofI64 c.cores).asI64 = some c.cores := by
    obtain ⟨hmin, hmax⟩ := h
    exact Value.asI64_ofI64 ⟨by omega, by omega⟩
  by_cases hfinite : c.usedPercentage.isFinite = true <;>
    simp [ofValue, Value.i64?, Value.f64?, hget, fields, lookup_cons_ite, hcores,
      Value.asF64_ofF64, hfinite]

theorem MemoryStatus.ofValue_toValue (m : MemoryStatus) :
    ofValue m.toValue = if m.usedPercentage.isFinite then some m else none := by
  have hget : ∀ key, m.toValue.get key = (m.fields.lookup key).join :=
    get_ofFields (by simp [fields])
  by_cases h : m.usedPercentage.isFinite = true <;>
    simp [ofValue, Value.u64?, Value.f64?, hget, fields, lookup_cons_ite, Value.asF64_ofF64, h]

/-- A text that may be skipped. -/
theorem asStr_of_skipped (t : Option String) : (t.map Value.string).bind Value.asStr = t := by
  cases t <;> rfl

theorem ContainerStatus.get_toValue (c : ContainerStatus) (key : String) :
    c.toValue.get key = (c.fields.lookup key).join :=
  get_ofFields (by simp [fields]) key

theorem ContainerStatus.ofValue_toValue (c : ContainerStatus) :
    ofValue c.toValue = if AllFinite c.figures then some c else none := by
  by_cases h : AllFinite c.figures
  · rw [if_pos h]
    obtain ⟨hcpu, hmemory, hlimit, hpercentage⟩ := forall_mem_figures.mp h
    simp [ofValue, Value.str?, Value.u64?, Value.f64?, get_toValue, fields, lookup_cons_ite,
      asStr_of_skipped, Value.asStr, Value.asF64_ofF64, hcpu, hmemory, hlimit, hpercentage]
  · -- a figure that is not finite is not read
    rw [if_neg h]
    rw [AllFinite, forall_mem_figures, not_and_or, not_and_or, not_and_or] at h
    rcases h with hinfinite | hinfinite | hinfinite | hinfinite <;>
      simp [ofValue, Value.str?, Value.u64?, Value.f64?, get_toValue, fields, lookup_cons_ite,
        Value.asStr, Value.asF64_ofF64, hinfinite]

/-- Reading what was written, for a list of values of which some can be read. -/
theorem mapM_ofValue {α : Type} {toValue : α → Value} {ofValue : Value → Option α} {p : α → Prop}
    [DecidablePred p] (h : ∀ a, ofValue (toValue a) = if p a then some a else none) (l : List α) :
    (l.map toValue).mapM ofValue = if ∀ a ∈ l, p a then some l else none := by
  induction l with
  | nil => rfl
  | cons a l ih =>
      rw [List.map_cons, List.mapM_cons, h, ih]
      by_cases ha : p a
      · by_cases hl : ∀ a ∈ l, p a
        · rw [if_pos ha, if_pos hl, if_pos (List.forall_mem_cons.mpr ⟨ha, hl⟩)]
          rfl
        · rw [if_pos ha, if_neg hl, if_neg fun hall ↦ hl (List.forall_mem_cons.mp hall).2]
          rfl
      · rw [if_neg ha, if_neg fun hall ↦ ha (List.forall_mem_cons.mp hall).1]
        rfl

/-- **A status is read back** as it was written, if its figures are finite. -/
theorem Status.ofValue_toValue {s : Status} (h : s.cpu.InRange) :
    ofValue s.toValue = if AllFinite s.figures then some s else none := by
  have hget : ∀ key, s.toValue.get key = (s.fields.lookup key).join :=
    get_ofFields (by simp [fields])
  have htasks := mapM_ofValue ContainerStatus.ofValue_toValue s.tasks
  -- each part is read if its figures are finite
  have hread : ofValue s.toValue = do
      let disk ← (if s.disk.usedPercentage.isFinite then some s.disk else none)
      let cpu ← (if s.cpu.usedPercentage.isFinite then some s.cpu else none)
      let memory ← (if s.memory.usedPercentage.isFinite then some s.memory else none)
      let tasks ← (if ∀ c ∈ s.tasks, AllFinite c.figures then some s.tasks else none)
      return { s with disk, cpu, memory, tasks } := by
    simp [ofValue, Value.str?, hget, fields, lookup_cons_ite, Value.asStr, Value.asArray,
      DiskStatus.ofValue_toValue, CpuStatus.ofValue_toValue h, MemoryStatus.ofValue_toValue, htasks]
  have hfigures : AllFinite s.figures ↔ s.disk.usedPercentage.isFinite = true ∧
      s.cpu.usedPercentage.isFinite = true ∧ s.memory.usedPercentage.isFinite = true ∧
        ∀ c ∈ s.tasks, AllFinite c.figures := by
    simp only [AllFinite, figures, List.forall_mem_cons, List.forall_mem_flatMap]
  rw [hread]
  by_cases hfinite : AllFinite s.figures
  · obtain ⟨hdisk, hcpu, hmemory, hcontainers⟩ := hfigures.mp hfinite
    rw [if_pos hfinite, if_pos hdisk, if_pos hcpu, if_pos hmemory, if_pos hcontainers]
    rfl
  · rw [if_neg hfinite]
    rw [hfigures, not_and_or, not_and_or, not_and_or] at hfinite
    rcases hfinite with hfigure | hfigure | hfigure | hfigure <;> simp [hfigure]

/-! ### Which members there are -/

/-- The members that every status of a container has. -/
def ContainerStatus.commonKeys : List String :=
  ["name", "id", "cpuPercentage", "memory", "memoryLimit", "memoryPercentage", "networkRxBytes",
    "networkTxBytes", "blockReadBytes", "blockWriteBytes", "pids"]

/-- **The members of a container**: the common ones, and those of the four others that are set. -/
theorem ContainerStatus.mem_keys_toValue (c : ContainerStatus) (key : String) :
    key ∈ c.toValue.keys ↔ key ∈ commonKeys ∨ (key = "namespace" ∧ c.ns.isSome) ∨
      (key = "pod" ∧ c.pod.isSome) ∨ (key = "workload" ∧ c.workload.isSome) ∨
      (key = "workloadKind" ∧ c.workloadKind.isSome) := by
  have hskipped : ∀ (k : String) (t : Option String),
      (∃ v, key = k ∧ some v = t.map Value.string) ↔ key = k ∧ t.isSome := by
    intro k t
    cases t <;> simp
  have hwritten : ∀ (k : String) (w : Value), (∃ v, key = k ∧ some v = some w) ↔ key = k := by
    simp
  rw [toValue, mem_keys_ofFields]
  simp only [fields, commonKeys, List.mem_cons, List.not_mem_nil, or_false, Prod.mk.injEq,
    exists_or, hskipped, hwritten]
  grind

/-! ## Events -/

namespace Kubernetes

/-- The text of an action. -/
def Action.asStr : Action → String
  | .start => "start"
  | .die => "die"
  | .oom => "oom"
  | .destroy => "destroy"

def Action.ofStr : String → Option Action
  | "start" => some .start
  | "die" => some .die
  | "oom" => some .oom
  | "destroy" => some .destroy
  | _ => none

def Actor.fields (a : Actor) : List (String × Option Value) := [
  ("ID", some (.string a.id)),
  ("Attributes", some (.ofMap a.attributes))]

def Actor.toValue (a : Actor) : Value := .ofFields a.fields

def Actor.ofValue (v : Value) : Option Actor := do
  let id ← v.str? "ID"
  let attributes ← (v.get "Attributes").bind Value.asMap
  return { id, attributes }

def AgentEvent.fields (e : AgentEvent) : List (String × Option Value) := [
  ("Type", some (.string e.typ)),
  ("Action", some (.string e.action.asStr)),
  ("orchestrator", some (.string e.orchestrator)),
  ("Actor", some e.actor.toValue),
  ("time", some (.ofI64 e.time))]

def AgentEvent.toValue (e : AgentEvent) : Value := .ofFields e.fields

def AgentEvent.ofValue (v : Value) : Option AgentEvent := do
  let typ ← v.str? "Type"
  let action ← (v.str? "Action").bind Action.ofStr
  let orchestrator ← v.str? "orchestrator"
  let actor ← (v.get "Actor").bind Actor.ofValue
  let time ← v.i64? "time"
  return { typ, action, orchestrator, actor, time }

@[simp] theorem Action.ofStr_asStr (a : Action) : ofStr a.asStr = some a := by cases a <;> rfl

theorem Actor.ofValue_toValue (a : Actor) : ofValue a.toValue = some a := by
  have hget : ∀ key, a.toValue.get key = (a.fields.lookup key).join :=
    get_ofFields (by simp [fields])
  simp [ofValue, Value.str?, hget, fields, lookup_cons_ite, Value.asStr, asMap_ofMap]

/-- **An event is read back** as it was written. -/
theorem AgentEvent.ofValue_toValue {e : AgentEvent} (h : Value.IsI64 e.time) :
    ofValue e.toValue = some e := by
  have hget : ∀ key, e.toValue.get key = (e.fields.lookup key).join :=
    get_ofFields (by simp [fields])
  have htime : (Value.ofI64 e.time).asI64 = some e.time := Value.asI64_ofI64 h
  simp [ofValue, Value.str?, Value.i64?, hget, fields, lookup_cons_ite, Value.asStr,
    Actor.ofValue_toValue, htime]

end Kubernetes

/-! ## The envelope -/

/-- What `post_event` makes of a message. -/
def envelope (ty : String) (message : Value) : Value :=
  .ofFields [("type", some (.string ty)), ("message", some message)]

end Swarmagent
