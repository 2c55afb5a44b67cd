import Swarmagent.Config
import Swarmagent.Kubernetes.NodeStatus
import Swarmagent.Kubernetes.Pods
import Swarmagent.Kubernetes.SummaryFormat

/-!
# The stats tick

The model of `KubernetesProvider::status` in `mod.rs`, with `fetch_summary` and `parse_node_meta`.
A tick reads the Node object, the summary of the kubelet and the list of pods.  Without the list
some metadata is missing, without one of the others the tick fails.

The summary is read as a whole, so that one field that cannot be read fails the tick.  A field of
the summary that is `null` is such a field unless it is an `Option` (`null_eq_absent_iff`).

## What is left open

`KubeClient` is what its requests return, for each path or URL.  An error of a request is any
value, and of an error in the summary only the context is kept that the agent adds to it.
-/

namespace Swarmagent.Kubernetes

open Swarmagent.Json Swarmagent.Rust

/-! ## The Node object -/

/-- Identity and capacity of a node. -/
structure NodeMeta where
  hostname : String
  engineVersion : String
  apiVersion : String
  kernelVersion : String
  capacityCores : F64
  capacityMemBytes : UInt64
  internalIp : Option String

/-- `parse_node_meta`.  Missing fields degrade to empty strings and zeros. -/
def parseNodeMeta (node : Value) : NodeMeta where
  hostname :=
    let label := node.strAt ["metadata", "labels", "kubernetes.io/hostname"]
    if label = "" then node.strAt ["metadata", "name"] else label
  engineVersion := node.strAt ["status", "nodeInfo", "containerRuntimeVersion"]
  apiVersion := node.strAt ["status", "nodeInfo", "kubeletVersion"]
  kernelVersion := node.strAt ["status", "nodeInfo", "kernelVersion"]
  capacityCores :=
    (((node.pointer ["status", "capacity", "cpu"]).bind Value.asStr).bind
      parseQuantityCores).getD 0
  capacityMemBytes :=
    (((node.pointer ["status", "capacity", "memory"]).bind Value.asStr).bind
      (parseQuantityBytes F64)).getD 0
  internalIp := (arrayAt node ["status", "addresses"]).bind fun addrs ↦
    addrs.findSome? fun a ↦
      if (a.get "type").bind Value.asStr = some "InternalIP" then
        (a.get "address").bind Value.asStr
      else none

/-! ## Requests -/

/-- What requests return: `get_json` of a path of the API server, `kubelet_get_json` of a URL. -/
structure KubeClient (ε : Type) where
  getJson : String → Except ε Value
  kubeletGetJson : String → Except ε Value

structure KubernetesProvider (ε : Type) where
  client : KubeClient ε
  /-- `cfg.kubelet_mode`. -/
  kubeletMode : KubeletMode
  /-- `cfg.node_ip`. -/
  nodeIp : Option String
  nodeName : String

inductive StatusError (ε : Type) where
  | request (e : ε)
  | context (text : String)

/-- The version of the package. -/
def packageVersion : String := "0.1.2"

namespace KubernetesProvider

variable {ε : Type} (provider : KubernetesProvider ε)

/-- `fetch_summary`. -/
def fetchSummary (nodeIp : Option String) : Except ε Value :=
  let viaProxy := provider.client.getJson
    ("/api/v1/nodes/" ++ provider.nodeName ++ "/proxy/stats/summary")
  match provider.kubeletMode with
  | .direct => match provider.nodeIp.or nodeIp with
    | some ip =>
        match provider.client.kubeletGetJson ("https://" ++ ip ++ ":10250/stats/summary") with
        | .ok v => .ok v
        | .error _ => viaProxy
    | none => viaProxy
  | .proxy => viaProxy

def status : Except (StatusError ε) Status := do
  let node ← (provider.client.getJson ("/api/v1/nodes/" ++ provider.nodeName)).mapError .request
  let nodeMeta := parseNodeMeta node
  let summaryRaw ← (provider.fetchSummary nodeMeta.internalIp).mapError .request
  let summary ← match Summary.fromValue summaryRaw with
    | some summary => .ok summary
    | none => .error (.context "parse stats/summary")
  let podList := match provider.client.getJson
      ("/api/v1/pods?fieldSelector=spec.nodeName=" ++ provider.nodeName) with
    | .ok v => v
    -- container metadata will be incomplete
    | .error _ => .null
  let metas := parsePodMetas podList
  let (cpu, memory, disk) :=
    nodeStatusParts summary.node nodeMeta.capacityCores nodeMeta.capacityMemBytes
  return {
    id := provider.nodeName
    hostname := nodeMeta.hostname
    orchestrator := "kubernetes"
    disk, cpu, memory
    tasks := summary.containerStatuses metas nodeMeta.capacityCores
    engineVersion := nodeMeta.engineVersion
    apiVersion := nodeMeta.apiVersion
    kernelVersion := nodeMeta.kernelVersion
    agentVersion := packageVersion }

/-- The document that a tick reads the summary from. -/
def summaryDocument : Except ε Value := do
  let node ← provider.client.getJson ("/api/v1/nodes/" ++ provider.nodeName)
  provider.fetchSummary (parseNodeMeta node).internalIp

/-- **A tick succeeds** exactly if there is a summary and it can be read. -/
theorem isOk_status {v : Value} (h : provider.summaryDocument = .ok v) :
    provider.status.isOk = (Summary.fromValue v).isSome := by
  unfold summaryDocument at h
  unfold status
  cases hnode : provider.client.getJson ("/api/v1/nodes/" ++ provider.nodeName) with
  | error e =>
      rw [hnode] at h
      cases h
  | ok node =>
      rw [hnode] at h
      have hsummary : provider.fetchSummary (parseNodeMeta node).internalIp = .ok v := h
      simp only [Except.mapError, bind, Except.bind, hsummary]
      cases Summary.fromValue v <;> rfl

end KubernetesProvider

/-! ## Fields that are `null` -/

/-- **`null` and absence in the summary.**  Wherever a field of one of the ten types occurs in a
document, the same summary is read, or none, with `null` in its place as without it, exactly if it
is an `Option` or no summary is read without it; and when one is, the tick succeeds in spite of
the `null` exactly if the field is an `Option`. -/
theorem null_eq_absent_iff {ε : Type} {path : List Step} {fields : List (FieldDecl Schema)}
    {f : FieldDecl Schema} (hsite : Site summarySchema path fields) (hf : f ∈ fields) {v : Value}
    (hocc : v.Occurs path f.key) :
    let nulled := v.modify (Value.nullMember f.key) path
    let removed := v.modify (Value.removeMember f.key) path
    (Summary.fromValue nulled = Summary.fromValue removed ↔
        f.type.IsOption ∨ ¬summarySchema.Conforms removed) ∧
      ∀ provider : KubernetesProvider ε, provider.summaryDocument = .ok nulled →
        summarySchema.Conforms removed → (provider.status.isOk = true ↔ f.type.IsOption) := by
  intro nulled removed
  refine ⟨map_decode_null_eq_remove_iff (s := summarySchema) Summary.ofVal
    summarySchema_distinct hsite hf hocc, fun provider hdocument hconforms ↦ ?_⟩
  rw [provider.isOk_status hdocument]
  constructor
  · -- anything else fails to be read
    intro hsome
    by_contra hopt
    have hnone : Summary.fromValue nulled = none :=
      congrArg (Option.map Summary.ofVal) (decode_null_eq_none hsite hf hopt hocc)
    rw [hnone] at hsome
    exact Bool.false_ne_true hsome
  · intro hopt
    have heq : Summary.fromValue nulled = Summary.fromValue removed :=
      congrArg (Option.map Summary.ofVal)
        (decode_null_eq_remove summarySchema_distinct hsite hf hopt v)
    rw [heq]
    exact (Summary.isSome_fromValue_iff _).mpr hconforms

/-! ### A pod without containers -/

/-- A summary with one pod, whose containers are what is given. -/
def podDocument (containers : Value) : Value :=
  .object [("node", .object []), ("pods", .array [.object [
    ("podRef", .object [("name", .string "web-1"), ("namespace", .string "prod")]),
    ("containers", containers)]])]

/-- Where the fields of the pod are. -/
def podPath : List Step := [.member "pods", .elem 0]

theorem podPath_site : Site summarySchema podPath podSummaryFields :=
  .member (f := defaulted "pods" (.vec (.struct podSummaryFields))) (by simp [summaryFields])
    (.elem 0 .here)

/-- A node whose kubelet reports the document. -/
def reporting (document : Value) : KubernetesProvider Unit where
  client := { getJson := fun _ ↦ .ok .null, kubeletGetJson := fun _ ↦ .ok document }
  kubeletMode := .direct
  nodeIp := some "10.0.0.1"
  nodeName := "node-1"

/-- The list of containers is not an `Option`, and the summary can be read without it. -/
theorem null_eq_absent_iff_containers :
    Summary.fromValue (podDocument .null) ≠ Summary.fromValue
        ((podDocument .null).modify (Value.removeMember "containers") podPath) ∧
      ¬(reporting (podDocument .null)).status.isOk = true := by
  have hf : defaulted "containers" (.vec (.struct containerSampleFields)) ∈ podSummaryFields := by
    simp [podSummaryFields]
  have hconforms : summarySchema.Conforms
      ((podDocument .null).modify (Value.removeMember "containers") podPath) :=
    (Summary.isSome_fromValue_iff _).mp rfl
  obtain ⟨heq, hstatus⟩ :=
    null_eq_absent_iff podPath_site hf (v := podDocument .null) ⟨_, rfl, rfl⟩
  constructor
  · intro h
    exact (heq.mp h).elim id (absurd hconforms)
  · exact (hstatus (reporting (podDocument .null)) rfl hconforms).not.mpr id

/-- A list of containers that is `null` fails the tick, one that is missing does not. -/
theorem null_containers_fail :
    let f := defaulted "containers" (.vec (.struct containerSampleFields))
    let removed := (podDocument .null).modify (Value.removeMember f.key) podPath
    f ∈ podSummaryFields ∧ Site summarySchema podPath podSummaryFields ∧
      (podDocument .null).Occurs podPath f.key ∧
      (podDocument .null).modify (Value.nullMember f.key) podPath = podDocument .null ∧
      (reporting (podDocument .null)).status.isOk = false ∧
      (reporting removed).status.isOk = true := by
  refine ⟨by simp [podSummaryFields], podPath_site, ⟨_, rfl, rfl⟩, rfl, rfl, rfl⟩

end Swarmagent.Kubernetes
