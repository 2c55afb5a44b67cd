import Swarmagent.Json.Value
import Swarmagent.Kubernetes.Quantity
import Swarmagent.Kubernetes.Summary
import Swarmagent.Machine.Collect

/-!
# The pod list

The model of the rest of `pods.rs`: what the agent takes from the list of pods on its node, which is
for each pod the memory limits of its containers and the workload that owns it.

The list is read as an untyped document.  What is not there or of another type than expected is
passed over.
-/

namespace Swarmagent.Kubernetes

open Swarmagent.Json Swarmagent.Rust Machine

/-- `workload_from_owner`: the kind and the name of the workload.  A ReplicaSet is named
`<deployment>-<pod-template-hash>` and stands for its Deployment. -/
def workloadFromOwner (kind name : String) : String × String :=
  if kind = "ReplicaSet" then
    match rsplitOnce name '-' with
    | some (pre, _) => if pre = "" then (kind, name) else ("Deployment", pre)
    | none => (kind, name)
  else (kind, name)

/-- The array at a path. -/
def arrayAt (v : Value) (path : List String) : Option (List Value) :=
  (v.pointer path).bind Value.asArray

/-- `controller_owner`: the owner marked as the controller, or else the first owner. -/
def controllerOwner (pod : Value) : Option Value :=
  (arrayAt pod ["metadata", "ownerReferences"]).bind fun owners ↦
    (owners.find? fun o ↦ (o.get "controller").bind Value.asBool = some true).or owners.head?

/-- The workload of a pod, kind and name, if its owner has both. -/
def podWorkload (pod : Value) : Option (String × String) :=
  (controllerOwner pod).bind fun owner ↦
    let kind := owner.strAt ["kind"]
    let name := owner.strAt ["name"]
    if kind = "" ∨ name = "" then none else some (workloadFromOwner kind name)

/-- The name of a container of a pod and its memory limit, if it has both. -/
def memLimit (c : Value) : Option (String × UInt64) :=
  let cname := c.strAt ["name"]
  let limit := ((c.pointer ["resources", "limits", "memory"]).bind Value.asStr).bind
    (parseQuantityBytes F64)
  if cname = "" then none else limit.map fun bytes ↦ (cname, bytes)

/-- What is kept of a pod. -/
def podMeta (pod : Value) : PodMeta where
  workload := (podWorkload pod).map Prod.snd
  workloadKind := (podWorkload pod).map Prod.fst
  memLimits := collect memLimit ((arrayAt pod ["spec", "containers"]).getD [])

/-- The entry of a pod, if it has a namespace and a name. -/
def podEntry (pod : Value) : Option (String × PodMeta) :=
  let ns := pod.strAt ["metadata", "namespace"]
  let name := pod.strAt ["metadata", "name"]
  if ns = "" ∨ name = "" then none else some (ns ++ "/" ++ name, podMeta pod)

/-- `parse_pod_metas`: by `"{namespace}/{pod}"`, what is kept of the pods of a list. -/
def parsePodMetas (podList : Value) : Finmap fun _ : String ↦ PodMeta :=
  collect podEntry ((arrayAt podList ["items"]).getD [])

end Swarmagent.Kubernetes
