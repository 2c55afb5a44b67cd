import Swarmagent.Json.Site
import Swarmagent.Kubernetes.Summary

/-!
# The format of `/stats/summary`

The ten types of `summary.rs` derive `Deserialize`.  This file has what they derive it from, one
list of fields for each, and `serde_json::from_value::<Summary>`, which reads a document by the
schema of the outermost type.

Two things make a field dispensable here: a type that is an `Option`, and the attribute
`#[serde(default)]`.  Only `node` and `podRef` have neither.
-/

namespace Swarmagent.Kubernetes

open Swarmagent.Json

/-! ## Fields -/

/-- A field of type `Option<T>`. -/
def optional (key : String) (type : Schema) : FieldDecl Schema := ⟨key, false, .option type⟩

/-- A field with the attribute `#[serde(default)]`. -/
def defaulted (key : String) (type : Schema) : FieldDecl Schema := ⟨key, true, type⟩

/-- A field with neither. -/
def required (key : String) (type : Schema) : FieldDecl Schema := ⟨key, false, type⟩

def cpuSampleFields : List (FieldDecl Schema) := [optional "usageNanoCores" .u64]

def memorySampleFields : List (FieldDecl Schema) :=
  [optional "availableBytes" .u64, optional "workingSetBytes" .u64]

def fsSampleFields : List (FieldDecl Schema) :=
  [optional "capacityBytes" .u64, optional "usedBytes" .u64, optional "availableBytes" .u64]

def nodeSummaryFields : List (FieldDecl Schema) :=
  [optional "cpu" (.struct cpuSampleFields), optional "memory" (.struct memorySampleFields),
    optional "fs" (.struct fsSampleFields)]

def containerSampleFields : List (FieldDecl Schema) :=
  [defaulted "name" .string, optional "cpu" (.struct cpuSampleFields),
    optional "memory" (.struct memorySampleFields)]

def interfaceSampleFields : List (FieldDecl Schema) :=
  [optional "rxBytes" .u64, optional "txBytes" .u64]

def networkSampleFields : List (FieldDecl Schema) :=
  [optional "rxBytes" .u64, optional "txBytes" .u64,
    defaulted "interfaces" (.vec (.struct interfaceSampleFields))]

def podRefFields : List (FieldDecl Schema) :=
  [defaulted "name" .string, defaulted "namespace" .string]

def podSummaryFields : List (FieldDecl Schema) :=
  [required "podRef" (.struct podRefFields),
    defaulted "containers" (.vec (.struct containerSampleFields)),
    optional "network" (.struct networkSampleFields)]

def summaryFields : List (FieldDecl Schema) :=
  [required "node" (.struct nodeSummaryFields), defaulted "pods" (.vec (.struct podSummaryFields))]

def summarySchema : Schema := .struct summaryFields

theorem summarySchema_distinct : summarySchema.distinct = true := by decide

/-! ## Values

What is read by the fields of a type, as a value of the type. -/

def CpuSample.ofVal : FieldsVal cpuSampleFields → CpuSample
  | (usageNanoCores, ()) => { usageNanoCores }

def MemorySample.ofVal : FieldsVal memorySampleFields → MemorySample
  | (availableBytes, workingSetBytes, ()) => { availableBytes, workingSetBytes }

def FsSample.ofVal : FieldsVal fsSampleFields → FsSample
  | (capacityBytes, usedBytes, availableBytes, ()) => { capacityBytes, usedBytes, availableBytes }

def NodeSummary.ofVal : FieldsVal nodeSummaryFields → NodeSummary
  | (cpu, memory, fs, ()) =>
      { cpu := Option.map CpuSample.ofVal cpu
        memory := Option.map MemorySample.ofVal memory
        fs := Option.map FsSample.ofVal fs }

def ContainerSample.ofVal : FieldsVal containerSampleFields → ContainerSample
  | (name, cpu, memory, ()) =>
      { name
        cpu := Option.map CpuSample.ofVal cpu
        memory := Option.map MemorySample.ofVal memory }

def InterfaceSample.ofVal : FieldsVal interfaceSampleFields → InterfaceSample
  | (rxBytes, txBytes, ()) => { rxBytes, txBytes }

def NetworkSample.ofVal : FieldsVal networkSampleFields → NetworkSample
  | (rxBytes, txBytes, interfaces, ()) =>
      { rxBytes, txBytes, interfaces := List.map InterfaceSample.ofVal interfaces }

def Summary.PodRef.ofVal : FieldsVal podRefFields → Summary.PodRef
  | (name, ns, ()) => { name, ns }

def PodSummary.ofVal : FieldsVal podSummaryFields → PodSummary
  | (podRef, containers, network, ()) =>
      { toPodRef := Summary.PodRef.ofVal podRef
        containers := List.map ContainerSample.ofVal containers
        network := Option.map NetworkSample.ofVal network }

def Summary.ofVal : FieldsVal summaryFields → Summary
  | (node, pods, ()) => { node := NodeSummary.ofVal node, pods := List.map PodSummary.ofVal pods }

/-- `serde_json::from_value::<Summary>(v)`, or `none` if it is an error. -/
def Summary.fromValue (v : Value) : Option Summary := (summarySchema.decode v).map Summary.ofVal

theorem Summary.isSome_fromValue_iff (v : Value) :
    (Summary.fromValue v).isSome = true ↔ summarySchema.Conforms v := by
  have hmap : (Summary.fromValue v).isSome = (summarySchema.decode v).isSome := Option.isSome_map
  rw [hmap, summarySchema.isSome_decode_iff]

end Swarmagent.Kubernetes
