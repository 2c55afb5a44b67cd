import Swarmagent.Rust.F64

/-!
# Payloads

What the agent sends to Swarmbot on every stats tick, from either provider.  Quantities that the
code keeps as `f64` are `F64` here too, or numbers of another arithmetic where a formula is looked
at for itself.
-/

namespace Swarmagent

open Rust

/-- Root filesystem capacity and usage in bytes. -/
structure DiskStatus (F : Type := F64) where
  total : UInt64
  used : UInt64
  /-- Used space as a percentage of total. -/
  usedPercentage : F
  /-- Available space. -/
  free : UInt64

/-- Host CPU utilisation. -/
structure CpuStatus (F : Type := F64) where
  usedPercentage : F
  /-- Number of logical CPU cores, an `i32`. -/
  cores : ℤ

/-- Host memory usage in bytes. -/
structure MemoryStatus (F : Type := F64) where
  total : UInt64
  /-- Used memory, which is what is not free. -/
  used : UInt64
  /-- Used memory as a percentage of total. -/
  usedPercentage : F
  free : UInt64

/-- Resource snapshot of a single running container. -/
structure ContainerStatus (F : Type := F64) where
  /-- As reported by Docker, or the name of the Kubernetes container. -/
  name : String
  /-- The Docker container id, or `"{namespace}/{pod}/{container}"`. -/
  id : String
  /-- The Kubernetes namespace of the pod. -/
  ns : Option String
  pod : Option String
  workload : Option String
  workloadKind : Option String
  /-- CPU usage relative to the host, 0 to 100 times the number of CPUs. -/
  cpuPercentage : F
  /-- Memory usage in bytes, without page cache. -/
  memory : F
  /-- In bytes, 0 for unlimited. -/
  memoryLimit : F
  /-- Memory usage as a percentage of the limit, 0 when the limit is 0. -/
  memoryPercentage : F
  networkRxBytes : UInt64
  networkTxBytes : UInt64
  blockReadBytes : UInt64
  blockWriteBytes : UInt64
  pids : UInt64
deriving DecidableEq

/-- The status of a container whose stats could not be fetched. -/
def ContainerStatus.empty {F : Type} [Zero F] (id : String) : ContainerStatus F where
  name := ""
  id := id
  ns := none
  pod := none
  workload := none
  workloadKind := none
  cpuPercentage := 0
  memory := 0
  memoryLimit := 0
  memoryPercentage := 0
  networkRxBytes := 0
  networkTxBytes := 0
  blockReadBytes := 0
  blockWriteBytes := 0
  pids := 0

/-- Full status snapshot posted on every stats tick. -/
structure Status where
  /-- The Docker Swarm node id, empty outside of Swarm mode, or the Kubernetes node name. -/
  id : String
  hostname : String
  /-- `"swarm"` or `"kubernetes"`. -/
  orchestrator : String
  disk : DiskStatus
  cpu : CpuStatus
  memory : MemoryStatus
  tasks : List ContainerStatus
  engineVersion : String
  apiVersion : String
  kernelVersion : String
  agentVersion : String

end Swarmagent
