import Swarmagent.Machine.Log
import Swarmagent.Kubernetes.Interleaving
import Swarmagent.Kubernetes.Deletion
import Swarmagent.Kubernetes.EventLog
import Swarmagent.Kubernetes.Container
import Swarmagent.Kubernetes.Pairing
import Swarmagent.Kubernetes.Replay
import Swarmagent.Kubernetes.Times
import Swarmagent.Kubernetes.Watch
import Swarmagent.Kubernetes.Reconnect
import Swarmagent.Docker.Stats
import Swarmagent.Docker.OneShot
import Swarmagent.Kubernetes.Summary
import Swarmagent.CpuPercentage
import Swarmagent.Json.Schema
import Swarmagent.Json.Site
import Swarmagent.Kubernetes.SummaryFormat
import Swarmagent.Machine.Rounding
import Swarmagent.Rust.F64
import Swarmagent.Rust.Float
import Swarmagent.Kubernetes.Quantity
import Swarmagent.Kubernetes.QuantityFormat
import Swarmagent.Kubernetes.Pods
import Swarmagent.Kubernetes.Owner
import Swarmagent.Kubernetes.MetadataJoin
import Swarmagent.Kubernetes.Identity
import Swarmagent.Kubernetes.NetworkTotals
import Swarmagent.Kubernetes.NodeStatus
import Swarmagent.Docker.CommandLine
import Swarmagent.Kubernetes.Status
import Swarmagent.Kubernetes.Termination
import Swarmagent.Docker.IoTotals
import Swarmagent.Kubernetes.Workload
import Swarmagent.Docker.EventStream
import Swarmagent.Config
import Swarmagent.Uri.Grammar
import Swarmagent.Kubernetes.Client
import Swarmagent.Kubernetes.Address
import Swarmagent.Json.Object
import Swarmagent.Machine.Concurrent
import Swarmagent.Machine.Pool
import Swarmagent.Machine.Backoff
import Swarmagent.Machine.Interval
import Swarmagent.Machine.Checks
import Swarmagent.Host
import Swarmagent.Docker.Collect
import Swarmagent.Payload
import Swarmagent.Sink
import Swarmagent.Provider
import Swarmagent.Agent
import Swarmagent.Tasks
import Swarmagent.Delivery
import Swarmagent.Environment
import Swarmagent.Machine.Program
import Swarmagent.Kubernetes.Requests
import Swarmagent.Kubernetes.Transport
import Swarmagent.Kubernetes.Lifecycle
import Swarmagent.Startup
import Swarmagent.Backoff
