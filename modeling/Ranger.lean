import Ranger.Key
import Ranger.Api
import Ranger.Keyspace.Basic
import Ranger.Keyspace.Graph
import Ranger.Keyspace.Cover
import Ranger.Keyspace.Partition
import Ranger.Kv.Node
import Ranger.Kv.Invariant
import Ranger.Kv.Data
import Ranger.Kv.Move
import Ranger.Kv.Lifecycle
import Ranger.Kv.Cluster
import Ranger.Placement
import Ranger.Persister.Sql
import Ranger.Persister.RoundTrip
import Ranger.Orchestrator.Tick
import Ranger.Orchestrator.TickPlacement
import Ranger.Orchestrator.Frame
import Ranger.Orchestrator.Stable
import Ranger.Reconciler
import Ranger.Actuator.Parents
