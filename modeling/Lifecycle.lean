import Lifecycle.CommandLine.Run
import Lifecycle.Json
import Lifecycle.Json.Parser
import Lifecycle.Json.Schema
import Lifecycle.Json.Value
import Lifecycle.Main
import Lifecycle.Matrix
import Lifecycle.Proofs.Answers
import Lifecycle.Proofs.Backing
import Lifecycle.Proofs.Bounds
import Lifecycle.Proofs.ByteOrder
import Lifecycle.Proofs.Cached
import Lifecycle.Proofs.Coherence
import Lifecycle.Proofs.Commit
import Lifecycle.Proofs.Declaring
import Lifecycle.Proofs.DetachedChanges
import Lifecycle.Proofs.Detaching
import Lifecycle.Proofs.Evicting
import Lifecycle.Proofs.FailedCommit
import Lifecycle.Proofs.FailedLoads
import Lifecycle.Proofs.Failures
import Lifecycle.Proofs.Following
import Lifecycle.Proofs.Groups
import Lifecycle.Proofs.Hollow
import Lifecycle.Proofs.Isolation
import Lifecycle.Proofs.JsonText
import Lifecycle.Proofs.JsonValues
import Lifecycle.Proofs.Origins
import Lifecycle.Proofs.PendingWrites
import Lifecycle.Proofs.Reading
import Lifecycle.Proofs.Recording
import Lifecycle.Proofs.Refreshing
import Lifecycle.Proofs.Refusals
import Lifecycle.Proofs.RepeatableReads
import Lifecycle.Proofs.Rereading
import Lifecycle.Proofs.Restoring
import Lifecycle.Proofs.Retrieving
import Lifecycle.Proofs.Rollback
import Lifecycle.Proofs.RowMap
import Lifecycle.Proofs.Scripts
import Lifecycle.Proofs.Selecting
import Lifecycle.Proofs.SharedStore
import Lifecycle.Proofs.Simulating
import Lifecycle.Proofs.Snapshots
import Lifecycle.Proofs.StoredKeys
import Lifecycle.Proofs.Writing
import Lifecycle.Proofs.WrittenFields
import Lifecycle.Proofs.WrittenSteps
import Lifecycle.Scenario.Simulation
import Lifecycle.Session.Call
import Lifecycle.Transition
