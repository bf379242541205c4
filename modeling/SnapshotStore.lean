import SnapshotStore.CommandLine
import SnapshotStore.Depot
import SnapshotStore.Main
import SnapshotStore.Proofs.OffsetKey
import SnapshotStore.Proofs.Script
import SnapshotStore.Proofs.RunAlone
import SnapshotStore.Proofs.Unsteady
import SnapshotStore.Proofs.Queue.Calls
import SnapshotStore.Proofs.Queue.Course
import SnapshotStore.Proofs.Queue.Following
import SnapshotStore.Proofs.Partition
import SnapshotStore.Proofs.Queue.Agreement
import SnapshotStore.Proofs.Queue.Opening
import SnapshotStore.Proofs.Queue.Line
import SnapshotStore.Proofs.Queue.Faults
import SnapshotStore.Proofs.Text.Utf8
import SnapshotStore.Proofs.Text.WellFormed
import SnapshotStore.Proofs.Text.Order
import SnapshotStore.Proofs.Snapshot.TaggedRecords
import SnapshotStore.Proofs.Snapshot.Cbor
import SnapshotStore.Proofs.Snapshot.Format
import SnapshotStore.Proofs.Snapshot.Lookahead
import SnapshotStore.Proofs.Snapshot.Truncation
import SnapshotStore.Proofs.Id
import SnapshotStore.Proofs.Time.Calendar
import SnapshotStore.Proofs.Time.Stamp
import SnapshotStore.Proofs.Json.Reading
import SnapshotStore.Proofs.Json.Indented
import SnapshotStore.Proofs.Manifest
import SnapshotStore.Proofs.Disk
import SnapshotStore.Proofs.Engine
import SnapshotStore.Proofs.Engine.Usage
import SnapshotStore.Proofs.Snapshot.FileName
import SnapshotStore.Proofs.Snapshot.Escapes
import SnapshotStore.Proofs.Snapshot.Paths
import SnapshotStore.Proofs.Backup.Site
import SnapshotStore.Proofs.Backup.Upholds
import SnapshotStore.Proofs.Backup.Pages
import SnapshotStore.Proofs.Backup.Interleaving
import SnapshotStore.Proofs.Backup.Stored
import SnapshotStore.Proofs.Backup.Restore
import SnapshotStore.Proofs.Backup.Snapshot
import SnapshotStore.Proofs.Backup.Opening
import SnapshotStore.Proofs.Backup.Stop
import SnapshotStore.Proofs.Backup.Lives
import SnapshotStore.Proofs.Backup.Clearing
import SnapshotStore.Proofs.Backup.AllOrNothing
import SnapshotStore.Proofs.Backup.Leaves
import SnapshotStore.Proofs.Backup.Reachable
import SnapshotStore.Proofs.Backup.Failure
import SnapshotStore.Proofs.Depot.Growth
import SnapshotStore.Proofs.Queue.Bounds
import SnapshotStore.Proofs.Depot.OneWriter
import SnapshotStore.Proofs.Depot.Refusal
import SnapshotStore.Proofs.Crowd
import SnapshotStore.Proofs.Queue.Crowd
import SnapshotStore.Proofs.Queue.Turns
import SnapshotStore.Proofs.Queue.Sharing
import SnapshotStore.Proofs.Queue.Tasks
import SnapshotStore.Proofs.Queue.Concurrent
import SnapshotStore.Proofs.Queue.Reopening
import SnapshotStore.Proofs.Queue.Undisturbed
import SnapshotStore.Proofs.Queue.Renewal
import SnapshotStore.Proofs.Queue.Emptiness
import SnapshotStore.Proofs.Json.Numbers
import SnapshotStore.Proofs.Json.Compact
import SnapshotStore.Proofs.Json.Stored
import SnapshotStore.Proofs.Store.KeyOrder
import SnapshotStore.Proofs.Codec.Key
import SnapshotStore.Proofs.Store.Typed
import SnapshotStore.Proofs.Store.Envelope
import SnapshotStore.Proofs.Store.Legacy
import SnapshotStore.Proofs.Store.Texts
import SnapshotStore.Proofs.Store.Sealing
import SnapshotStore.Proofs.Store.EntityCalls
import SnapshotStore.Proofs.Store.Confined
import SnapshotStore.Proofs.Store.Concurrent
import SnapshotStore.Proofs.Base64
import SnapshotStore.Proofs.Cipher.Encryptor
import SnapshotStore.Proofs.Store.Unsealed
import SnapshotStore.Proofs.Store.FiniteMap
import SnapshotStore.Proofs.Backup.Asks
import SnapshotStore.Proofs.Backup.EngineCalls
import SnapshotStore.Proofs.Report.Verify
import SnapshotStore.Proofs.Report.Strays
import SnapshotStore.Proofs.Backup.Edits
import SnapshotStore.Proofs.Backup.Tracking
import SnapshotStore.Proofs.Backup.Tidying
import SnapshotStore.Proofs.Backup.Minding
import SnapshotStore.Proofs.Backup.Reloading
import SnapshotStore.Proofs.Partition.Contents
import SnapshotStore.Proofs.Partition.Size
import SnapshotStore.Proofs.Stack.Transparency
import SnapshotStore.Proofs.Space.Guard
