import Waymark.Json.Outline
import Waymark.Main
import Waymark.Session.Remnant
import Waymark.Proofs.Bag.Built
import Waymark.Proofs.Document.Assigned
import Waymark.Proofs.Document.Accepted
import Waymark.Proofs.Document.Followed
import Waymark.Proofs.Document.Served
import Waymark.Proofs.History.Overtaking
import Waymark.Proofs.History.Reopened
import Waymark.Proofs.Trail.Recent
import Waymark.Proofs.Trail.Removal
import Waymark.Proofs.Document.Clocked
import Waymark.Proofs.Bag.Latest
import Waymark.Proofs.Settings.Deferred
import Waymark.Proofs.Document.InTurn
import Waymark.Proofs.Document.Watched
import Waymark.Proofs.Settings.Interleaved
import Waymark.Proofs.Bag.Dictionary
import Waymark.Proofs.Settings.Range
import Waymark.Proofs.Session.Settled
import Waymark.Proofs.Trail.Under
import Waymark.Proofs.Trail.Inserted
import Waymark.Proofs.Trail.TakenOver
import Waymark.Proofs.CommandLine.Forgotten
import Waymark.Proofs.Trail.Walk
import Waymark.Proofs.Trail.Arrival
import Waymark.Proofs.History.Pruned
import Waymark.Proofs.Bag.Collapsed
import Waymark.Proofs.Document.Reloaded
import Waymark.Proofs.Document.Copied
import Waymark.Proofs.Bag.Typed
import Waymark.Proofs.Settings.Rows
import Waymark.Proofs.Settings.Pinned
import Waymark.Proofs.CommandLine.Printed
import Waymark.Proofs.Settings.Shortcuts
import Waymark.Proofs.Disk.Ways
import Waymark.Proofs.Backup.Names
import Waymark.Proofs.Backup.Retained
import Waymark.Proofs.Backup.Ticks
import Waymark.Proofs.Backup.Snapshots
import Waymark.Proofs.Disk.Atomic
import Waymark.Proofs.Retry.Counted
import Waymark.Proofs.Bag.Named
import Waymark.Proofs.Instance
