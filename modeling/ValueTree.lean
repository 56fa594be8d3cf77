import ValueTree.Json.Tree
import ValueTree.Main
import ValueTree.Message.Json
import ValueTree.Observers.Scripted
import ValueTree.Proofs.CommandLine.Reading
import ValueTree.Proofs.Fragment.Checking
import ValueTree.Proofs.Fragment.Refusing
import ValueTree.Proofs.Fragment.Undoing
import ValueTree.Proofs.Frame.RoundTrip
import ValueTree.Proofs.Id.Building
import ValueTree.Proofs.Loader.Circling
import ValueTree.Proofs.Message.Cbor
import ValueTree.Proofs.Payload.Terms
import ValueTree.Proofs.Session.Access
import ValueTree.Proofs.Session.Completions
import ValueTree.Proofs.Session.Connections
import ValueTree.Proofs.Session.Coverage
import ValueTree.Proofs.Session.Handing
import ValueTree.Proofs.Session.Listening
import ValueTree.Proofs.Session.Reports
import ValueTree.Proofs.Session.Restraint
import ValueTree.Proofs.Session.Resync
import ValueTree.Proofs.Session.Streams
import ValueTree.Proofs.Store.KeyOrder
import ValueTree.Proofs.Store.Searching
import ValueTree.Proofs.Store.TakingBack
import ValueTree.Proofs.Store.Untouched
import ValueTree.Proofs.Sync.Filtering
import ValueTree.Proofs.Sync.Generations
import ValueTree.Proofs.Sync.Mirroring
import ValueTree.Proofs.Sync.Outbox
import ValueTree.Proofs.Sync.Settling
import ValueTree.Proofs.Sync.Snapshot
import ValueTree.Proofs.Sync.Stopping
import ValueTree.Rig
import ValueTree.Session.Run
import ValueTree.Sync.Loopback
import ValueTree.Sync.Strand
