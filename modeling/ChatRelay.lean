import ChatRelay.Config.Validity
import ChatRelay.Replay
import ChatRelay.Server.Operation
import ChatRelay.Proofs.Hub.Run
import ChatRelay.Proofs.Hub.Delivery
import ChatRelay.Proofs.Batch
import ChatRelay.Proofs.Table
import ChatRelay.Proofs.Message.Lookup
import ChatRelay.Proofs.Hub.Isolation
import ChatRelay.Proofs.Json.Print
import ChatRelay.Proofs.Change.Fingerprint
import ChatRelay.Proofs.Change.Sightings
import ChatRelay.Proofs.Hub.Suppression
import ChatRelay.Proofs.Hub.Redelivery
import ChatRelay.Proofs.Server.Rounds
import ChatRelay.Proofs.Relay.Run
import ChatRelay.Proofs.Relay.Intake
import ChatRelay.Proofs.Relay.Lifetime
import ChatRelay.Proofs.Store.Deletion
import ChatRelay.Proofs.Store.Redaction
import ChatRelay.Proofs.Control.Reply
import ChatRelay.Proofs.Session.Run
import ChatRelay.Proofs.Session.Acknowledgement
import ChatRelay.Proofs.Session.Transcript
import ChatRelay.Proofs.Connection.Line
import ChatRelay.Proofs.Session.Teardown
import ChatRelay.Proofs.Server.Sessions
import ChatRelay.Proofs.Store.Encryption
import ChatRelay.Proofs.Store.Rooms
import ChatRelay.Proofs.Store.Separation
import ChatRelay.Proofs.Store.Retrieval
import ChatRelay.Proofs.Store.Leaving
import ChatRelay.Proofs.Replay
import ChatRelay.Proofs.Subscription
import ChatRelay.Proofs.Registry.History
import ChatRelay.Proofs.Codec
import ChatRelay.Proofs.Change.OfBatch
import ChatRelay.Proofs.Change.Verdict
import ChatRelay.Proofs.Http.Access
import ChatRelay.Proofs.Source
import ChatRelay.Proofs.Hub.Effect
import ChatRelay.Proofs.Change.Debounce
import ChatRelay.Proofs.Change.Preimage
import ChatRelay.Proofs.Control.Command
import ChatRelay.Proofs.Distinct
import ChatRelay.Proofs.Message.Reactions
import ChatRelay.Proofs.Message.Times
import ChatRelay.Proofs.Message.OneByOne
import ChatRelay.Proofs.Message.Failures
import ChatRelay.Proofs.Store.Lookup
import ChatRelay.Proofs.Message.Attachments
import ChatRelay.Proofs.Text.FormQuery
import ChatRelay.Proofs.Http.Credentials
import ChatRelay.Proofs.Json.Reading
import ChatRelay.Proofs.Control.NormalForm
import ChatRelay.Proofs.Message.Tally
import ChatRelay.Proofs.Store.Arrival
import ChatRelay.Proofs.Change.Tracking
import ChatRelay.Proofs.Config.Startup
