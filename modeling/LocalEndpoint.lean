import LocalEndpoint.Journal
import LocalEndpoint.Json.Formats
import LocalEndpoint.Proofs.Address
import LocalEndpoint.Proofs.Admission
import LocalEndpoint.Proofs.Backoff
import LocalEndpoint.Proofs.Backpressure
import LocalEndpoint.Proofs.Callbacks
import LocalEndpoint.Proofs.Closing
import LocalEndpoint.Proofs.Connecting
import LocalEndpoint.Proofs.Conservation
import LocalEndpoint.Proofs.Delivery
import LocalEndpoint.Proofs.Desertion
import LocalEndpoint.Proofs.Dispatching
import LocalEndpoint.Proofs.Display
import LocalEndpoint.Proofs.FailedListen
import LocalEndpoint.Proofs.Grant
import LocalEndpoint.Proofs.Headroom
import LocalEndpoint.Proofs.Isolation
import LocalEndpoint.Proofs.Json.Partial
import LocalEndpoint.Proofs.Json.RoundTrip
import LocalEndpoint.Proofs.Lifecycle
import LocalEndpoint.Proofs.ListenerClosing
import LocalEndpoint.Proofs.Listening
import LocalEndpoint.Proofs.Naming
import LocalEndpoint.Proofs.Preemption
import LocalEndpoint.Proofs.Reporting
import LocalEndpoint.Proofs.Rounding
import LocalEndpoint.Proofs.Scene.Crowd
import LocalEndpoint.Proofs.Singular
import LocalEndpoint.Proofs.Sockets.Keeping
import LocalEndpoint.Proofs.Sockets.Retiring
import LocalEndpoint.Proofs.Streaming
import LocalEndpoint.Rehearsal.Steps
import LocalEndpoint.Unix.PathMap
import LocalEndpoint.Unix.Session.Steps
import LocalEndpoint.Unix.Utf8
import LocalEndpoint.Unix.Volume.Sweep
