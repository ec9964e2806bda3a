import Gatekeeper.Dispatch.Dispatcher
import Gatekeeper.Operation.Counter
import Gatekeeper.Text.Align
import Gatekeeper.Main
import Gatekeeper.Proofs.Service.Authorization
import Gatekeeper.Proofs.Dispatch.Indistinguishable
import Gatekeeper.Proofs.Envelope.Format
import Gatekeeper.Proofs.Json.Scalars
import Gatekeeper.Proofs.Json.RoundTrip
import Gatekeeper.Proofs.Envelope.RoundTrip
import Gatekeeper.Proofs.Dispatch.Sealed
import Gatekeeper.Proofs.Command.Drafts
import Gatekeeper.Proofs.Operation.Accounting
import Gatekeeper.Proofs.Database.Founded
import Gatekeeper.Proofs.Database.Mirror
import Gatekeeper.Proofs.Text.Order
import Gatekeeper.Proofs.Service.Twins
import Gatekeeper.Proofs.Database.Again
import Gatekeeper.Proofs.Server.Lookups
import Gatekeeper.Proofs.Dispatch.Audited
import Gatekeeper.Proofs.Dispatch.Asking
import Gatekeeper.Proofs.Service.Soundness
import Gatekeeper.Proofs.Service.Tampered
import Gatekeeper.Proofs.Dispatch.Noninterference
import Gatekeeper.Proofs.Dispatch.Classification
import Gatekeeper.Proofs.Settings.Checks
import Gatekeeper.Proofs.Endpoint.Registry
import Gatekeeper.Proofs.Server.Startup
import Gatekeeper.Proofs.Database.Admitted
import Gatekeeper.Proofs.Database.Kept
import Gatekeeper.Proofs.Command.Lifecycle
import Gatekeeper.Proofs.Server.AuditLog
import Gatekeeper.Proofs.Server.AuditTrail
import Gatekeeper.Proofs.Command.Failures
import Gatekeeper.Proofs.Settings.Acceptance
import Gatekeeper.Proofs.Database.Breakdown
import Gatekeeper.Proofs.Schema.Violations
import Gatekeeper.Proofs.Json.Grammar
import Gatekeeper.Proofs.Json.Shaped
import Gatekeeper.Proofs.Json.Records
import Gatekeeper.Proofs.Dispatch.Decoding
import Gatekeeper.Proofs.Command.Successes
import Gatekeeper.Proofs.Text.Digits
import Gatekeeper.Proofs.Capability.Spelling
import Gatekeeper.Proofs.Command.Revocation
import Gatekeeper.Proofs.Command.Seeding
import Gatekeeper.Proofs.Server.Posts
