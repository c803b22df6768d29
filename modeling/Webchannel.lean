import Webchannel.Lib.Runs
import Webchannel.Lib.Effect
import Webchannel.Lib.Tally
import Webchannel.Lib.Program
import Webchannel.Retention.Budget
import Webchannel.Retention.Accounting
import Webchannel.Retention.Calls
import Webchannel.Retention.Ledger
import Webchannel.Lib.Heap
import Webchannel.Lib.Gate
import Webchannel.Lib.LengthPrefix
import Webchannel.Dispatch.Queue
import Webchannel.Dispatch.Invariant
import Webchannel.Dispatch.Offers
import Webchannel.Dispatch.Draining
import Webchannel.Dispatch.Turns
import Webchannel.Dispatch.Disposal
import Webchannel.Dispatch.Serial
import Webchannel.Outcome.Store
import Webchannel.Outcome.Invariant
import Webchannel.Outcome.Quarantine
import Webchannel.Debounce.Queue
import Webchannel.Debounce.Flow
import Webchannel.Debounce.Uniqueness
import Webchannel.Lib.OrderedMap
import Webchannel.Lib.Utf8
import Webchannel.Lib.Reentrant
import Webchannel.Lib.Scanner
import Webchannel.Approval.Registry
import Webchannel.Approval.Soundness
import Webchannel.Ingress.Chunks
import Webchannel.Ingress.Flush
import Webchannel.Ingress.Soundness
import Webchannel.Nats.Connection
import Webchannel.Nats.Framing
import Webchannel.Nats.Chunking
import Webchannel.Nats.Browser
import Webchannel.Nats.Agreement
import Webchannel.Nats.Barrier
import Webchannel.Session.State
import Webchannel.Session.Socket
import Webchannel.Session.Sending
import Webchannel.Session.Flow
import Webchannel.Session.View
import Webchannel.Session.Ownership
import Webchannel.Session.Outline
import Webchannel.Session.Refinement
import Webchannel.Session.Entries
import Webchannel.Session.Pending
import Webchannel.Session.Inert
import Webchannel.Session.Observed
import Webchannel.Enrollment.Repository
import Webchannel.Enrollment.Registry
import Webchannel.Enrollment.DeviceFlow
import Webchannel.Enrollment.Identity
import Webchannel.Lease.Handover
import Webchannel.Lease.Coordinator
import Webchannel.Lease.Invariant
import Webchannel.Lease.Steps
import Webchannel.Lease.Safety
import Webchannel.Approval.Delivery
import Webchannel.Wrapper.History
import Webchannel.Keys.Operations
import Webchannel.Keys.Lifetime
import Webchannel.Keys.Rotator
import Webchannel.Keys.Downgrade
import Webchannel.Migration.Mutex
import Webchannel.Wrapper.Approvals
import Webchannel.Lib.Rfc8439
import Webchannel.Crypto.ChaCha20Poly1305
import Webchannel.Crypto.CipherAgreement
import Webchannel.Lib.JsString
import Webchannel.Lib.Json
import Webchannel.Register.PopChallenge
import Webchannel.Register.Handler
import Webchannel.Register.Answers
import Webchannel.Register.Nonces
import Webchannel.Register.Spending
import Webchannel.Lib.JsonText
import Webchannel.Lib.Base64
import Webchannel.Envelope.Codec
import Webchannel.Envelope.Agreement
import Webchannel.Envelope.KeyWrap
import Webchannel.Envelope.KeyDelivery
import Webchannel.Draft.Markers
import Webchannel.Activity.Correlation
import Webchannel.Activity.Sink
import Webchannel.Activity.Privacy
import Webchannel.Lib.Groups
import Webchannel.Activity.Hiding
import Webchannel.Nats.Subjects
import Webchannel.Jwks.Cache
import Webchannel.Jwks.Interleaving
import Webchannel.Storage.Identity
import Webchannel.Storage.Credentials
import Webchannel.Storage.Binding
import Webchannel.Lib.JsonIndent
import Webchannel.Lib.JsonDouble
import Webchannel.Lib.JsObject
import Webchannel.Storage.Documents
import Webchannel.Bootstrap.Decoding
import Webchannel.Bootstrap.Claims
import Webchannel.Bootstrap.Verify
import Webchannel.Bootstrap.Admission
import Webchannel.Rotation.Digest
import Webchannel.Rotation.Rotator
import Webchannel.Rotation.Verified
import Webchannel.Rotation.Reviewed
import Webchannel.Ingress.Lossless
import Webchannel.Channel.Registry
import Webchannel.Channel.Peers
import Webchannel.Channel.Law
import Webchannel.Channel.Replay
import Webchannel.Lib.Distinct
import Webchannel.Dispatch.Coalesce
import Webchannel.Debounce.Activity
import Webchannel.Lib.Log
import Webchannel.Overflow.Resolver
import Webchannel.Overflow.Indexes
import Webchannel.Overflow.Story
import Webchannel.Overflow.Accounting
import Webchannel.Ingress.Lane
import Webchannel.Ingress.Barrier
import Webchannel.Wrapper.Adoption
import Webchannel.Wrapper.Bubbles
import Webchannel.Wrapper.Identity
import Webchannel.Lib.Registrations
import Webchannel.Redial.Client
import Webchannel.Redial.Socket
import Webchannel.Redial.Transport
import Webchannel.Redial.Resubscription
import Webchannel.Redial.Replay
import Webchannel.Redial.Survival
import Webchannel.Lib.JsonDocument
import Webchannel.Lease.Fingerprint
import Webchannel.Draft.Quarantine
import Webchannel.History.Paging
import Webchannel.History.Slices
import Webchannel.History.Pages
import Webchannel.History.Envelopes
import Webchannel.History.Quoted
import Webchannel.Reasoning.Controller
import Webchannel.Reasoning.Bursts
import Webchannel.Wrapper.Snapshot
import Webchannel.Wrapper.Conservation
import Webchannel.Lib.Watched
import Webchannel.Session.Watch
import Webchannel.Session.Schedule
import Webchannel.Session.Arming
import Webchannel.Session.Covering
import Webchannel.Session.Retrying
import Webchannel.Session.LiveRetry
import Webchannel.Lib.Bits
import Webchannel.Nats.NkeySign
import Webchannel.Nats.UserCreds
import Webchannel.Lib.JsonWords
import Webchannel.TrustChain.PrivateFile
import Webchannel.TrustChain.Setup
import Webchannel.TrustChain.Persistent
import Webchannel.Rotation.Invocation
import Webchannel.Rotation.Host
import Webchannel.Rotation.Command
import Webchannel.Rotation.Truth
import Webchannel.Nats.CredentialLedger
import Webchannel.Nats.LedgerRuns
