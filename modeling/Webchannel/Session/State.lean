import Webchannel.Lib.OrderedMap
import Webchannel.Lib.Reentrant
import Mathlib.Data.Rat.Floor

/-!
# The browser client: state

The fields of the high-level client and of the socket it owns. Objects that the source
compares by reference carry what identifies them: a ledger entry its stamp, a session key
the connection flow that unwrapped it.
-/

namespace Webchannel.Session

open Webchannel.Reentrant

abbrev WireId := String

inductive SendState where
  | queued | sent | accepted | failed
  deriving DecidableEq, Repr

/-- The forward rank of the monotonic guard; `failed` is handled on its own. -/
def SendState.rank : SendState → Nat
  | .queued => 0
  | .sent => 1
  | .accepted => 2
  | .failed => 3

inductive ErrorCause where
  | authExpired | authRejected | protocolMismatch | secureChannelFailed | capacity | server | unknown
  deriving DecidableEq, Repr

inductive FailureReason where
  | closed | evicted | terminal (cause : ErrorCause) | overloaded
  deriving DecidableEq, Repr

structure SendFailure where
  reason : FailureReason
  retryable : Bool
  lastAttemptAt : Option Int
  deriving DecidableEq, Repr

structure TrackerEntry where
  state : SendState
  failure : Option SendFailure
  lastAttemptAt : Option Int
  deriving DecidableEq, Repr

/-- The tracker still promises an outcome. -/
def TrackerEntry.Pending (e : TrackerEntry) : Prop := e.state = .queued ∨ e.state = .sent

inductive OutboundMessage where
  | userMessage (text : String) (id : WireId)
  | approvalDecision (id decision : String)
  | loadHistory (before : Option String) (limit : Option Nat)
  | loadCommands
  deriving DecidableEq, Repr

def OutboundMessage.userId : OutboundMessage → Option WireId
  | .userMessage _ id => some id
  | _ => none

/-- The decrypted frames, as far as this layer looks into them. -/
inductive InboundMessage where
  | ack (ids : Option (List WireId))
  | inboundRejected (overloaded : Bool) (ids : Option (List WireId))
  | other
  deriving DecidableEq, Repr

/-- `nextRetryAt` is null until the entry has been given to the socket once. -/
structure UnackedLedgerEntry where
  stamp : Nat
  text : String
  retryCount : Nat
  nextRetryAt : Option Int
  published : Bool
  deriving DecidableEq, Repr

/-- What `captureLedgerScheduling` keeps of one entry. -/
structure SchedulingItem where
  id : WireId
  stamp : Nat
  nextRetryAt : Option Int
  published : Bool
  deriving DecidableEq, Repr

/-- A run of `onConnected`: the epoch it drew and the dial it was started for. Epochs are
drawn once, so a flow is known by its epoch, and so is the key it unwraps. -/
structure FlowId where
  epoch : Nat
  generation : Nat
  deriving DecidableEq, Repr

abbrev SessionKey := FlowId

/-- Why `registerWithPop` threw. -/
inductive RegisterError where
  | rejected | protocolMismatch | capacity | server | transient
  deriving DecidableEq, Repr

/-- The register reply after `registerWithPop` has checked its shape. -/
structure RegisterResult where
  protocolVersion : Int
  pluginVersion : Option String
  wrappedConversationKey : Bool
  deriving DecidableEq, Repr

/-- What a suspended `onConnected` waits for. A request that was not written is rejected. -/
inductive Await where
  | challenge (attempt : Nat) (written : Bool)
  | signature (attempt : Nat)
  | register (attempt : Nat) (written : Bool)
  | registered (result : Except RegisterError RegisterResult)
  | unwrap
  deriving DecidableEq

structure Flow where
  flow : FlowId
  await : Await
  deriving DecidableEq

structure SendStateEvent where
  id : WireId
  state : SendState
  failure : Option SendFailure
  deriving DecidableEq, Repr

structure Options where
  ackStallTimeoutMs : Nat
  pinnedAgentPublicKey : Bool
  deriving DecidableEq, Repr

def maxUnacked : Nat := 100

def maxPendingInbound : Nat := 64

def webchannelProtocolVersion : Int := 3

structure Client where
  options : Options
  -- NatsClient
  connected : Bool
  ws : Option Nat
  connectionGeneration : Nat
  lifecycleGeneration : Nat
  terminal : Bool
  reconnectTimer : Bool
  sidCounter : Nat
  -- WebChannelNatsClient
  pendingSendStateEvents : List SendStateEvent
  drainingSendStateEvents : Bool
  sendTracker : OrderedMap WireId TrackerEntry
  reservedWireIds : List WireId
  terminalReached : Bool
  terminalCause : ErrorCause
  disconnected : Bool
  sessionKey : Option SessionKey
  outboundQueue : List OutboundMessage
  drainingOutboundQueue : Bool
  unackedLedger : OrderedMap WireId UnackedLedgerEntry
  nextStamp : Nat
  warnedUnackedEvict : Bool
  liveRetryTimer : Option Nat
  liveRetryTimerGeneration : Nat
  scheduledTimers : List Nat
  ackStallSinceAt : Option Int
  ackStallRecoveryIssued : Bool
  ackStallMutationEpoch : Nat
  pendingInbound : List String
  warnedPreKeyDrop : Bool
  outSub : Option Nat
  connectionEpoch : Nat
  flows : List Flow

def Client.init (options : Options) : Client where
  options
  connected := false
  ws := none
  connectionGeneration := 0
  lifecycleGeneration := 0
  terminal := false
  reconnectTimer := false
  sidCounter := 0
  pendingSendStateEvents := []
  drainingSendStateEvents := false
  sendTracker := .empty
  reservedWireIds := []
  terminalReached := false
  terminalCause := .unknown
  disconnected := false
  sessionKey := none
  outboundQueue := []
  drainingOutboundQueue := false
  unackedLedger := .empty
  nextStamp := 0
  warnedUnackedEvict := false
  liveRetryTimer := none
  liveRetryTimerGeneration := 0
  scheduledTimers := []
  ackStallSinceAt := none
  ackStallRecoveryIssued := false
  ackStallMutationEpoch := 0
  pendingInbound := []
  warnedPreKeyDrop := false
  outSub := none
  connectionEpoch := 0
  flows := []

/-! ### Questions and callouts -/

inductive ReadyState where
  | connecting | «open» | closing | closed
  deriving DecidableEq, Repr

/-- What the client takes from its surroundings: the random token, the injected clock and
random source, the socket's state (before a dial or before a write) and whether a send throws,
what a payload decrypts to, and which listeners are registered. -/
inductive Ask where
  | inboxToken | now | random | readyState (dialing : Bool) | sendThrows
  | openMessage (payload : String) | sessionListeners | protocolListener (flow : FlowId)
  deriving DecidableEq, Repr

def Answer : Ask → Type
  | .inboxToken => WireId
  | .now => Int
  | .random => Rat
  | .readyState _ => ReadyState
  | .sendThrows => Bool
  | .openMessage _ => Option InboundMessage
  | .sessionListeners => Nat
  | .protocolListener _ => Bool

inductive RegisterOp where
  | challenge | register
  deriving DecidableEq, Repr

/-- What is written to the socket. A sealed message carries the key it was sealed under. -/
inductive Frame where
  | pub (message : OutboundMessage) (sealingKey : SessionKey) (sealingEpoch : Nat)
  | request (flow : FlowId) (op : RegisterOp)
  | sub (sid : Nat)
  | unsub (sid : Nat)
  deriving DecidableEq, Repr

inductive Hook where
  | now | random | setTimeout (delay : Int) | clearTimeout
  deriving DecidableEq, Repr

/-- What a connection flow does to the client and its socket. -/
inductive FlowAct where
  | fail | disconnect | redial
  deriving DecidableEq, Repr

/-- Where the client calls code it does not own: listeners, injected hooks, the socket. The last
two call nothing: a publish that gave up, and an act of a connection flow. -/
inductive Out where
  | sendState (event : SendStateEvent)
  | message (msg : InboundMessage)
  | state (connected : Bool)
  | error (cause : ErrorCause)
  | protocol (flow : FlowId)
  | session (flow : FlowId)
  | hook (hook : Hook)
  | wire (frame : Frame)
  | refused (message : OutboundMessage)
  | flowAct (flow : FlowId) (act : FlowAct)
  deriving DecidableEq, Repr

abbrev Code := Prog Client Ask Answer Out

/-! ### Reads -/

namespace Client

/-- The ids of the user messages in the queue, front first. -/
def queuedIds (c : Client) : List WireId := c.outboundQueue.filterMap OutboundMessage.userId

def ledgerIds (c : Client) : List WireId := c.unackedLedger.keys

/-- `this.unackedLedger.get(id) === entry` for the entry with the stamp. -/
def ledgerHolds (c : Client) (id : WireId) (stamp : Nat) : Bool :=
  (c.unackedLedger.get id).any (·.stamp == stamp)

def hasPublishedUnackedOwnership (c : Client) : Bool :=
  c.unackedLedger.entries.any (·.2.published)

def captureLedgerScheduling (c : Client) : List SchedulingItem :=
  c.unackedLedger.entries.map fun e => ⟨e.1, e.2.stamp, e.2.nextRetryAt, e.2.published⟩

def ledgerSchedulingMatches (c : Client) (snapshot : List SchedulingItem) : Bool :=
  c.unackedLedger.size == snapshot.length && snapshot.all fun item =>
    (c.unackedLedger.get item.id).any fun e =>
      e.stamp == item.stamp && e.nextRetryAt == item.nextRetryAt && e.published == item.published

/-- Is the id free for a new message? -/
def idInUse (c : Client) (id : WireId) : Bool :=
  c.sendTracker.has id || c.unackedLedger.has id || c.queuedIds.contains id

def connectionFlowMatches (c : Client) (flow : FlowId) : Bool :=
  c.connectionEpoch == flow.epoch && c.connectionGeneration == flow.generation
    && !c.disconnected && !c.terminalReached

def sessionFlowMatches (c : Client) (flow : FlowId) : Bool :=
  c.connectionFlowMatches flow && c.sessionKey == some flow

/-- Neither closed nor retired. -/
def live (c : Client) : Bool := !c.disconnected && !c.terminalReached

end Client

end Webchannel.Session
