import Webchannel.Session.Flow

/-!
# The browser client: abstract model

What the client promises is about a part of its state: which ids are tracked, queued and in the
ledger, which events wait for the listeners, and which connection and session are current. The
view is that part. A change is what one step of the code does to it, with the obligations that
suspended programs still have: ids they took and have to settle, a message they are sealing, a
connection flow they are running.
-/

namespace Webchannel.Session

open Webchannel.Reentrant

structure View where
  connected : Bool
  epoch : Nat
  generation : Nat
  disconnected : Bool
  terminalReached : Bool
  sessionKey : Option SessionKey
  reserved : List WireId
  keys : List WireId
  states : WireId → Option SendState
  events : List SendStateEvent
  queue : List WireId
  ledger : List WireId

def Client.view (c : Client) : View where
  connected := c.connected
  epoch := c.connectionEpoch
  generation := c.connectionGeneration
  disconnected := c.disconnected
  terminalReached := c.terminalReached
  sessionKey := c.sessionKey
  reserved := c.reservedWireIds
  keys := c.sendTracker.keys
  states := fun id => (c.sendTracker.get id).map (·.state)
  events := c.pendingSendStateEvents
  queue := c.queuedIds
  ledger := c.ledgerIds

namespace View

def live (v : View) : Bool := !v.disconnected && !v.terminalReached

def flowMatches (v : View) (flow : FlowId) : Bool :=
  v.epoch == flow.epoch && v.generation == flow.generation && !v.disconnected && !v.terminalReached

def sessionMatches (v : View) (flow : FlowId) : Bool :=
  v.flowMatches flow && v.sessionKey == some flow

def setState (v : View) (id : WireId) (st : SendState) : View :=
  { v with states := Function.update v.states id (some st) }

def raise (v : View) (event : SendStateEvent) : View := { v with events := v.events ++ [event] }

/-- A reserved id becomes a tracked one. -/
def enter (v : View) (id : WireId) : View :=
  { v with
    reserved := v.reserved.filter (· ≠ id)
    keys := v.keys ++ [id]
    states := Function.update v.states id (some .queued)
    events := v.events ++ [⟨id, .queued, none⟩] }

/-- What is known when a message is given to the socket. -/
structure Presents (v : View) (m : OutboundMessage) (key : SessionKey) (epoch : Nat) : Prop where
  current : v.sessionKey = some key
  epoch_eq : v.epoch = epoch
  live : m.userId.isSome = true → v.live = true
  owned : ∀ id, m.userId = some id → id ∈ v.ledger

/-- The tracker lists the tracked ids, each once. -/
structure Wf (v : View) : Prop where
  keys_nodup : v.keys.Nodup
  mem_keys : ∀ id, id ∈ v.keys ↔ (v.states id).isSome = true

end View

/-- The tracker still promises an outcome. -/
def SendState.pending : SendState → Bool
  | .queued | .sent => true
  | _ => false

/-- What suspended programs still have to do. -/
structure Duty where
  /-- taken from the queue or the ledger, to be reported as failed -/
  failing : List WireId := []
  /-- taken from the ledger by a result frame -/
  taken : List WireId := []
  /-- named by an acknowledgement that is being applied -/
  accepting : List WireId := []
  /-- named by a rejection that is being applied -/
  rejecting : List WireId := []
  /-- in the ledger, and about to be published for the first time under this key -/
  sealing : Option WireId := none
  /-- a drain relies on it that the ledger has been replayed -/
  clean : Bool := false
  /-- the connection flow that issues a request -/
  flow : Option FlowId := none

/-- Everything in hand: what suspended programs took, the queue, the ledger. -/
def Duty.inHand (d : Duty) (v : View) : List WireId := d.failing ++ d.taken ++ (v.queue ++ v.ledger)

/-- Callouts that say nothing about a message or a flow. -/
def Out.isPlain : Out → Bool
  | .message _ | .state _ | .error _ | .hook _ | .wire (.sub _) | .wire (.unsub _) => true
  | _ => false

section Changes

variable (ok : View → (q : Ask) → Answer q → Prop)

/-- What one step of the code does, and which action it is if the trace grows. -/
inductive Change : Duty → View → List Out → Duty → View → List Out → Prop
  -- listeners, hooks and the socket
  | plain {d v t} (e : Out) (he : e.isPlain = true) : Change d v t d v (e :: t)
  | deliver {d v t} (e : SendStateEvent) (rest : List SendStateEvent) (h : v.events = e :: rest) :
      Change d v t d { v with events := rest } (.sendState e :: t)
  | session {d v t} (flow : FlowId) (h : v.sessionMatches flow = true) :
      Change d v t d v (.session flow :: t)
  | protocol {d v t} (flow : FlowId) (h : ok v (.protocolListener flow) true) :
      Change d v t d v (.protocol flow :: t)
  | request {d v t} (flow : FlowId) (op : RegisterOp) (hflow : d.flow = some flow)
      (hv : v.connected = true) : Change d v t d v (.wire (.request flow op) :: t)
  -- sends
  | reserve {d v t} (id : WireId) (h : ok v .inboxToken id) :
      Change d v t d { v with reserved := id :: v.reserved } t
  | enterDead {d v t} (id : WireId) (hres : id ∈ v.reserved) (hfree : v.states id = none)
      (hlive : v.live = false) : Change d v t { d with failing := id :: d.failing } (v.enter id) t
  | enterLive {d v t} (id : WireId) (hres : id ∈ v.reserved) (hfree : v.states id = none)
      (hlive : v.live = true) : Change d v t d { v.enter id with queue := v.queue ++ [id] } t
  | advance {d v t} (id : WireId) (f : Option SendFailure) (h : v.states id = some .queued) :
      Change d v t d ((v.setState id .sent).raise ⟨id, .sent, f⟩) t
  | fail {d v t} (id : WireId) (ids : List WireId) (st : SendState) (f : Option SendFailure)
      (hd : d.failing = id :: ids) (h : v.states id = some st) (hst : st ≠ .failed) :
      Change d v t { d with failing := ids } ((v.setState id .failed).raise ⟨id, .failed, f⟩) t
  | failSkip {d v t} (id : WireId) (ids : List WireId) (hd : d.failing = id :: ids)
      (h : v.states id = none ∨ v.states id = some .failed) :
      Change d v t { d with failing := ids } v t
  -- sealing
  | record {d v t} (id : WireId) (rest : List WireId) (hq : v.queue = id :: rest)
      (hlive : v.live = true) (hclean : d.clean = true) (hs : d.sealing = none) :
      Change d v t { d with sealing := some id } { v with queue := rest, ledger := v.ledger ++ [id] } t
  | evict {d v t} (ids rest : List WireId) (h : v.ledger = ids ++ rest) :
      Change d v t { d with failing := ids ++ d.failing } { v with ledger := rest } t
  | requeue {d v t} (id : WireId) (hs : d.sealing = some id) (hid : id ∈ v.ledger)
      (hlive : v.live = true) : Change d v t { d with sealing := none }
        { v with queue := id :: v.queue, ledger := v.ledger.filter (· ≠ id) } t
  | leave {d v t} (id : WireId) (hs : d.sealing = some id)
      (h : id ∉ v.ledger ∨ v.sessionKey = none) : Change d v t { d with sealing := none } v t
  | publishSealed {d v t} (id : WireId) (m : OutboundMessage) (key : SessionKey) (epoch : Nat)
      (hs : d.sealing = some id) (hm : m.userId = some id) (hp : v.Presents m key epoch)
      (hv : v.connected = true) :
      Change d v t { d with sealing := none } v (.wire (.pub m key epoch) :: t)
  | publish {d v t} (m : OutboundMessage) (key : SessionKey) (epoch : Nat)
      (hclean : m.userId.isSome = true → d.clean = true) (hp : v.Presents m key epoch)
      (hv : v.connected = true) : Change d v t d v (.wire (.pub m key epoch) :: t)
  | refuseSealed {d v t} (id : WireId) (m : OutboundMessage) (key : SessionKey) (epoch : Nat)
      (hs : d.sealing = some id) (hm : m.userId = some id) (hp : v.Presents m key epoch) :
      Change d v t { d with sealing := none } { v with connected := false } (.refused m :: t)
  | refuse {d v t} (m : OutboundMessage) (key : SessionKey) (epoch : Nat)
      (hclean : m.userId.isSome = true → d.clean = true) (hp : v.Presents m key epoch) :
      Change d v t d { v with connected := false } (.refused m :: t)
  | replay {d v t} : Change d v t d { v with queue := v.ledger ++ v.queue, ledger := [] } t
  | cleanEmpty {d v t} (h : v.ledger = []) : Change d v t { d with clean := true } v t
  | unclean {d v t} (b : Bool) (h : d.clean = true) : Change d v t { d with clean := b } v t
  -- results
  | detachAck {d v t} (payload : String) (ids : List WireId)
      (h : ok v (.openMessage payload) (some (.ack (some ids)))) :
      Change d v t
        { d with
          taken := (OrderedSet.ofList ids).keys.filter (· ∈ v.ledger) ++ d.taken
          accepting := (OrderedSet.ofList ids).keys ++ d.accepting }
        { v with ledger := v.ledger.filter (· ∉ (OrderedSet.ofList ids).keys) } t
  | detachRejected {d v t} (payload : String) (ids : List WireId)
      (h : ok v (.openMessage payload) (some (.inboundRejected true (some ids)))) :
      Change d v t
        { d with
          taken := (OrderedSet.ofList ids).keys.filter (· ∈ v.ledger) ++ d.taken
          rejecting := (OrderedSet.ofList ids).keys ++ d.rejecting }
        { v with ledger := v.ledger.filter (· ∉ (OrderedSet.ofList ids).keys) } t
  | accept {d v t} (id : WireId) (ids taken : List WireId) (st : SendState) (f : Option SendFailure)
      (hd : d.accepting = id :: ids) (ht : d.taken = id :: taken ∨ d.taken = taken)
      (h : v.states id = some st) (hst : st.pending = true) :
      Change d v t { d with accepting := ids, taken }
        ((v.setState id .accepted).raise ⟨id, .accepted, f⟩) t
  | acceptSkip {d v t} (id : WireId) (ids taken : List WireId) (hd : d.accepting = id :: ids)
      (ht : d.taken = id :: taken ∨ d.taken = taken) (h : ∀ st, v.states id = some st → st.pending = false) :
      Change d v t { d with accepting := ids, taken } v t
  | reject {d v t} (id : WireId) (ids taken : List WireId) (st : SendState) (f : Option SendFailure)
      (hd : d.rejecting = id :: ids) (ht : d.taken = id :: taken ∨ d.taken = taken)
      (h : v.states id = some st) (hst : st ≠ .failed) :
      Change d v t { d with rejecting := ids, taken }
        ((v.setState id .failed).raise ⟨id, .failed, f⟩) t
  | rejectSkip {d v t} (id : WireId) (ids taken : List WireId) (hd : d.rejecting = id :: ids)
      (ht : d.taken = id :: taken ∨ d.taken = taken)
      (h : v.states id = none ∨ v.states id = some .failed) :
      Change d v t { d with rejecting := ids, taken } v t
  -- connection
  | drop {d v t} : Change d v t d { v with connected := false } t
  | bump {d v t} (hv : v.connected = false) : Change d v t d { v with epoch := v.epoch + 1 } t
  | reset {d v t} : Change d v t d { v with sessionKey := none } t
  | dial {d v t} (h : v.connected = true → ∃ r : ReadyState, ok v (.readyState true) r
        ∧ r ≠ .open ∧ r ≠ .connecting) : Change d v t d { v with generation := v.generation + 1 } t
  | pong {v t} (hkey : v.sessionKey = none) : Change {} v t {} { v with connected := true } t
  | «begin» {v t} (hkey : v.sessionKey = none) :
      Change {} v t { flow := some ⟨v.epoch + 1, v.generation⟩ } { v with epoch := v.epoch + 1 } t
  | unpin {d v t} : Change d v t { d with flow := none } v t
  | establish {v t} (flow : FlowId) (h : v.flowMatches flow = true) :
      Change {} v t {} { v with sessionKey := some flow } t
  -- gates
  | reopen {d v t} (h : v.terminalReached = false) : Change d v t d { v with disconnected := false } t
  | terminate {d v t} : Change d v t { d with failing := v.queue ++ v.ledger ++ d.failing }
      { v with terminalReached := true, queue := [], ledger := [] } t
  | part {d v t} : Change d v t { d with failing := v.queue ++ v.ledger ++ d.failing, flow := none }
      { v with epoch := v.epoch + 1, disconnected := true, queue := [], ledger := [] } t
  | rejoin {d v t} (flow : Option FlowId) (h : v.connected = false) :
      Change d v t { d with flow } v t
  | retire {v t} : Change {} v t {} { v with epoch := v.epoch + 1 } t
  | failFlow {d v t} (flow : FlowId) (h : v.flowMatches flow = true) :
      Change d v t d v (.flowAct flow .fail :: t)
  | redial {d v t} (flow : FlowId) (h : v.flowMatches flow = true) :
      Change d v t d v (.flowAct flow .redial :: t)
  | disconnectFlow {d v t} (flow : FlowId) (h : v.generation = flow.generation) :
      Change d v t d v (.flowAct flow .disconnect :: t)

end Changes

end Webchannel.Session
