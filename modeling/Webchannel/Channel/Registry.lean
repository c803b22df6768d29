import Webchannel.Envelope.Codec
import Webchannel.Ingress.Chunks
import Webchannel.Lib.JsonDouble
import Webchannel.Lib.OrderedMap
import Webchannel.Lib.Runs
import Webchannel.Nats.Subjects

/-!
# The peers of a channel

`NatsChannel` of `nats-channel.ts` in its encrypted mode: the registered peers with their keys and replay windows, what
comes in for them and what is sent to them. The cipher, the key store and the state of the transport come from outside.
-/

namespace Webchannel.Channel

open Envelope
open Ingress (Number)

/-- What of a `NatsTransport` the channel uses; `published` is kept as history. -/
structure NatsTransport where
  sidCounter : Nat := 0
  subs : OrderedMap Nat JsString := .empty
  published : List (JsString × Bytes) := []

namespace NatsTransport

/-- It throws while the transport is not open. -/
def subscribe (transport : NatsTransport) (isOpen : Bool) (subject : JsString) : Option (Nat × NatsTransport) :=
  if isOpen then
    let sid := transport.sidCounter + 1
    some (sid, { transport with sidCounter := sid, subs := transport.subs.set sid subject })
  else none

def unsubscribe (transport : NatsTransport) (sid : Nat) : NatsTransport :=
  { transport with subs := transport.subs.delete sid }

/-- It throws while the transport is not open, and when the payload is too large. -/
def publish (transport : NatsTransport) (accepts : Bool) (subject : JsString) (payload : Bytes) : Option NatsTransport :=
  if accepts then some { transport with published := transport.published ++ [(subject, payload)] } else none

end NatsTransport

/-- The codec of the agent with what it takes from outside. -/
structure Codec (ν : Type) where
  numbers : Numbers ν
  ciphers : Ciphers
  fromBase64Url : JsString → Bytes
  /-- The value of a `ts`, which is finite. -/
  value : ν → Rat

/-- The limits of a channel, with the defaults in place. -/
structure NatsChannelLimits where
  maxPeers : Number := .ofNat 10000
  replayWindowMs : Number := .ofNat (10 * 60 * 1000)
  maxSeenMessageIdsPerPeer : Number := .ofNat 2000

/-- The variables of a channel; a replay window has the ids in the order of their arrival, with their `ts`. -/
structure State where
  disposed : Bool := false
  registerSid : Option Nat := none
  peerSubscriptions : OrderedMap JsString Nat := .empty
  peerSessionKeys : OrderedMap JsString Bytes := .empty
  seenMessageIds : OrderedMap JsString (OrderedMap JsString Rat) := .empty
  transport : NatsTransport := {}

/-- What a call comes to; `admitted` is a message that goes on to its handler. -/
inductive Outcome (ν : Type) where
  | done
  | threw
  | dropped
  | admitted (peerId messageId : JsString) (ts : Rat) (message : Json ν)
  | sent (ok : Bool)

/-! ## Clocks -/

def ofDouble (d : Double) : Number :=
  match d.1 with
  | .finite q => .finite q
  | .infinite true => .negInfinity
  | .infinite false => .infinity

/-- `Math.abs(a)` -/
def abs : Number → Number
  | .finite q => .finite |q|
  | .negInfinity => .infinity
  | a => a

/-- `Date.now() - ts` -/
def skew (now : Int) (ts : Rat) : Number := ofDouble (toDouble (now - ts))

/-! ## The channel -/

namespace State

variable (s : State)

def dropSubscription (peerId : JsString) : State :=
  match s.peerSubscriptions.get peerId with
  | some sid =>
    if sid ≠ 0 then
      { s with
        transport := s.transport.unsubscribe sid
        peerSubscriptions := s.peerSubscriptions.delete peerId }
    else s
  | none => s

def unregisterPeer (peerId : JsString) : State :=
  let s := s.dropSubscription peerId
  { s with
    peerSessionKeys := s.peerSessionKeys.delete peerId
    seenMessageIds := s.seenMessageIds.delete peerId }

/-- The loop that makes room for a peer, turn by turn. -/
def evictPeers (maxPeers : Number) : Nat → State → State
  | 0, s => s
  | turns + 1, s =>
    if maxPeers.le (.ofNat s.peerSubscriptions.size) then
      match s.peerSubscriptions.keys with
      | [] => s
      | oldest :: _ => evictPeers maxPeers turns (s.unregisterPeer oldest)
    else s

/-- The key is what `keyStore.getOrCreate` returns, or `none` when it throws. -/
def registerPeer {ν : Type} (channel : Nats.NatsChannel) (limits : NatsChannelLimits) (peerId : JsString)
    (key : Option Bytes) (isOpen : Bool) : State × Outcome ν :=
  if s.disposed then (s, .threw)
  else
    match key with
    | none => (s, .threw)
    | some conversationKey =>
      if s.peerSubscriptions.has peerId then
        ({ s with peerSessionKeys := s.peerSessionKeys.set peerId conversationKey }, .done)
      else
        let s := evictPeers limits.maxPeers s.peerSubscriptions.size s
        match s.transport.subscribe isOpen (channel.inboundSubject peerId) with
        | none => (s, .threw)
        | some (sid, transport) =>
          ({ s with
            transport
            peerSubscriptions := s.peerSubscriptions.set peerId sid
            peerSessionKeys := s.peerSessionKeys.set peerId conversationKey }, .done)

def subscribeRegister {ν : Type} (channel : Nats.NatsChannel) (isOpen : Bool) : State × Outcome ν :=
  if s.disposed then (s, .threw)
  else if s.registerSid.isSome then (s, .done)
  else
    match s.transport.subscribe isOpen channel.registerWildcard with
    | none => (s, .threw)
    | some (sid, transport) => ({ s with transport, registerSid := some sid }, .done)

/-- What `subscribeRegister` returned is called. -/
def disposeRegister (sid : Nat) : State :=
  if s.registerSid = some sid then { s with transport := s.transport.unsubscribe sid, registerSid := none } else s

def dropRegister : State :=
  match s.registerSid with
  | some sid => { s with transport := s.transport.unsubscribe sid, registerSid := none }
  | none => s

def dispose : State :=
  if s.disposed then s
  else
    let s := dropRegister { s with disposed := true }
    { s with
      transport := s.peerSubscriptions.values.foldl NatsTransport.unsubscribe s.transport
      peerSubscriptions := .empty
      peerSessionKeys := .empty
      seenMessageIds := .empty }

/-- The ids that are dropped when there are too many, turn by turn. -/
def trimSeen (maxSeen : Number) : Nat → OrderedMap JsString Rat → OrderedMap JsString Rat
  | 0, seen => seen
  | turns + 1, seen =>
    if maxSeen.lt (.ofNat seen.size) then
      match seen.keys with
      | [] => seen
      | oldest :: _ => trimSeen maxSeen turns (seen.delete oldest)
    else seen

def acceptFreshInbound (limits : NatsChannelLimits) (peerId messageId : JsString) (ts : Rat) (now : Int) : State × Bool :=
  if limits.replayWindowMs.lt (abs (skew now ts)) then (s, false)
  else
    let seen := (s.seenMessageIds.get peerId).getD .empty
    if seen.has messageId then ({ s with seenMessageIds := s.seenMessageIds.set peerId seen }, false)
    else
      let remembered := seen.set messageId ts
      ({ s with
        seenMessageIds :=
          s.seenMessageIds.set peerId (trimSeen limits.maxSeenMessageIdsPerPeer remembered.size remembered) }, true)

variable {ν : Type} [DecidableEq ν] (codec : Codec ν) (channel : Nats.NatsChannel)

def handleEncryptedInbound (limits : NatsChannelLimits) (peerId : JsString) (payload : Bytes) (now : Int) :
    State × Outcome ν :=
  match s.peerSessionKeys.get peerId with
  | none => (s, .dropped)
  | some key =>
    match Agent.openEnvelope codec.numbers codec.ciphers codec.fromBase64Url payload key with
    | .error _ => (s, .dropped)
    | .ok (routing, message) =>
      match s.acceptFreshInbound limits peerId routing.messageId (codec.value routing.ts) now with
      | (s, true) => (s, .admitted peerId routing.messageId (codec.value routing.ts) message)
      | (s, false) => (s, .dropped)

/-- A message of the transport. A register request goes to a handler of its own. -/
def handleMessage (limits : NatsChannelLimits) (subject : JsString) (payload : Bytes) (now : Int) : State × Outcome ν :=
  if s.disposed then (s, .dropped)
  else
    match channel.handleNatsMessage subject with
    | .encrypted peerId => s.handleEncryptedInbound codec limits peerId payload now
    | _ => (s, .dropped)

omit [DecidableEq ν] in
/-- Id, nonce and time are drawn for this frame. -/
def sendToPeer (peerId : JsString) (payload : Json ν) (connected accepts : Bool) (id nonce : Bytes) (now : ν) :
    State × Outcome ν :=
  if s.disposed ∨ connected = false then (s, .sent false)
  else
    match s.peerSessionKeys.get peerId with
    | none => (s, .sent false)
    | some key =>
      let wire := Agent.sealEnvelope codec.numbers codec.ciphers ⟨channel.accountId, channel.tenant, peerId⟩ key payload
        (js "conversation") id nonce now
      match s.transport.publish accepts (channel.outboundSubject peerId) wire with
      | none => (s, .sent false)
      | some transport => ({ s with transport }, .sent true)

end State

/-! ## Steps -/

/-- A call of the channel, with what the surroundings answer. -/
inductive Action (ν : Type) where
  | registerPeer (peerId : JsString) (key : Option Bytes) (isOpen : Bool)
  | unregisterPeer (peerId : JsString)
  | subscribeRegister (isOpen : Bool)
  | disposeRegister (sid : Nat)
  | message (subject : JsString) (payload : Bytes) (now : Int)
  | sendToPeer (peerId : JsString) (payload : Json ν) (connected accepts : Bool) (id nonce : Bytes) (now : ν)
  | dispose

variable {ν : Type} [DecidableEq ν]

def step (codec : Codec ν) (channel : Nats.NatsChannel) (limits : NatsChannelLimits) (s : State) :
    Action ν → State × Outcome ν
  | .registerPeer peerId key isOpen => s.registerPeer channel limits peerId key isOpen
  | .unregisterPeer peerId => (s.unregisterPeer peerId, .done)
  | .subscribeRegister isOpen => s.subscribeRegister channel isOpen
  | .disposeRegister sid => (s.disposeRegister sid, .done)
  | .message subject payload now => s.handleMessage codec channel limits subject payload now
  | .sendToPeer peerId payload connected accepts id nonce now =>
    s.sendToPeer codec channel peerId payload connected accepts id nonce now
  | .dispose => (s.dispose, .done)

/-- A channel with what happened to it, the latest first, and the messages that went on for the peers that are still
registered. -/
structure Run (ν : Type) where
  channel : State
  clock : Int
  events : List (Action ν × Outcome ν) := []
  admitted : List (JsString × JsString × Rat) := []

namespace Run

def start (transport : NatsTransport) (clock : Int) : Run ν := { channel := { transport }, clock }

omit [DecidableEq ν] in
/-- The clock reading of a step, if it takes one. -/
def reading (clock : Int) : Action ν → Int
  | .message _ _ now => now
  | _ => clock

omit [DecidableEq ν] in
def admission : Outcome ν → List (JsString × JsString × Rat)
  | .admitted peerId messageId ts _ => [(peerId, messageId, ts)]
  | _ => []

def step (codec : Codec ν) (channel : Nats.NatsChannel) (limits : NatsChannelLimits) (r : Run ν) (a : Action ν) :
    Option (Run ν) :=
  let (s, outcome) := Channel.step codec channel limits r.channel a
  some {
    channel := s
    clock := reading r.clock a
    events := (a, outcome) :: r.events
    admitted := (admission outcome ++ r.admitted).filter fun e => s.peerSubscriptions.has e.1 }

end Run

end Webchannel.Channel
