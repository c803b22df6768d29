import Webchannel.Lib.Reentrant
import Webchannel.Redial.Socket

/-!
# The browser's NATS client: dialling and subscriptions

`NatsClient` of the browser package. Listeners run in the middle of its methods and may call
any public method; socket events, timers and the end of a signature find no method on the stack.
A dial keeps what the closures of `connectInternal` keep; `established` records that the first
`PONG` after its `CONNECT` was read.
-/

namespace Webchannel.Redial.Browser

open Webchannel.Reentrant Prog

structure Dial extends Socket where
  /-- The socket still has its handlers. -/
  attached : Bool
  connectSent : Bool
  connectOnWire : Bool
  deadline : Bool
  signing : Bool
  established : Bool
  deriving DecidableEq, Repr

/-- `natsCredentials` defers `CONNECT` to the server's `INFO`; zero turns a timer off. -/
structure Options where
  natsCredentials : Bool
  connectTimeoutMs : Nat
  heartbeatIntervalMs : Nat
  deriving DecidableEq, Repr

/-- `given` lists the sids that `subscribe` has handed out, latest first. -/
structure Client where
  options : Options
  dials : Heap Dial
  ws : Option Nat
  connectionGeneration : Nat
  connected : Bool
  reconnectTimer : Bool
  subscriptions : OrderedMap Nat Subject
  sidCounter : Nat
  terminal : Bool
  heartbeatTimer : Bool
  pongPending : Bool
  activeDialCleanup : Option Nat
  lifecycleGeneration : Nat
  pendingRequests : List Nat
  given : List Nat

namespace Client

def init (options : Options) : Client where
  options
  dials := .empty
  ws := none
  connectionGeneration := 0
  connected := false
  reconnectTimer := false
  subscriptions := .empty
  sidCounter := 0
  terminal := false
  heartbeatTimer := false
  pongPending := false
  activeDialCleanup := none
  lifecycleGeneration := 0
  pendingRequests := []
  given := []

variable (c : Client)

def dial? (s : Nat) : Option Dial := c.dials.get s

def readyState : Option ReadyState := (c.ws.bind c.dials.get).map (·.readyState)

def isOpen : Bool := c.readyState == some .open

def setDial (s : Nat) (f : Dial → Dial) : Client := { c with dials := c.dials.update s f }

/-- `ws.send` on the socket of a dial. -/
def sendOn (s : Nat) (w : Wire) : Client := c.setDial s fun d => { d with toSocket := d.toSocket.send w }

/-- `this.ws.send` -/
def send (w : Wire) : Client :=
  match c.ws with
  | none => c
  | some s => c.sendOn s w

/-! ### Timers -/

def clearReconnectTimer : Client := { c with reconnectTimer := false }

def stopHeartbeat : Client := { c with heartbeatTimer := false, pongPending := false }

def startHeartbeat : Client :=
  if c.options.heartbeatIntervalMs = 0 then c
  else { c.stopHeartbeat with heartbeatTimer := true }

def armDeadline (s : Nat) : Client := c.setDial s ({ · with deadline := c.options.connectTimeoutMs != 0 })

def clearDeadline (s : Nat) : Client := c.setDial s ({ · with deadline := false })

def cleanActiveDial : Client :=
  match c.activeDialCleanup with
  | none => c
  | some s => { c.clearDeadline s with activeDialCleanup := none }

def scheduleReconnect : Client := if c.terminal || c.reconnectTimer then c else { c with reconnectTimer := true }

/-! ### Giving a socket up -/

/-- The handlers are taken off, the socket is closed and forgotten. -/
def detach : Client :=
  match c.ws with
  | none => c
  | some s => { c.setDial s (fun d => { d with toSocket := d.toSocket.close, attached := false }) with ws := none }

/-- `disconnect` up to its notification. -/
def hangUp : Client :=
  let c := { c with lifecycleGeneration := c.lifecycleGeneration + 1 }
  { c.clearReconnectTimer.stopHeartbeat.cleanActiveDial.detach with connected := false }

/-- `forceReconnect` up to its notification. -/
def tearDown : Client := { c.stopHeartbeat.cleanActiveDial with connected := false }.detach

/-- `failTerminally` up to its notifications. -/
def retire : Client := { c with terminal := true }.clearReconnectTimer.tearDown

/-! ### Subscriptions -/

def subscribe (subject : Subject) : Client :=
  if !c.connected || c.ws.isNone then c
  else
    let sid := c.sidCounter + 1
    { c with sidCounter := sid, subscriptions := c.subscriptions.set sid subject, given := sid :: c.given }.send
      (.sub subject sid)

def unsubscribe (sid : Nat) : Client :=
  let c := { c with subscriptions := c.subscriptions.delete sid }
  if c.connected && c.isOpen then c.send (.unsub sid) else c

/-- Every entry is written as long as the client is connected and its socket open. -/
def resubscribeAll : Client :=
  (replayLines c.subscriptions).foldl (fun c w => if c.connected && c.isOpen then c.send w else c) c

def publishWithReply (subject replyTo : Subject) (payload : String) : Client :=
  if !c.connected || c.ws.isNone then c else c.send (.pub subject (some replyTo) payload)

/-- The write of `SUB` throws on a socket that connects; nothing waits for a reply then. -/
def request (subject replySubject : Subject) (payload : String) : Client :=
  if !c.connected || c.ws.isNone then c
  else
    let sid := c.sidCounter + 1
    let c := c.subscribe replySubject
    if c.readyState = some .connecting then c
    else { c with pendingRequests := sid :: c.pendingRequests }.publishWithReply subject replySubject payload

/-- A reply or the timeout settles a request once. -/
def settleRequest (sid : Nat) : Client :=
  { c with pendingRequests := c.pendingRequests.erase sid }.unsubscribe sid

/-! ### Dialling -/

/-- The new socket of `connectInternal`, with its deadline. -/
def dialNew : Client :=
  { c with
    dials := c.dials.alloc ⟨.dialled, true, false, false, c.options.connectTimeoutMs != 0, false, false⟩
    connectionGeneration := c.connectionGeneration + 1
    ws := some c.dials.next
    activeDialCleanup := some c.dials.next }

/-- `connectInternal` would make a socket. -/
def wouldDial : Bool := !c.terminal && c.readyState != some .open && c.readyState != some .connecting

/-- `CONNECT` and the first `PING`, with the deadline for the `PONG`. -/
def sendConnect (s : Nat) : Client :=
  let c := (c.setDial s ({ · with connectOnWire := true })).armDeadline s
  (c.sendOn s .connect).sendOn s .ping

def connectSent (s : Nat) : Bool := (c.dial? s).any (·.connectSent)

def connectOnWire (s : Nat) : Bool := (c.dial? s).any (·.connectOnWire)

end Client

/-! ### Methods that notify -/

/-- The outcome of a signature: not yet, signed, or failed. -/
inductive Signing where
  | later | signed | failed
  deriving DecidableEq, Repr

/-- What the client takes from its surroundings: whether another listener is registered, whether
the socket could be made, whether a write throws, and how far the signature gets at once. -/
inductive Ask where
  | listener | socket | throws | signing
  deriving DecidableEq, Repr

def Answer : Ask → Type
  | .listener => Bool
  | .socket => Bool
  | .throws => Bool
  | .signing => Signing

inductive Out where
  | state (connected : Bool)
  | error
  | message (subject : Subject)
  deriving DecidableEq, Repr

abbrev Code := Prog Client Ask Answer Out

/-- Listeners are called one after the other as long as the dial, if one is named, is current. -/
def notify (out : Client → Out) (current : Option Nat) : Code Unit :=
  loop (fun _ => do
    let more : Bool ← query Ask.listener
    let c ← get
    if more && (current.isNone || c.ws == current) then
      call (out c)
      pure (.inl ())
    else pure (.inr ())) ()

def notifyStateListeners (current : Option Nat) : Code Unit := notify (fun c => .state c.connected) current

def notifyErrorListeners : Code Unit := notify (fun _ => .error) none

def notifyRawListeners (subject : Subject) (current : Option Nat) : Code Unit :=
  notify (fun _ => .message subject) current

def disconnect : Code Unit := do
  modify Client.hangUp
  notifyStateListeners none

def disconnectConnectionGeneration (generation : Nat) : Code Unit := do
  onlyIf ((← get).connectionGeneration == generation) disconnect

/-- A listener that disconnects moves the generation on, and nothing is scheduled then. -/
def forceReconnect : Code Unit := do
  modify Client.tearDown
  let gen := (← get).lifecycleGeneration
  notifyStateListeners none
  modify fun c => if c.lifecycleGeneration ≠ gen || c.terminal then c else c.scheduleReconnect

def reconnect : Code Unit := do
  onlyIf (!(← get).terminal) forceReconnect

def failTerminally : Code Unit := do
  onlyIf (!(← get).terminal) do
    modify Client.retire
    notifyErrorListeners
    notifyStateListeners none

def publish (subject : Subject) (payload : String) : Code Unit := do
  let c ← get
  if !c.connected || c.ws.isNone then pure ()
  else if !c.isOpen then forceReconnect
  else do
    let throws : Bool ← query Ask.throws
    if throws then forceReconnect else modify (·.send (.pub subject none payload))

def connectInternal : Code Unit := do
  onlyIf (← get).wouldDial do
    let made : Bool ← query Ask.socket
    onlyIf made (modify Client.dialNew)

/-! ### Reading -/

def finishSigned (s : Nat) : Code Unit :=
  modify fun c => if c.ws ≠ some s || !c.isOpen then c else c.sendConnect s

def signingFailed (s : Nat) : Code Unit := do
  onlyIf ((← get).ws == some s) failTerminally

/-- Without a nonce the connect goes out at once; a seed that cannot be decoded fails at once. -/
def sendSignedConnect (s : Nat) : Code Unit := do
  let signing : Signing ← query Ask.signing
  match signing with
  | .later => modify (·.setDial s ({ · with signing := true }))
  | .signed => finishSigned s
  | .failed => signingFailed s

/-- The lines of a chunk. A line that breaks the protocol or its limits makes the client redial;
an error is terminal when it rejects the credentials. -/
inductive Line where
  | info
  | pong
  | ping
  | msg (subject : Subject)
  | err (terminal : Bool)
  | violation
  | other
  deriving DecidableEq, Repr

/-- The first `PONG` of a dial: notify, replay, start the heartbeat. -/
def onPong (s : Nat) (next : Code Unit) : Code Unit := do
  modify fun c => { (c.clearDeadline s).setDial s ({ · with established := true }) with pongPending := false }
  if (← get).connected then next
  else
    modify ({ · with connected := true })
    notifyStateListeners (some s)
    if (← get).ws ≠ some s then pure ()
    else
      modify fun c => c.resubscribeAll.startHeartbeat
      next

def drainBuffer (s : Nat) : List Line → Code Unit
  | [] => pure ()
  | .info :: rest => do
    let c ← get
    onlyIf (c.options.natsCredentials && !c.connectSent s) do
      modify fun c => (c.setDial s ({ · with connectSent := true })).armDeadline s
      sendSignedConnect s
    drainBuffer s rest
  | .pong :: rest => do
    if (← get).connectOnWire s then onPong s (drainBuffer s rest) else drainBuffer s rest
  | .ping :: rest => do
    modify (·.sendOn s .pong)
    drainBuffer s rest
  | .msg subject :: rest => do
    notifyRawListeners subject (some s)
    if (← get).ws ≠ some s then pure () else drainBuffer s rest
  | .err true :: _ => failTerminally
  | .err false :: rest => drainBuffer s rest
  | .violation :: _ => forceReconnect
  | .other :: rest => drainBuffer s rest

/-! ### Socket handlers and timers -/

def onopen (s : Nat) : Code Unit := do
  let c ← get
  if c.ws ≠ some s then pure ()
  else if c.options.natsCredentials then modify (·.armDeadline s)
  else modify (·.sendConnect s)

def onmessage (s : Nat) (lines : List Line) : Code Unit := do
  if (← get).ws ≠ some s then pure () else drainBuffer s lines

def onclose (s : Nat) : Code Unit := do
  modify (·.clearDeadline s)
  if (← get).ws ≠ some s then pure ()
  else
    modify fun c => { c with connected := false }.stopHeartbeat.scheduleReconnect
    notifyStateListeners none

/-- The deadline of a dial that is not current closes its own socket only. -/
def onDeadline (s : Nat) : Code Unit := do
  modify (·.clearDeadline s)
  if (← get).ws = some s then forceReconnect
  else modify (·.setDial s fun d => { d with toSocket := d.toSocket.close })

def onHeartbeat : Code Unit := do
  let c ← get
  if !c.connected || !c.isOpen then pure ()
  else if c.pongPending then forceReconnect
  else
    modify ({ · with pongPending := true })
    let throws : Bool ← query Ask.throws
    if throws then forceReconnect else modify (·.send .ping)

/-- The public methods, then what the event loop does. -/
inductive Entry where
  | connect
  | disconnect
  | disconnectConnectionGeneration (generation : Nat)
  | reconnect
  | publish (subject : Subject) (payload : String)
  | publishWithReply (subject replyTo : Subject) (payload : String)
  | subscribe (subject : Subject)
  | unsubscribe (sid : Nat)
  | request (subject replySubject : Subject) (payload : String)
  | requestSettled (sid : Nat)
  | opened (s : Nat)
  | message (s : Nat) (lines : List Line)
  | errored (s : Nat)
  | peerCloses (s : Nat)
  | closed (s : Nat)
  | signed (s : Nat) (ok : Bool)
  | deadline (s : Nat)
  | reconnectDue
  | heartbeat
  deriving DecidableEq, Repr

namespace Entry

def body : Entry → Code Unit
  | .connect => connectInternal
  | .disconnect => Browser.disconnect
  | .disconnectConnectionGeneration generation => Browser.disconnectConnectionGeneration generation
  | .reconnect => Browser.reconnect
  | .publish subject payload => Browser.publish subject payload
  | .publishWithReply subject replyTo payload => modify (·.publishWithReply subject replyTo payload)
  | .subscribe subject => modify (·.subscribe subject)
  | .unsubscribe sid => modify (·.unsubscribe sid)
  | .request subject replySubject payload => modify (·.request subject replySubject payload)
  | .requestSettled sid => modify (·.settleRequest sid)
  | .opened s => do
    modify (·.setDial s fun d => { d with toSocket := d.toSocket.opened })
    onlyIf (((← get).dial? s).any (·.attached)) (onopen s)
  | .message s lines => onmessage s lines
  | .errored _ => pure ()
  | .peerCloses s => modify (·.setDial s fun d => { d with toSocket := d.toSocket.close })
  | .closed s => do
    modify (·.setDial s fun d => { d with toSocket := d.toSocket.closed })
    onlyIf (((← get).dial? s).any (·.attached)) (onclose s)
  | .signed s ok => do
    modify (·.setDial s ({ · with signing := false }))
    if ok then finishSigned s else signingFailed s
  | .deadline s => onDeadline s
  | .reconnectDue => do
    modify Client.clearReconnectTimer
    connectInternal
  | .heartbeat => onHeartbeat

/-- Public methods may be called whenever other code has control. -/
def admits (top : Bool) (c : Client) : Entry → Bool
  | .requestSettled sid => c.pendingRequests.contains sid
  | .opened s => top && (c.dial? s).any (·.readyState == .connecting)
  | .message s _ => top && (c.dial? s).any fun d => d.attached && d.readyState == .open
  | .errored s => top && (c.dial? s).isSome
  | .peerCloses s => top && (c.dial? s).any (·.readyState == .open)
  | .closed s => top && (c.dial? s).any (·.readyState != .closed)
  | .signed s _ => top && (c.dial? s).any (·.signing)
  | .deadline s => top && (c.dial? s).any (·.deadline)
  | .reconnectDue => top && c.reconnectTimer
  | .heartbeat => top && c.heartbeatTimer
  | _ => true

end Entry

def machine : Machine Client Ask Answer Out Entry := ⟨Entry.body, Entry.admits⟩

/-- A socket is made while `connected` is still set: the peer has begun to close the current
socket, and its close event has not come yet. -/
def DialsWhileConnected (c : Client) : Entry → Prop
  | .connect => c.wouldDial = true ∧ c.connected = true
  | .reconnectDue => c.wouldDial = true ∧ c.connected = true
  | _ => False

end Webchannel.Redial.Browser
