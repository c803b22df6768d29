import Webchannel.Lib.Reentrant
import Webchannel.Redial.Socket

/-!
# The plugin's NATS transport: dialling and subscriptions

`NatsTransport` of the plugin package. A dial keeps what the closures of `connect` keep. The
promise of a dial made by `reconnectOnce` resumes it in a microtask, and that is where the
subscriptions are replayed; socket events and timers come when no microtask is left. Listeners
may call any public method, and the owner calls `connect` first or once a close is confirmed.
-/

namespace Webchannel.Redial.Plugin

open Webchannel.Reentrant Prog

structure Dial extends Socket where
  /-- The promise is awaited by `reconnectOnce`. -/
  byReconnect : Bool
  /-- An abort signal is attached until the promise settles. -/
  signal : Bool
  /-- The message, error and close handlers are attached. -/
  listening : Bool
  connectSent : Bool
  connectOnWire : Bool
  established : Bool
  settled : Bool
  handshakeDone : Bool
  deadline : Bool
  signing : Bool
  deriving DecidableEq, Repr

/-- The attempts are unlimited; a timeout of zero turns the deadlines off. -/
structure Options where
  nkeySigning : Bool
  reconnect : Bool
  handshakeTimeoutMs : Nat
  deriving DecidableEq, Repr

/-- How `reconnectOnce` goes on after its `await`. -/
inductive Resumed where
  | established (s : Nat)
  | failed
  deriving DecidableEq, Repr

def Resumed.of (s : Nat) (ok : Bool) : Resumed := if ok then .established s else .failed

/-- `ownerMayConnect` is what the owner knows: it has not connected yet, or its last close was
confirmed. `given` lists the sids that `subscribe` has handed out, latest first. -/
structure Transport where
  options : Options
  dials : Heap Dial
  ws : Option Nat
  sidCounter : Nat
  subs : OrderedMap Nat Subject
  connected : Bool
  closed : Bool
  reconnectTimer : Bool
  shutdownPromise : Bool
  retainedSocket : Option Nat
  microtasks : List Resumed
  ownerMayConnect : Bool
  given : List Nat

namespace Transport

def init (options : Options) : Transport where
  options
  dials := .empty
  ws := none
  sidCounter := 0
  subs := .empty
  connected := false
  closed := false
  reconnectTimer := false
  shutdownPromise := false
  retainedSocket := none
  microtasks := []
  ownerMayConnect := true
  given := []

variable (t : Transport)

def dial? (s : Nat) : Option Dial := t.dials.get s

def isOpen : Bool := (t.ws.bind t.dials.get).any (·.readyState == .open)

def setDial (s : Nat) (f : Dial → Dial) : Transport := { t with dials := t.dials.update s f }

/-- `ws.send` on the socket of a dial. -/
def sendOn (s : Nat) (w : Wire) : Transport := t.setDial s fun d => { d with toSocket := d.toSocket.send w }

/-- `this.ws.send` -/
def send (w : Wire) : Transport :=
  match t.ws with
  | none => t
  | some s => t.sendOn s w

/-- `ws.close()` and `ws.terminate()`: the close event comes later. -/
def closeSocket (s : Nat) : Transport := t.setDial s fun d => { d with toSocket := d.toSocket.close }

def armDeadline (s : Nat) : Transport :=
  t.setDial s fun d => { d with deadline := t.options.handshakeTimeoutMs != 0 && !d.settled }

/-! ### The promise of a dial -/

/-- The promise settles once; then the handshake handlers, the deadline and the signal are gone. -/
def settle (s : Nat) (ok : Bool) : Transport :=
  match t.dial? s with
  | none => t
  | some d =>
    if d.settled then t
    else
      { t.setDial s ({ · with settled := true, handshakeDone := ok, deadline := false }) with
        microtasks := if d.byReconnect then t.microtasks ++ [Resumed.of s ok] else t.microtasks }

/-- A handshake that failed, with its socket closed. -/
def fail (s : Nat) : Transport := (t.settle s false).closeSocket s

/-! ### Public methods without callouts -/

def subscribe (subject : Subject) : Transport :=
  if !t.isOpen then t
  else
    let sid := t.sidCounter + 1
    { t with sidCounter := sid, subs := t.subs.set sid subject, given := sid :: t.given }.send (.sub subject sid)

def unsubscribe (sid : Nat) : Transport :=
  let t := { t with subs := t.subs.delete sid }
  if t.isOpen then t.send (.unsub sid) else t

def publish (subject : Subject) (replyTo : Option Subject) (payload : String) : Transport :=
  if !t.isOpen then t else t.send (.pub subject replyTo payload)

def flush : Transport := if !t.isOpen then t else t.send .ping

def isClosed (s : Nat) : Bool := (t.dial? s).any (·.readyState == .closed)

/-- The first steps of `confirmSocketClosed`: nothing to wait for, or the socket is closed now. -/
def confirmSocketClosed (socket : Option Nat) : Transport :=
  match socket with
  | none => { t with retainedSocket := none }
  | some s => if t.isClosed s then { t with retainedSocket := none } else t.closeSocket s

/-- Concurrent callers share one shutdown. -/
def closeGracefully : Transport :=
  if t.shutdownPromise then t
  else
    let socket := t.ws.or t.retainedSocket
    { t with
      closed := true
      reconnectTimer := false
      connected := false
      subs := .empty
      retainedSocket := socket
      ws := none
      shutdownPromise := true }.confirmSocketClosed socket

def disconnect : Transport := t.closeGracefully

def probePhysicalClose : Transport := { t with shutdownPromise := false }.closeGracefully

/-! ### Dialling -/

def dialNew (byReconnect signal : Bool) : Transport :=
  { t with
    dials := t.dials.alloc
      ⟨.dialled, byReconnect, signal, true, false, false, false, false, false, t.options.handshakeTimeoutMs != 0, false⟩
    ws := some t.dials.next }

/-- `connect` rejects before there is a socket. -/
def refuse (byReconnect : Bool) : Transport :=
  { t with microtasks := if byReconnect then t.microtasks ++ [.failed] else t.microtasks }

def scheduleReconnect : Transport := if t.closed || t.reconnectTimer then t else { t with reconnectTimer := true }

/-- `CONNECT` and the first `PING`, with the deadline for the `PONG`. -/
def sendConnect (s : Nat) : Transport :=
  (((t.setDial s ({ · with connectOnWire := true })).sendOn s .connect).sendOn s .ping).armDeadline s

/-- The replay of `reconnectOnce`. -/
def replay : Transport := (replayLines t.subs).foldl (fun t w => t.send w) t

def flag (f : Dial → Bool) (s : Nat) : Bool := (t.dial? s).any f

end Transport

/-! ### Methods with callouts -/

/-- The outcome of a signature: not yet, signed, or failed. -/
inductive Signing where
  | later | signed | failed
  deriving DecidableEq, Repr

/-- What the transport takes from its surroundings: whether another listener is registered and
whether it threw, whether the socket could be made, and how far the signature gets at once. -/
inductive Ask where
  | listener | threw | socket | signing
  deriving DecidableEq, Repr

def Answer : Ask → Type
  | .listener => Bool
  | .threw => Bool
  | .socket => Bool
  | .signing => Signing

inductive Event where
  | connect | pong | message | error | disconnect | reconnect
  deriving DecidableEq, Repr

abbrev Code := Prog Transport Ask Answer Event

/-- Listeners are called one after the other as long as the dial, if one is named, is current. -/
def safeEmitFor (current : Option Nat) (event : Event) : Code Unit :=
  loop (fun _ => do
    let more : Bool ← query Ask.listener
    let t ← get
    if more && (current.isNone || t.ws == current) then
      call event
      pure (.inl ())
    else pure (.inr ())) ()

/-- Node's `emit`: a listener that throws stops the fan-out and its caller. -/
def emit (event : Event) : Code Bool :=
  loop (fun _ => do
    let more : Bool ← query Ask.listener
    if more then
      call event
      let threw : Bool ← query Ask.threw
      if threw then pure (.inr true) else pure (.inl ())
    else pure (.inr false)) ()

/-- An error nobody listens to is logged. -/
def emitError (current : Option Nat) : Code Unit := safeEmitFor current .error

def connect (byReconnect signal : Bool) : Code Unit := do
  if (← get).retainedSocket.isSome then modify (·.refuse byReconnect)
  else
    modify ({ · with shutdownPromise := false, closed := false })
    let made : Bool ← query Ask.socket
    if made then modify (·.dialNew byReconnect signal) else modify (·.refuse byReconnect)

def protocolViolation (s : Nat) : Code Unit := do
  onlyIf ((← get).flag (·.established) s) (emitError (some s))
  modify (·.fail s)

/-! ### Reading -/

def finishSigned (s : Nat) : Code Unit :=
  modify fun t => if t.ws ≠ some s || !t.isOpen then t else t.sendConnect s

/-- Without a nonce the connect goes out at once; a signer that throws fails at once. -/
def sendConnectWithJwt (s : Nat) : Code Unit := do
  let signing : Signing ← query Ask.signing
  match signing with
  | .later => modify (·.setDial s ({ · with signing := true }))
  | .signed => finishSigned s
  | .failed => modify (·.fail s)

/-- The lines of a chunk; one that breaks the protocol or its limits is a violation. -/
inductive Line where
  | info
  | pong
  | ping
  | msg
  | err
  | violation
  | other
  deriving DecidableEq, Repr

/-- The first `PONG` of a dial settles its promise, later ones are events. -/
def onFirstPong (s : Nat) : Code Unit := do
  if (← get).flag (·.established) s then
    onlyIf ((← get).ws == some s) (safeEmitFor (some s) .pong)
  else
    modify fun t => (t.setDial s ({ · with established := true })).settle s true
    onlyIf ((← get).ws == some s) do
      modify ({ · with connected := true })
      safeEmitFor (some s) .connect

def drainBuffer (s : Nat) : List Line → Code Unit
  | [] => pure ()
  | .info :: rest => do
    let t ← get
    onlyIf (t.options.nkeySigning && !t.flag (·.connectSent) s) do
      modify fun t => (t.setDial s ({ · with connectSent := true })).armDeadline s
      sendConnectWithJwt s
    drainBuffer s rest
  | .pong :: rest => do
    if (← get).flag (·.connectOnWire) s then
      onFirstPong s
      if (← get).ws ≠ some s then pure () else drainBuffer s rest
    else drainBuffer s rest
  | .ping :: rest => do
    modify (·.sendOn s .pong)
    drainBuffer s rest
  | .msg :: rest => do
    safeEmitFor (some s) .message
    if (← get).ws ≠ some s then pure () else drainBuffer s rest
  | .err :: rest => do
    if (← get).flag (·.established) s then
      emitError (some s)
      if (← get).ws ≠ some s then pure () else drainBuffer s rest
    else modify (·.fail s)
  | .violation :: _ => protocolViolation s
  | .other :: rest => drainBuffer s rest

/-! ### Socket handlers, timers and microtasks -/

def onOpen (s : Nat) : Code Unit := do
  let t ← get
  if t.ws ≠ some s then pure ()
  else if t.options.nkeySigning then modify (·.armDeadline s)
  else modify (·.sendConnect s)

def onMessage (s : Nat) (lines : List Line) : Code Unit := do
  if (← get).ws ≠ some s then pure () else drainBuffer s lines

def onError (s : Nat) : Code Unit := do
  let t ← get
  if !t.flag (·.handshakeDone) s then modify (·.fail s)
  else onlyIf (t.ws == some s) do
    modify ({ · with connected := false })
    emitError none

/-- The close of a socket that is not current settles its own promise only. -/
def onClose (s : Nat) : Code Unit := do
  modify (·.settle s false)
  if (← get).ws ≠ some s then modify (·.setDial s ({ · with listening := false }))
  else
    modify ({ · with connected := false })
    let threw ← emit .disconnect
    onlyIf (!threw) do
      modify fun t => if t.options.reconnect && !t.closed && t.flag (·.handshakeDone) s then t.scheduleReconnect else t
      modify fun t => if t.ws = some s then { t with ws := none } else t
      modify (·.setDial s ({ · with listening := false }))

def reconnectOnce : Code Unit := do
  onlyIf (!(← get).closed) (connect true false)

/-- `reconnectOnce` after its `await`. -/
def resumeReconnect : Resumed → Code Unit
  | .failed => modify Transport.scheduleReconnect
  | .established _ => do
    if (← get).closed then modify Transport.disconnect
    else
      modify Transport.replay
      let _ ← emit .reconnect

/-- The public methods, then what the event loop does. -/
inductive Entry where
  | connect (signal : Bool)
  | abort (s : Nat)
  | subscribe (subject : Subject)
  | unsubscribe (sid : Nat)
  | publish (subject : Subject) (replyTo : Option Subject) (payload : String)
  | flush
  | disconnect
  | closeGracefully
  | probePhysicalClose
  | opened (s : Nat)
  | message (s : Nat) (lines : List Line)
  | error (s : Nat)
  | unexpectedResponse (s : Nat)
  | peerCloses (s : Nat)
  | closed (s : Nat)
  | signed (s : Nat) (ok : Bool)
  | deadline (s : Nat)
  | reconnectDue
  | microtask
  | socketConfirmed (s : Nat)
  | closeConfirmed
  deriving DecidableEq, Repr

namespace Entry

def body : Entry → Code Unit
  | .connect signal => do
    modify ({ · with ownerMayConnect := false })
    Plugin.connect false signal
  | .abort s => modify fun t => (t.settle s false).disconnect
  | .subscribe subject => modify (·.subscribe subject)
  | .unsubscribe sid => modify (·.unsubscribe sid)
  | .publish subject replyTo payload => modify (·.publish subject replyTo payload)
  | .flush => modify Transport.flush
  | .disconnect => modify Transport.disconnect
  | .closeGracefully => modify Transport.closeGracefully
  | .probePhysicalClose => modify Transport.probePhysicalClose
  | .opened s => do
    modify (·.setDial s fun d => { d with toSocket := d.toSocket.opened })
    onlyIf (!(← get).flag (·.settled) s) (onOpen s)
  | .message s lines => onMessage s lines
  | .error s => onError s
  | .unexpectedResponse s => modify (·.fail s)
  | .peerCloses s => modify (·.closeSocket s)
  | .closed s => do
    modify (·.setDial s fun d => { d with toSocket := d.toSocket.closed })
    onlyIf ((← get).flag (·.listening) s) (onClose s)
  | .signed s ok => do
    modify (·.setDial s ({ · with signing := false }))
    if ok then finishSigned s else modify (·.fail s)
  | .deadline s => modify (·.fail s)
  | .reconnectDue => do
    modify ({ · with reconnectTimer := false })
    reconnectOnce
  | .microtask => do
    match (← get).microtasks with
    | [] => pure ()
    | m :: rest =>
      modify ({ · with microtasks := rest })
      resumeReconnect m
  | .socketConfirmed s => modify fun t =>
    { t.setDial s ({ · with listening := false }) with
      retainedSocket := if t.retainedSocket = some s then none else t.retainedSocket }
  | .closeConfirmed => modify ({ · with ownerMayConnect := true })

/-- Public methods may be called whenever other code has control, `connect` by the owner only. The
report of a close resolves after the microtasks that were there before. -/
def admits (top : Bool) (t : Transport) : Entry → Bool
  | .connect _ => t.ownerMayConnect
  | .abort s => t.flag (fun d => d.signal && !d.settled) s
  | .opened s => top && t.microtasks.isEmpty && t.flag (·.readyState == .connecting) s
  | .message s _ => top && t.microtasks.isEmpty &&
    t.flag (fun d => d.listening && (d.readyState == .open || d.readyState == .closing)) s
  | .error s => top && t.microtasks.isEmpty && t.flag (·.listening) s
  | .unexpectedResponse s => top && t.microtasks.isEmpty && t.flag (fun d => d.readyState == .connecting && !d.settled) s
  | .peerCloses s => top && t.microtasks.isEmpty && t.flag (·.readyState == .open) s
  | .closed s => top && t.microtasks.isEmpty && t.flag (·.readyState != .closed) s
  | .signed s _ => top && t.flag (·.signing) s
  | .deadline s => top && t.microtasks.isEmpty && t.flag (·.deadline) s
  | .reconnectDue => top && t.microtasks.isEmpty && t.reconnectTimer
  | .microtask => top && !t.microtasks.isEmpty
  | .socketConfirmed s => top && t.flag (·.readyState == .closed) s
  | .closeConfirmed => top && t.microtasks.isEmpty && t.shutdownPromise && t.retainedSocket.isNone
  | _ => true

end Entry

def machine : Machine Transport Ask Answer Event Entry := ⟨Entry.body, Entry.admits⟩

end Webchannel.Redial.Plugin
