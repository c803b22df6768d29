import Webchannel.Lib.Utf8
import Mathlib.Data.List.Basic

/-!
# One NATS connection of the agent

`NatsTransport` on one socket: what its methods send, what a chunk from the server makes it
do, and who waits for a PONG. The listeners of its events are arbitrary code that may call
the methods again before the event is over; they are given by the calls they make.
-/

namespace Webchannel.Nats

abbrev Text := List Char

def maxControlLine : Nat := 64 * 1024
def maxPayload : Nat := 8 * 1024 * 1024
def maxBufferedBytes : Nat := maxControlLine + maxPayload + 4

def maxSafeInteger : Nat := 2 ^ 53 - 1

structure NatsMessage where
  subject : Text
  replyTo : Option Text
  payload : Bytes
  deriving Repr, DecidableEq

/-- What is written on the socket, one value for each protocol command. -/
inductive Command where
  | connect
  | ping
  | pong
  | sub (subject : Text) (sid : Nat)
  | unsub (sid : Nat)
  | pub (subject : Text) (replyTo : Option Text) (payload : Bytes)
  deriving Repr, DecidableEq

inductive Violation where
  | bufferExceeds
  | controlLineExceeds
  | malformedHeader
  | malformedByteCount
  | payloadExceeds
  | missingTrailingCrlf
  deriving Repr, DecidableEq

def Violation.reason : Violation → String
  | .bufferExceeds => s!"buffer exceeds {maxBufferedBytes} bytes"
  | .controlLineExceeds => s!"control line exceeds {maxControlLine} bytes"
  | .malformedHeader => "malformed MSG header"
  | .malformedByteCount => "malformed MSG byte count"
  | .payloadExceeds => s!"MSG payload exceeds {maxPayload} bytes"
  | .missingTrailingCrlf => "MSG payload missing trailing CRLF"

inductive TransportError where
  | protocolViolation (v : Violation)
  | server (line : Text)
  | closed
  | handshakeTimeout
  | lifecycleAbort
  | sendFailed
  deriving Repr, DecidableEq

/-- What the transport tells others: its events, and the violations it reports (which before
the handshake is over reject the promise of `connect` and raise no event). -/
inductive Event where
  | connect
  | pong
  | message (m : NatsMessage)
  | error (e : TransportError)
  | violation (v : Violation)
  | connectRejected (e : TransportError)
  deriving Repr, DecidableEq

structure Transport where
  /-- The socket is still the one in `this.ws`. -/
  current : Bool
  /-- The socket's `readyState` is OPEN. -/
  isOpen : Bool
  buffer : Bytes
  /-- `nkeySigningCallback` is configured. -/
  signing : Bool
  connectSent : Bool
  connectOnWire : Bool
  established : Bool
  connected : Bool
  serverMaxPayload : Nat
  sidCounter : Nat
  subs : List (Nat × Text)
  /-- What was written on the socket, oldest first. -/
  sent : List Command
  /-- For each flush that was begun, how many commands had been written before it. The next
  flush gets the length of this list as its number. -/
  flushMarks : List Nat
  flushWaiters : List Nat
  /-- The flushes that are over, oldest first, with the error of the rejected ones. -/
  settled : List (Nat × Option TransportError)
  /-- Oldest first. -/
  events : List Event
  /-- How many frames were taken from the buffer so far. -/
  taken : Nat
  deriving Repr, DecidableEq

variable (t : Transport)

def Transport.send (c : Command) : Transport := { t with sent := t.sent ++ [c] }

def Transport.note (e : Event) : Transport := { t with events := t.events ++ [e] }

def Transport.took : Transport := { t with taken := t.taken + 1 }

def Transport.assertOpen : Bool := t.current && t.isOpen

/-! ### Flush waiters -/

/-- A waiter is settled once: it leaves the list with its result. -/
def Transport.settleFlush (id : Nat) (error : Option TransportError) : Transport :=
  if id ∈ t.flushWaiters then
    { t with flushWaiters := t.flushWaiters.erase id, settled := t.settled ++ [(id, error)] }
  else t

def Transport.resolveNextFlush : Transport :=
  match t.flushWaiters with
  | [] => t
  | id :: _ => t.settleFlush id none

def Transport.rejectFlushes (error : TransportError) : Transport :=
  t.flushWaiters.foldl (fun t id => t.settleFlush id (some error)) t

/-! ### Methods -/

/-- A call of one of the methods. A flush says whether its signal is aborted already and
whether the write of its PING throws. -/
inductive Call where
  | subscribe (subject : Text)
  | unsubscribe (sid : Nat)
  | publish (subject : Text) (replyTo : Option Text) (payload : Bytes)
  | flush (aborted sendThrows : Bool)
  | disconnect
  deriving Repr, DecidableEq

def Transport.effectiveOutboundLimit : Nat := min maxPayload t.serverMaxPayload

def Transport.subscribe (subject : Text) : Transport :=
  if t.assertOpen then
    { t with
      sidCounter := t.sidCounter + 1
      subs := t.subs ++ [(t.sidCounter + 1, subject)]
      sent := t.sent ++ [.sub subject (t.sidCounter + 1)] }
  else t

def Transport.unsubscribe (sid : Nat) : Transport :=
  let t := { t with subs := t.subs.filter (·.1 ≠ sid) }
  if t.assertOpen then t.send (.unsub sid) else t

def Transport.publish (subject : Text) (replyTo : Option Text) (payload : Bytes) : Transport :=
  if t.assertOpen ∧ payload.length ≤ t.effectiveOutboundLimit then
    t.send (.pub subject replyTo payload)
  else t

/-- The waiter is in the list before its PING is written. -/
def Transport.flush (aborted sendThrows : Bool) : Transport :=
  if !t.assertOpen then t
  else if aborted then t
  else
    let t' := { t with
      flushMarks := t.flushMarks ++ [t.sent.length]
      flushWaiters := t.flushWaiters ++ [t.flushMarks.length] }
    if sendThrows then t'.settleFlush t.flushMarks.length (some .sendFailed) else t'.send .ping

def Transport.disconnect : Transport :=
  { ({ t with connected := false, subs := [] } : Transport).rejectFlushes .closed with
    current := false
    isOpen := false }

def Transport.call (t : Transport) : Call → Transport
  | .subscribe subject => t.subscribe subject
  | .unsubscribe sid => t.unsubscribe sid
  | .publish subject replyTo payload => t.publish subject replyTo payload
  | .flush aborted sendThrows => t.flush aborted sendThrows
  | .disconnect => t.disconnect

def Transport.calls (cs : List Call) : Transport := cs.foldl Transport.call t

/-- What the listeners of an event call, given all that has happened so far. -/
abbrev Listeners := Transport → Event → List Call

/-- `safeEmitFor`: nothing a listener does can throw out of it. -/
def Transport.emit (listeners : Listeners) (t : Transport) (e : Event) : Transport :=
  (t.note e).calls (listeners t e)

/-! ### Reading -/

def crlf : Bytes := [13, 10]

/-- Where the first CRLF begins. -/
def crlfIndex : Bytes → Option Nat
  | [] => none
  | b :: bs => if b = 13 ∧ bs.head? = some 10 then some 0 else (crlfIndex bs).map (· + 1)

def infoTag : Text := ['I', 'N', 'F', 'O', ' ']
def msgTag : Text := ['M', 'S', 'G', ' ']
def errTag : Text := ['-', 'E', 'R', 'R', ' ']
def pongLine : Text := ['P', 'O', 'N', 'G']
def pingLine : Text := ['P', 'I', 'N', 'G']

/-- The number a text of decimal digits denotes. -/
def digitsValue (digits : Text) : Nat :=
  digits.foldl (fun n d => 10 * n + (d.toNat - 48)) 0

def isByteCount (token : Text) : Bool := !token.isEmpty && token.all Char.isDigit

/-- The length token of the parts of a MSG line, if they have the right shape. -/
def msgParts (parts : List Text) : Option (Text × Option Text × Text) :=
  if parts.any List.isEmpty then none
  else match parts with
    | [_, subject, _, count] => some (subject, none, count)
    | [_, subject, _, replyTo, count] => some (subject, some replyTo, count)
    | _ => none

inductive MsgScan where
  | violation (v : Violation)
  | incomplete
  | complete (m : NatsMessage) (rest : Bytes)
  deriving Repr, DecidableEq

/-- The MSG branch: the header line, and the buffer after it. -/
def readMsg (line : Text) (buffer : Bytes) : MsgScan :=
  match msgParts (line.splitOn ' ') with
  | none => .violation .malformedHeader
  | some (subject, replyTo, lengthToken) =>
    if !isByteCount lengthToken then .violation .malformedByteCount
    else
      let byteCount := digitsValue lengthToken
      if maxSafeInteger < byteCount ∨ maxPayload < byteCount then .violation .payloadExceeds
      else if buffer.length < byteCount + 2 then .incomplete
      else if (buffer.drop byteCount).take 2 ≠ crlf then .violation .missingTrailingCrlf
      else .complete ⟨subject, replyTo, buffer.take byteCount⟩ (buffer.drop (byteCount + 2))

section Drain
variable (infoMaxPayload : Text → Option Nat) (listeners : Listeners)

/-- `infoMaxPayload` is the `max_payload` of the JSON of an INFO line, where that is a
positive safe integer. -/
def Transport.onInfo (line : Text) : Transport :=
  let t := match infoMaxPayload (line.drop 5) with
    | some n => { t with serverMaxPayload := min maxPayload n }
    | none => t
  if t.signing && !t.connectSent then { t with connectSent := true } else t

/-- The success branch of `onFirstPong`. -/
def Transport.onFirstPong : Transport :=
  if !t.established then
    let t := { t with established := true }
    if t.current then Transport.emit listeners { t with connected := true } .connect else t
  else if t.current then t.emit listeners .pong
  else t

/-- Reports the violation, to the listeners if the handshake is over, and closes the
socket. -/
def Transport.protocolViolation (v : Violation) : Transport :=
  let t := (t.rejectFlushes (.protocolViolation v)).note (.violation v)
  let t := if t.established then t.emit listeners (.error (.protocolViolation v))
    else t.note (.connectRejected (.protocolViolation v))
  { t with isOpen := false }

/-- The `-ERR` branch. -/
def Transport.onServerError (line : Text) : Transport :=
  if !t.established then { t.note (.connectRejected (.server line)) with isOpen := false }
  else (t.rejectFlushes (.server line)).emit listeners (.error (.server line))

theorem crlfIndex_lt {b : Bytes} {pos : Nat} (h : crlfIndex b = some pos) :
    pos + 2 ≤ b.length := by
  induction b generalizing pos with
  | nil => simp [crlfIndex] at h
  | cons a b ih =>
    rw [crlfIndex] at h
    split at h
    next hcrlf =>
      obtain rfl : pos = 0 := by simpa using h.symm
      cases b with
      | nil => simp at hcrlf
      | cons c b => simp
    next =>
      obtain ⟨q, hq, rfl⟩ := Option.map_eq_some_iff.mp h
      have := ih hq
      simp only [List.length_cons]
      omega

/-- What a complete MSG has shown of itself. -/
theorem readMsg_complete {line : Text} {b rest : Bytes} {m : NatsMessage}
    (h : readMsg line b = .complete m rest) :
    ∃ subject replyTo token, msgParts (line.splitOn ' ') = some (subject, replyTo, token) ∧
      isByteCount token ∧ ¬(maxSafeInteger < digitsValue token ∨ maxPayload < digitsValue token) ∧
      digitsValue token + 2 ≤ b.length ∧ (b.drop (digitsValue token)).take 2 = crlf ∧
      m = ⟨subject, replyTo, b.take (digitsValue token)⟩ ∧
      rest = b.drop (digitsValue token + 2) := by
  unfold readMsg at h
  split at h
  next => cases h
  next subject replyTo token hparts =>
    dsimp only at h
    split at h
    · cases h
    split at h
    · cases h
    split at h
    · cases h
    split at h
    · cases h
    cases h
    refine ⟨subject, replyTo, token, hparts, ?_, ?_, ?_, ?_, rfl, rfl⟩
    · simp_all
    · assumption
    · omega
    · simp_all

theorem readMsg_shrinks {line : Text} {b rest : Bytes} {m : NatsMessage}
    (h : readMsg line b = .complete m rest) : rest.length ≤ b.length := by
  obtain ⟨_, _, _, -, -, -, -, -, -, rfl⟩ := readMsg_complete h
  simp

/-- The loop of `drainBuffer`. It ends with the bytes it could not use, or with nothing
where the source returns an empty buffer from inside. -/
def drainLoop (t : Transport) (buffer : Bytes) : Transport × Option Bytes :=
  match _h : crlfIndex buffer with
  | none => (t, some buffer)
  | some crlfPos =>
    if maxControlLine < crlfPos then (t.protocolViolation listeners .controlLineExceeds, none)
    else
      let lineBytes := buffer.take crlfPos
      let line := decodeUtf8 lineBytes
      let rest := buffer.drop (crlfPos + 2)
      if line = [] then drainLoop t.took rest
      else if infoTag.isPrefixOf line then drainLoop (t.took.onInfo infoMaxPayload line) rest
      else if line = pongLine then
        if !t.connectOnWire then drainLoop t.took rest
        else
          let t := t.took.onFirstPong listeners
          if !t.current then (t, none) else drainLoop t.resolveNextFlush rest
      else if line = pingLine then drainLoop (t.took.send .pong) rest
      else if msgTag.isPrefixOf line then
        match _hm : readMsg line rest with
        | .violation v => (t.protocolViolation listeners v, none)
        -- the header goes back to the front, to be read again with the next chunk
        | .incomplete => (t, some (lineBytes ++ crlf ++ rest))
        | .complete m rest' =>
          let t := t.took.emit listeners (.message m)
          if !t.current then (t, none) else drainLoop t rest'
      else if errTag.isPrefixOf line then
        let established := t.established
        let t := t.took.onServerError listeners line
        if !established || !t.current then (t, none) else drainLoop t rest
      else drainLoop t.took rest
termination_by buffer.length
decreasing_by
  all_goals have := crlfIndex_lt _h
  all_goals try have := readMsg_shrinks _hm
  all_goals try simp only [rest, List.length_drop] at *
  all_goals omega

/-- `drainBuffer`: the loop, and the last check of what it leaves. -/
def drainBuffer (t : Transport) (buffer : Bytes) : Transport × Bytes :=
  match drainLoop infoMaxPayload listeners t buffer with
  | (t, none) => (t, [])
  | (t, some buffer) =>
    if crlfIndex buffer = none ∧ maxControlLine < buffer.length then
      (t.protocolViolation listeners .controlLineExceeds, [])
    else (t, buffer)

def Transport.onMessage (chunk : Bytes) : Transport :=
  if !t.current then t
  else if maxBufferedBytes < t.buffer.length + chunk.length then
    t.protocolViolation listeners .bufferExceeds
  else
    let (t', rest) := drainBuffer infoMaxPayload listeners t (t.buffer ++ chunk)
    { t' with buffer := rest }

/-- The chunks of a connection, one after another. -/
def Transport.onMessages (chunks : List Bytes) : Transport :=
  chunks.foldl (fun t chunk => t.onMessage infoMaxPayload listeners chunk) t

end Drain

end Webchannel.Nats
