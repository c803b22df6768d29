import Webchannel.Nats.Framing
import Mathlib.Tactic.Tauto

/-!
# The NATS connection of the browser

`NatsClient` on one socket, as far as reading goes. It was written apart from the agent's
transport: it looks for CRLF with a loop of its own, decodes with `TextDecoder`, checks a MSG
header by positions, and answers a malformed stream by leaving the socket at once.
-/

namespace Webchannel.Nats

/-- `TextDecoder`, which takes a byte order mark off the front. -/
def decodeText (bytes : Bytes) : Text :=
  if [0xEF, 0xBB, 0xBF].isPrefixOf bytes then decodeUtf8 (bytes.drop 3) else decodeUtf8 bytes

structure NatsClient where
  /-- The socket is still the one in `this.ws`. -/
  current : Bool
  buffer : Bytes
  /-- `natsCredentials` are configured. -/
  credentials : Bool
  connectSent : Bool
  connectOnWire : Bool
  connected : Bool
  pongPending : Bool
  terminal : Bool
  subscriptions : List (Nat × Text)
  /-- Oldest first. -/
  sent : List Command
  /-- Subjects and payloads given to the raw listeners, oldest first. -/
  delivered : List (Text × Text)
  /-- How often a reconnect was forced. -/
  reconnects : Nat
  /-- How many frames were taken from the buffer so far. -/
  taken : Nat
  deriving Repr, DecidableEq

namespace NatsClient
variable (k : NatsClient)

def took : NatsClient := { k with taken := k.taken + 1 }

def send (c : Command) : NatsClient := { k with sent := k.sent ++ [c] }

def forceReconnect : NatsClient :=
  { k with
    pongPending := false
    connected := false
    current := false
    reconnects := k.reconnects + 1 }

def failTerminally : NatsClient :=
  if k.terminal then k
  else { k with terminal := true, pongPending := false, connected := false, current := false }

/-- The loop of `crlfIndex`, from position `i` on. -/
def crlfFrom (bytes : Bytes) (i : Nat) : Option Nat :=
  if i + 1 < bytes.length then
    if bytes[i]? = some 13 ∧ bytes[i + 1]? = some 10 then some i else crlfFrom bytes (i + 1)
  else none
termination_by bytes.length - i

section Drain
variable (retire : NatsClient → Bool)

/-- What the listeners leave of the socket, when they are called in this state. -/
def notify : NatsClient :=
  if retire k then { k with current := false, connected := false } else k

def notifyRawListeners (subject payload : Text) : NatsClient :=
  notify { k with delivered := k.delivered ++ [(subject, payload)] } retire

def handleMessage (line : Text) (lineBytes buffer : Bytes) :
    NatsClient × Option (Bytes × Bool) :=
  let parts := line.splitOn ' '
  if (parts.length ≠ 4 ∧ parts.length ≠ 5) ∨ parts.any List.isEmpty then
    (k.forceReconnect, none)
  else
    let hasReplyTo := parts.length = 5
    let subject := parts.getD 1 []
    let lengthToken := parts.getD (if hasReplyTo then 4 else 3) []
    if !isByteCount lengthToken then (k.forceReconnect, none)
    else
      let byteCount := digitsValue lengthToken
      if maxSafeInteger < byteCount ∨ maxPayload < byteCount then (k.forceReconnect, none)
      else if buffer.length < byteCount + 2 then
        (k, some (lineBytes ++ [13, 10] ++ buffer, false))
      else if buffer[byteCount]? ≠ some 13 ∨ buffer[byteCount + 1]? ≠ some 10 then
        (k.forceReconnect, none)
      else
        let payload := decodeText (buffer.take byteCount)
        (k.took.notifyRawListeners retire subject payload,
          some (buffer.drop (byteCount + 2), true))

def onInfo : NatsClient :=
  if k.credentials && !k.connectSent then { k with connectSent := true } else k

/-- A PONG, after CONNECT was written. The first one makes the connection. -/
def onPong : NatsClient :=
  let k := { k with pongPending := false }
  if !k.connected then
    let k := notify { k with connected := true } retire
    if !k.current then k
    else { k with sent := k.sent ++ k.subscriptions.map fun s => .sub s.2 s.1 }
  else k

def authExpired : Text := "authentication expired".toList
def authViolation : Text := "authorization violation".toList

/-- The two errors after which a reconnect cannot help. -/
def isTerminalError (line : Text) : Bool :=
  let lower := line.map Char.toLower
  lower.tails.any fun s => authExpired.isPrefixOf s || authViolation.isPrefixOf s

theorem crlfFrom_lt {bytes : Bytes} {i pos : Nat} (h : crlfFrom bytes i = some pos) :
    pos + 2 ≤ bytes.length := by
  induction i using crlfFrom.induct bytes with
  | case1 i hlt hcrlf =>
    rw [crlfFrom, if_pos hlt, if_pos hcrlf, Option.some.injEq] at h
    omega
  | case2 i hlt hcrlf ih =>
    rw [crlfFrom, if_pos hlt, if_neg hcrlf] at h
    exact ih h
  | case3 i hlt =>
    rw [crlfFrom, if_neg hlt] at h
    cases h

theorem crlf_at {b : Bytes} {n : Nat} (h : n + 2 ≤ b.length) :
    (b.drop n).take 2 = crlf ↔ b[n]? = some 13 ∧ b[n + 1]? = some 10 := by
  have hn : b.drop n = b[n] :: b[n + 1] :: b.drop (n + 2) := by
    rw [List.drop_eq_getElem_cons (by omega), List.drop_eq_getElem_cons (by omega)]
  rw [hn, List.getElem?_eq_getElem (by omega), List.getElem?_eq_getElem (by omega)]
  simp only [List.take_succ_cons, List.take_zero, crlf, List.cons.injEq, Option.some.injEq, and_true]

/-- The parts by position and the parts by shape. -/
theorem msgParts_eq (parts : List Text) :
    msgParts parts =
      if (parts.length ≠ 4 ∧ parts.length ≠ 5) ∨ parts.any List.isEmpty then none
      else some (parts.getD 1 [], if parts.length = 5 then some (parts.getD 3 []) else none,
        parts.getD (if parts.length = 5 then 4 else 3) []) := by
  unfold msgParts
  by_cases hempty : parts.any List.isEmpty
  · simp [hempty]
  · simp only [hempty, Bool.false_eq_true, if_false, or_false]
    match parts with
    | [] => rfl
    | [_] => rfl
    | [_, _] => rfl
    | [_, _, _] => rfl
    | [_, _, _, _] => rfl
    | [_, _, _, _, _] => rfl
    | _ :: _ :: _ :: _ :: _ :: _ :: _ => simp

/-- The two ways to read a MSG agree on what is malformed, what is still missing and what is
there. -/
theorem handleMessage_eq (line : Text) (lineBytes b : Bytes) :
    k.handleMessage retire line lineBytes b =
      match readMsg line b with
      | .violation _ => (k.forceReconnect, none)
      | .incomplete => (k, some (lineBytes ++ crlf ++ b, false))
      | .complete m rest =>
        (k.took.notifyRawListeners retire m.subject (decodeText m.payload), some (rest, true)) := by
  unfold handleMessage readMsg
  rw [msgParts_eq]
  generalize line.splitOn ' ' = parts
  dsimp only
  split
  next => rfl
  next =>
    dsimp only
    generalize parts.getD (if parts.length = 5 then 4 else 3) [] = token
    split
    next => rfl
    split
    next => rfl
    split
    next => rfl
    next hlen =>
      have hcrlf := crlf_at (Nat.le_of_not_lt hlen)
      by_cases hend : (b.drop (digitsValue token)).take 2 = crlf
      · have := hcrlf.mp hend
        simp [hend, this]
      · have : ¬(b[digitsValue token]? = some 13 ∧ b[digitsValue token + 1]? = some 10) :=
          fun h => hend (hcrlf.mpr h)
        rw [if_pos hend, if_pos (by tauto)]

theorem handleMessage_complete {line : Text} {lineBytes b rest : Bytes} {k' : NatsClient}
    (h : k.handleMessage retire line lineBytes b = (k', some (rest, true))) :
    rest.length ≤ b.length := by
  rw [handleMessage_eq] at h
  split at h
  · cases h
  · cases h
  next m rest' hmsg =>
    obtain rfl : rest' = rest := by
      simp only [Prod.mk.injEq, Option.some.injEq, and_true] at h
      exact h.2
    exact readMsg_shrinks hmsg

/-- The loop of `drainBuffer`. It ends with the bytes it could not use, or with nothing where
the source returns an empty buffer from inside. -/
def drainLoop (k : NatsClient) (buffer : Bytes) : NatsClient × Option Bytes :=
  match _h : crlfFrom buffer 0 with
  | none => (k, some buffer)
  | some crlfPos =>
    if maxControlLine < crlfPos then (k.forceReconnect, none)
    else
      let lineBytes := buffer.take crlfPos
      let line := decodeText lineBytes
      let rest := buffer.drop (crlfPos + 2)
      if line = [] then drainLoop k.took rest
      else if infoTag.isPrefixOf line then drainLoop k.took.onInfo rest
      else if line = pongLine then
        if !k.connectOnWire then drainLoop k.took rest
        else
          let k := k.took.onPong retire
          if !k.current then (k, none) else drainLoop k rest
      else if line = pingLine then drainLoop (k.took.send .pong) rest
      else if msgTag.isPrefixOf line then
        match _hm : k.handleMessage retire line lineBytes rest with
        | (k', none) => (k', none)
        | (k', some (buffer', false)) =>
          if !k'.current then (k', none) else (k', some buffer')
        | (k', some (buffer', true)) =>
          if !k'.current then (k', none) else drainLoop k' buffer'
      else if errTag.isPrefixOf line then
        if isTerminalError line then (k.took.failTerminally, none) else drainLoop k.took rest
      else drainLoop k.took rest
termination_by buffer.length
decreasing_by
  all_goals have := crlfFrom_lt _h
  all_goals try have := handleMessage_complete _ _ _hm
  all_goals try simp only [rest, List.length_drop] at *
  all_goals omega

def drainBuffer (k : NatsClient) (buffer : Bytes) : NatsClient × Bytes :=
  match drainLoop retire k buffer with
  | (k, none) => (k, [])
  | (k, some buffer) =>
    if crlfFrom buffer 0 = none ∧ maxControlLine < buffer.length then (k.forceReconnect, [])
    else (k, buffer)

/-- `ws.onmessage`. -/
def onMessage (chunk : Bytes) : NatsClient :=
  if !k.current then k
  else if maxBufferedBytes < k.buffer.length + chunk.length then k.forceReconnect
  else
    let (k', rest) := drainBuffer retire k (k.buffer ++ chunk)
    { k' with buffer := rest }

def onMessages (chunks : List Bytes) : NatsClient :=
  chunks.foldl (fun k chunk => k.onMessage retire chunk) k

end Drain

end NatsClient

end Webchannel.Nats
