import Webchannel.Session.State

/-!
# The browser client: send-state tracker and socket

The send-state tracker with its serialized fan-out, the retry timer's cancellation, and the
socket layer as far as the client drives it. The socket layer notifies its first state
listener, which is the client's own, before any listener of the embedder.
-/

namespace Webchannel.Session

open Webchannel.Reentrant Prog

/-! ### Send-state tracker -/

namespace Client

def raise (c : Client) (event : SendStateEvent) : Client :=
  { c with pendingSendStateEvents := c.pendingSendStateEvents ++ [event] }

def setEntry (c : Client) (id : WireId) (entry : TrackerEntry) : Client :=
  { c with sendTracker := c.sendTracker.set id entry }

/-- A fresh tracker entry. -/
def track (c : Client) (id : WireId) : Client :=
  if c.sendTracker.has id then c else c.setEntry id ⟨.queued, none, none⟩

/-- What is left of a session whose key is gone. -/
def reset (c : Client) : Client :=
  { c with
    sessionKey := none, pendingInbound := [], warnedPreKeyDrop := false, warnedUnackedEvict := false }

end Client

/-- Listeners observe the events in order: an event emitted during a fan-out waits. -/
def emitSendState (id : WireId) (state : SendState) (failure : Option SendFailure) : Code Unit := do
  modify fun c => c.raise ⟨id, state, failure⟩
  onlyIf (!(← get).drainingSendStateEvents) do
    modify fun c => { c with drainingSendStateEvents := true }
    whileTrue (fun c => !c.pendingSendStateEvents.isEmpty) do
      match (← get).pendingSendStateEvents with
      | [] => pure ()
      | event :: rest =>
        modify fun c => { c with pendingSendStateEvents := rest }
        call (.sendState event)
    modify fun c => { c with drainingSendStateEvents := false }

/-- Seed a fresh entry without a public callout. -/
def trackerInsert (id : WireId) : Code Unit := modify fun c => c.track id

def trackerAdvance (id : WireId) (next : SendState) : Code Unit := do
  match (← get).sendTracker.get id with
  | none => pure ()
  | some entry =>
    onlyIf (entry.state ≠ .failed && entry.state.rank < next.rank) do
      modify fun c => c.setEntry id { entry with state := next }
      emitSendState id next entry.failure

def trackerFail (id : WireId) (failure : SendFailure) : Code Unit := do
  match (← get).sendTracker.get id with
  | none => pure ()
  | some entry =>
    onlyIf (entry.state ≠ .failed) do
      modify fun c => c.setEntry id { entry with state := .failed, failure := some failure }
      emitSendState id .failed (some failure)

/-- Fail a send with the time of its latest publish attempt. -/
def failSend (reason : FailureReason) (retryable : Bool) (id : WireId) : Code Unit := do
  let c ← get
  trackerFail id ⟨reason, retryable, (c.sendTracker.get id).bind (·.lastAttemptAt)⟩

/-! ### Hooks and the retry timer's cancellation -/

def retryNow : Code Int := do
  call (.hook .now)
  query Ask.now

/-- Ownership is given up before the injected clear hook runs; the new generation is the token. -/
def cancelLiveRetryTimer : Code Nat := do
  let c ← get
  let token := c.liveRetryTimerGeneration + 1
  modify fun c => { c with liveRetryTimerGeneration := token, liveRetryTimer := none }
  onlyIf c.liveRetryTimer.isSome (call (.hook .clearTimeout))
  pure token

def resetSession : Code Unit := do
  let _ ← cancelLiveRetryTimer
  modify Client.reset

/-! ### The socket layer -/

/-- Is `ws.readyState` the state `OPEN`? -/
def socketOpen : Code Bool := do
  let readyState : ReadyState ← query (Ask.readyState false)
  pure (readyState == .open)

/-- The client's own state listener on `false`. -/
def onRawLoss : Code Unit := do
  modify fun c => { c with connectionEpoch := c.connectionEpoch + 1 }
  let c ← get
  onlyIf (c.live && c.hasPublishedUnackedOwnership && !c.ackStallRecoveryIssued) do
    modify fun c => { c with
      ackStallMutationEpoch := c.ackStallMutationEpoch + 1, ackStallRecoveryIssued := true }
  resetSession

/-- `notifyStateListeners` right after the socket was given up. -/
def notifyRawLoss : Code Unit := do
  onRawLoss
  call (.state (← get).connected)

def scheduleReconnect : Code Unit :=
  modify fun c => if c.terminal then c else { c with reconnectTimer := true }

/-- `NatsClient.disconnect` -/
def rawDisconnect : Code Unit := do
  modify fun c => { c with
    lifecycleGeneration := c.lifecycleGeneration + 1, reconnectTimer := false, ws := none,
    connected := false }
  notifyRawLoss

def forceReconnect : Code Unit := do
  modify fun c => { c with connected := false, ws := none }
  let generation := (← get).lifecycleGeneration
  notifyRawLoss
  let c ← get
  onlyIf (c.lifecycleGeneration == generation && !c.terminal) scheduleReconnect

/-- `NatsClient.reconnect` -/
def rawReconnect : Code Unit := do
  onlyIf (!(← get).terminal) forceReconnect

/-- `connectInternal`: a dial that is open or opening is kept. -/
def connectInternal : Code Unit := do
  let c ← get
  onlyIf (!c.terminal) do
    let readyState : ReadyState ← query (Ask.readyState true)
    onlyIf (!(c.ws.isSome && (readyState == .open || readyState == .connecting))) do
      modify fun c => { c with
        connectionGeneration := c.connectionGeneration + 1, ws := some (c.connectionGeneration + 1) }

/-- A socket that is not open, or a send that throws, forces a reconnect. -/
def publishFailed (message : OutboundMessage) : Code Bool := do
  record (.refused message)
  forceReconnect
  pure false

/-- Returns whether the frame was written. -/
def publish (message : OutboundMessage) (key : SessionKey) (epoch : Nat) : Code Bool := do
  let c ← get
  if c.connected && c.ws.isSome then
    if ← socketOpen then
      let throws : Bool ← query Ask.sendThrows
      if throws then publishFailed message
      else
        call (.wire (.pub message key epoch))
        pure true
    else publishFailed message
  else
    record (.refused message)
    pure false

def subscribe : Code (Option Nat) := do
  let c ← get
  if c.connected && c.ws.isSome then
    let sid := c.sidCounter + 1
    modify fun c => { c with sidCounter := sid }
    call (.wire (.sub sid))
    pure (some sid)
  else pure none

def unsubscribe (sid : Nat) : Code Unit := do
  let c ← get
  onlyIf (c.connected && c.ws.isSome) do
    onlyIf (← socketOpen) (call (.wire (.unsub sid)))

/-- `NatsClient.request` up to the point where its promise is returned: the reply inbox is
subscribed and the request is written. `false` stands for a promise that is rejected at once. -/
def request (flow : FlowId) (op : RegisterOp) : Code Bool := do
  let c ← get
  if c.connected && c.ws.isSome then
    let _ ← subscribe
    let c ← get
    onlyIf (c.connected && c.ws.isSome) (call (.wire (.request flow op)))
    pure true
  else pure false

end Webchannel.Session
