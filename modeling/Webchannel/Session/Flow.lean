import Webchannel.Session.Sending

/-!
# The browser client: connection flow and public methods

`onConnected` is asynchronous. Each of its suspensions is kept in `flows` with what it waits
for, and each continuation is an entry of its own that only the event loop runs. The other
entries are the public methods, the events of the socket, and the timers.
-/

namespace Webchannel.Session

open Webchannel.Reentrant Prog

/-! ### Registration -/

/-- `retries` of `registerWithPop`: three attempts in all. -/
def registerRetries : Nat := 2

def suspend (flow : FlowId) (await : Await) : Code Unit :=
  modify fun c => { c with flows := c.flows ++ [⟨flow, await⟩] }

/-- The challenge of one attempt; past the last one the collected timeout is thrown. -/
def startAttempt (flow : FlowId) (attempt : Nat) : Code Unit :=
  if attempt ≤ registerRetries then do
    let written ← request flow .challenge
    suspend flow (.challenge attempt written)
  else suspend flow (.registered (.error .transient))

inductive ChallengeReply where
  | rejected | unavailable | refused | noNonce | nonce
  deriving DecidableEq, Repr

def onChallenge (flow : FlowId) (attempt : Nat) : ChallengeReply → Code Unit
  | .rejected => startAttempt flow (attempt + 1)
  | .unavailable => startAttempt flow (attempt + 1)
  | .noNonce => startAttempt flow (attempt + 1)
  | .refused => suspend flow (.registered (.error .rejected))
  | .nonce => suspend flow (.signature attempt)

def onSignature (flow : FlowId) (attempt : Nat) (signed : Bool) : Code Unit :=
  if signed then do
    let written ← request flow .register
    suspend flow (.register attempt written)
  else suspend flow (.registered (.error .transient))

inductive RegisterReply where
  | rejected
  | error (code : Nat) (capacityExceeded : Bool)
  | malformedVersion
  | ok (result : RegisterResult)
  deriving DecidableEq, Repr

def onRegisterReply (flow : FlowId) (attempt : Nat) : RegisterReply → Code Unit
  | .rejected => startAttempt flow (attempt + 1)
  | .error code capacityExceeded =>
    if code = 503 then startAttempt flow (attempt + 1)
    else if code = 401 then suspend flow (.registered (.error .rejected))
    else if code = 426 then suspend flow (.registered (.error .protocolMismatch))
    else if code = 507 && capacityExceeded then suspend flow (.registered (.error .capacity))
    else suspend flow (.registered (.error .server))
  | .malformedVersion => suspend flow (.registered (.error .protocolMismatch))
  | .ok result => suspend flow (.registered (.ok result))

/-! ### onConnected -/

/-- Up to the first await. -/
def onConnected : Code Unit := do
  let c ← get
  if c.terminalReached then rawDisconnect
  else
    let flow : FlowId := ⟨c.connectionEpoch + 1, c.connectionGeneration⟩
    modify fun c => { c with connectionEpoch := flow.epoch }
    onSome c.outSub unsubscribe
    let sid ← subscribe
    modify fun c => { c with outSub := sid }
    resetSession
    onlyIf ((← get).connectionFlowMatches flow) (startAttempt flow 0)

/-- Mark terminal and sweep first, retire the epoch, then notify and tear down that dial. -/
def failConnectionEpoch (flow : FlowId) (cause : ErrorCause) : Code Unit := do
  onlyIf ((← get).connectionEpoch == flow.epoch) do
    record (.flowAct flow .fail)
    markTerminalAndSweep cause
    modify fun c => { c with connectionEpoch := c.connectionEpoch + 1 }
    let retiredEpoch := (← get).connectionEpoch
    call (.error cause)
    let c ← get
    onlyIf (c.connectionEpoch == retiredEpoch && c.connectionGeneration == flow.generation) do
      record (.flowAct flow .disconnect)
      rawDisconnect

/-- The fan-out goes on as long as a listener is left, whatever the ones before it did. -/
def notifyProtocolListeners (flow : FlowId) : Code Unit :=
  loop (fun _ => do
    let more : Bool ← query (Ask.protocolListener flow)
    if more then
      call (.protocol flow)
      pure (.inl ())
    else pure (.inr ())) ()

/-- Each listener is notified only while the session is still the current one. -/
def notifySessionListeners (flow : FlowId) : Code Unit := do
  let listeners : Nat ← query Ask.sessionListeners
  each (fun _ => do
    onlyIf ((← get).sessionFlowMatches flow) (call (.session flow))) (List.range listeners)

/-- `none` is a transient failure. -/
def RegisterError.cause : RegisterError → Option ErrorCause
  | .rejected => some .authRejected
  | .protocolMismatch => some .protocolMismatch
  | .capacity => some .capacity
  | .server => some .server
  | .transient => none

/-- After `registerWithPop` has returned or thrown. -/
def onRegistered (flow : FlowId) (result : Except RegisterError RegisterResult) : Code Unit := do
  onlyIf ((← get).connectionFlowMatches flow) do
    match result with
    | .error err =>
      match err.cause with
      | some cause => failConnectionEpoch flow cause
      | none =>
        record (.flowAct flow .redial)
        rawReconnect
    | .ok result =>
      if result.protocolVersion ≠ webchannelProtocolVersion then
        failConnectionEpoch flow .protocolMismatch
      else
        notifyProtocolListeners flow
        let c ← get
        onlyIf (c.connectionFlowMatches flow) do
          if !result.wrappedConversationKey then failConnectionEpoch flow .protocolMismatch
          else if !c.options.pinnedAgentPublicKey then failConnectionEpoch flow .secureChannelFailed
          else suspend flow .unwrap

/-- After the conversation key was unwrapped, or failed to. -/
def onUnwrapped (flow : FlowId) (unwrapped : Bool) : Code Unit := do
  onlyIf ((← get).connectionFlowMatches flow) do
    if !unwrapped then failConnectionEpoch flow .secureChannelFailed
    else
      modify fun c => { c with sessionKey := some flow }
      drainPendingInbound
      onlyIf ((← get).sessionFlowMatches flow) do
        flushQueue
        onlyIf ((← get).sessionFlowMatches flow) (notifySessionListeners flow)

/-! ### Public methods -/

/-- Draw tokens until one is free; `none` stands for the error after the last attempt. -/
def drawWireId : Nat → Code (Option WireId)
  | 0 => pure none
  | attempts + 1 => do
    let candidate : WireId ← query Ask.inboxToken
    let c ← get
    if !c.reservedWireIds.contains candidate && !c.idInUse candidate then
      modify fun c => { c with reservedWireIds := candidate :: c.reservedWireIds }
      pure (some candidate)
    else drawWireId attempts

def reserveWireId : Code (Option WireId) := drawWireId 8

/-- `false` stands for the thrown error. -/
def consumeReservedId (id : WireId) : Code Bool := do
  let c ← get
  if c.reservedWireIds.contains id && !c.idInUse id then
    modify fun c => { c with reservedWireIds := c.reservedWireIds.filter (· ≠ id) }
    pure true
  else pure false

/-- A message for a live instance is queued before any listener hears of it. -/
def sendReserved (text : String) (id : WireId) : Code Unit := do
  trackerInsert id
  let c ← get
  if c.terminalReached then
    emitSendState id .queued none
    failSend (.terminal c.terminalCause) false id
  else if c.disconnected then
    emitSendState id .queued none
    failSend .closed false id
  else
    modify fun c => c.push (.userMessage text id)
    emitSendState id .queued none
    drainOutboundQueue

/-- `none` stands for the thrown error. -/
def sendUserMessage (text : String) (reservedId : Option WireId) : Code (Option WireId) := do
  let id ← (match reservedId with
    | none => reserveWireId
    | some id => pure (some id))
  match id with
  | none => pure none
  | some id =>
    if ← consumeReservedId id then
      sendReserved text id
      pure (some id)
    else pure none

def connect : Code Unit := do
  onlyIf (!(← get).terminalReached) do
    modify fun c => { c with disconnected := false }
    connectInternal

/-- What the lifecycle owns is detached before the socket's listeners can open the next one. -/
def disconnect : Code Unit := do
  modify fun c => { c with connectionEpoch := c.connectionEpoch + 1, disconnected := true }
  let pendingIds ← takePendingSendIds
  onSome (← get).outSub unsubscribe
  modify fun c => { c with outSub := none }
  resetSession
  rawDisconnect
  failPendingIds pendingIds .closed

/-! ### Events of the socket and the timers -/

/-- The first answer to a PING on this dial makes the connection. -/
def onPong : Code Unit := do
  let ws := (← get).ws
  onlyIf (!(← get).connected) do
    modify fun c => { c with connected := true }
    onConnected
    let c ← get
    onlyIf (c.ws == ws) (call (.state c.connected))

def onSocketClosed : Code Unit := do
  modify fun c => { c with connected := false }
  scheduleReconnect
  notifyRawLoss

/-- The state listener that the constructor registers. -/
def stateListener (connected : Bool) : Code Unit := if connected then onConnected else onRawLoss

/-- The error listener runs before the state listeners. -/
def failTerminally (cause : ErrorCause) : Code Unit := do
  onlyIf (!(← get).terminal) do
    modify fun c => { c with terminal := true, reconnectTimer := false, connected := false, ws := none }
    handleTerminal cause
    stateListener (← get).connected
    call (.state (← get).connected)

def onReconnectTimer : Code Unit := do
  modify fun c => { c with reconnectTimer := false }
  connectInternal

def onRetryTimer (generation : Nat) : Code Unit := do
  modify fun c => { c with scheduledTimers := c.scheduledTimers.erase generation }
  onlyIf ((← get).liveRetryTimerGeneration == generation) do
    modify fun c => { c with
      liveRetryTimer := none, liveRetryTimerGeneration := c.liveRetryTimerGeneration + 1 }
    retryDueUnacked

/-! ### The machine -/

inductive Entry where
  -- public methods
  | reserveWireId
  | sendUserMessage (text : String) (reservedId : Option WireId)
  | sendApprovalDecision (id decision : String)
  | loadHistory (before : Option String) (limit : Option Nat)
  | loadCommands
  | connect
  | disconnect
  | requestApplicationRecovery
  -- the socket and the timers
  | message (payload : String)
  | pong
  | socketClosed
  | dropSocket
  | authFailure (cause : ErrorCause)
  | reconnectTimer
  | retryTimer (generation : Nat)
  -- continuations of `onConnected`
  | challenged (flow : FlowId) (attempt : Nat) (written : Bool) (reply : ChallengeReply)
  | signed (flow : FlowId) (attempt : Nat) (ok : Bool)
  | replied (flow : FlowId) (attempt : Nat) (written : Bool) (reply : RegisterReply)
  | registered (flow : FlowId) (result : Except RegisterError RegisterResult)
  | unwrapped (flow : FlowId) (ok : Bool)

/-- Take a suspended flow off the list and run its continuation. -/
def continueFlow (flow : Flow) (k : Code Unit) : Code Unit := do
  modify fun c => { c with flows := c.flows.erase flow }
  k

def Entry.body : Entry → Code Unit
  | .reserveWireId => do
    let _ ← Session.reserveWireId
    pure ()
  | .sendUserMessage text reservedId => do
    let _ ← Session.sendUserMessage text reservedId
    pure ()
  | .sendApprovalDecision id decision => enqueue (.approvalDecision id decision)
  | .loadHistory before limit => enqueue (.loadHistory before limit)
  | .loadCommands => enqueue .loadCommands
  | .connect => Session.connect
  | .disconnect => Session.disconnect
  | .requestApplicationRecovery => do
    let _ ← Session.requestApplicationRecovery
    pure ()
  | .message payload => handleRaw payload
  | .pong => onPong
  | .socketClosed => onSocketClosed
  | .dropSocket => forceReconnect
  | .authFailure cause => failTerminally cause
  | .reconnectTimer => onReconnectTimer
  | .retryTimer generation => onRetryTimer generation
  | .challenged flow attempt written reply =>
    continueFlow ⟨flow, .challenge attempt written⟩ (onChallenge flow attempt reply)
  | .signed flow attempt ok => continueFlow ⟨flow, .signature attempt⟩ (onSignature flow attempt ok)
  | .replied flow attempt written reply =>
    continueFlow ⟨flow, .register attempt written⟩ (onRegisterReply flow attempt reply)
  | .registered flow result => continueFlow ⟨flow, .registered result⟩ (onRegistered flow result)
  | .unwrapped flow ok => continueFlow ⟨flow, .unwrap⟩ (onUnwrapped flow ok)

/-- Listeners and hooks may call every public method, and a hook or the socket may deliver a
frame, a close or a due timer at once. A new connection and the continuations of promises
come from the event loop only. -/
def Entry.admits (top : Bool) (c : Client) : Entry → Bool
  | .message _ | .socketClosed | .dropSocket | .authFailure _ => c.ws.isSome
  | .pong => top && c.ws.isSome
  | .reconnectTimer => c.reconnectTimer
  | .retryTimer generation => c.scheduledTimers.contains generation
  | .challenged flow attempt written reply =>
    top && c.flows.contains ⟨flow, .challenge attempt written⟩ && (written || reply == .rejected)
  | .signed flow attempt _ => top && c.flows.contains ⟨flow, .signature attempt⟩
  | .replied flow attempt written reply =>
    top && c.flows.contains ⟨flow, .register attempt written⟩ && (written || reply == .rejected)
  | .registered flow result => top && c.flows.contains ⟨flow, .registered result⟩
  | .unwrapped flow _ => top && c.flows.contains ⟨flow, .unwrap⟩
  | _ => true

def machine : Machine Client Ask Answer Out Entry := ⟨Entry.body, Entry.admits⟩

/-! ### Scripts -/

abbrev Script := List (Move Ask Answer Entry)

def Script.ask (q : Ask) (a : Answer q) : Move Ask Answer Entry := .answer q a

/-- A register reply that is accepted. -/
def acceptedReply : RegisterResult := ⟨webchannelProtocolVersion, none, true⟩

/-- A dial that connects, with the flow it starts. -/
def Script.dial : Script :=
  [.enter .connect, ask (.readyState true) ReadyState.closed, .enter .pong, .resume, .resume, .resume, .resume]

/-- The registration of a flow, up to the reply to the unwrap. -/
def Script.register (flow : FlowId) : Script :=
  [.enter (.challenged flow 0 true .nonce), .enter (.signed flow 0 true), .resume, .resume,
    .enter (.replied flow 0 true (.ok acceptedReply)), .enter (.registered flow (.ok acceptedReply)),
    ask (.protocolListener flow) false]

/-- The key is unwrapped; no listener is registered and nothing waits to be sent. -/
def Script.unwrap (flow : FlowId) : Script :=
  [.enter (.unwrapped flow true), ask .sessionListeners (0 : Nat)]

def Script.session (flow : FlowId) : Script := dial ++ register flow ++ unwrap flow

/-- The hooks and the socket while one message is sealed and written. -/
def Script.writeOne : Script :=
  [.resume, ask .random (0 : Rat), .resume, ask .now (0 : Int), ask (.readyState false) ReadyState.open,
    ask .sendThrows false, .resume, .resume, ask .now (0 : Int)]

/-- A message that is written at once, with the timer it arms. -/
def Script.send (text id : String) : Script :=
  [.enter (.sendUserMessage text none), ask .inboxToken id, .resume] ++ writeOne ++
    [.resume, .resume, ask .now (0 : Int), .resume]

/-- A run from the start, given by the decisions of the environment. -/
def Script.run (script : Script) : Option (Config Client Ask Answer Out) :=
  Config.play machine 200 (fun _ _ => true) (Config.start (Client.init ⟨30000, true⟩)) script

theorem Script.exists_reached {script : Script} {p : Config Client Ask Answer Out → Bool}
    (h : script.run.map p = some true) :
    ∃ c, Webchannel.Runs.Reached (Config.step machine) (Config.start (Client.init ⟨30000, true⟩)) c
      ∧ p c = true :=
  Config.exists_reachedBy_of_play (fun _ => trivial) (fun _ _ _ => trivial) h

end Webchannel.Session
