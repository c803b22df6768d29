import Webchannel.Session.Socket

/-!
# The browser client: queue, ledger and ingress results

Sealing and publishing of queued messages, the ledger of published messages that the agent has
not acknowledged, the live retry timer, and the frames that report results. Every hook and
listener in between may call back into the client; the fences say what each step re-checks.
-/

namespace Webchannel.Session

open Webchannel.Reentrant Prog

/-! ### Live retry timer -/

/-- The delay before retry number `retryCount`, with its jitter of a tenth. -/
def retryDelayOf (retryCount : Nat) (random : Rat) : Int :=
  let base : Nat := min 30000 (1000 * 2 ^ min retryCount 30)
  let clamped := max 0 (min 1 random)
  min 30000 (⌊(base : Rat) * (9 / 10 + clamped * (2 / 10)) + 1 / 2⌋)

def retryDelay (retryCount : Nat) : Code Int := do
  call (.hook .random)
  let random : Rat ← query Ask.random
  pure (retryDelayOf retryCount random)

namespace Client

/-- The state `now` still agrees with the captured one in everything the schedule was computed
from. -/
def scheduleFence (captured now : Client) : Bool :=
  now.connectionEpoch == captured.connectionEpoch && now.sessionKey == captured.sessionKey
    && now.ackStallMutationEpoch == captured.ackStallMutationEpoch
    && now.ackStallSinceAt == captured.ackStallSinceAt
    && now.ackStallRecoveryIssued == captured.ackStallRecoveryIssued
    && now.live && now.ledgerSchedulingMatches captured.captureLedgerScheduling

/-- The earliest retry deadline in the ledger. -/
def earliestRetry (c : Client) : Option Int :=
  (c.unackedLedger.entries.filterMap (·.2.nextRetryAt)).min?

def hasStallCandidate (c : Client) : Bool :=
  decide (0 < c.options.ackStallTimeoutMs) && c.ackStallSinceAt.isSome && !c.ackStallRecoveryIssued

/-- The time left to the earliest deadline or to the stall limit, whichever is first. -/
def timerDelay (c : Client) (now : Int) : Int :=
  let retryRemaining := c.earliestRetry.map fun at_ => max 0 (at_ - now)
  let stallRemaining := if c.hasStallCandidate then
      c.ackStallSinceAt.map fun since => max 0 (c.options.ackStallTimeoutMs - max 0 (now - since))
    else none
  ((retryRemaining.toList ++ stallRemaining.toList).min?).getD 0

end Client

def armLiveRetryTimer : Code Unit := do
  let cancellationToken ← cancelLiveRetryTimer
  let c ← get
  onlyIf (c.liveRetryTimerGeneration == cancellationToken && c.liveRetryTimer.isNone
      && c.sessionKey.isSome && c.unackedLedger.size != 0 && c.live
      && (c.earliestRetry.isSome || c.hasStallCandidate)) do
    let now ← retryNow
    let c' ← get
    onlyIf (c'.liveRetryTimerGeneration == cancellationToken && c'.liveRetryTimer.isNone
        && c.scheduleFence c') do
      let generation := c'.liveRetryTimerGeneration + 1
      modify fun c => { c with
        liveRetryTimerGeneration := generation, scheduledTimers := generation :: c.scheduledTimers }
      call (.hook (.setTimeout (c.timerDelay now)))
      let c'' ← get
      if c''.liveRetryTimerGeneration == generation && c''.liveRetryTimer.isNone
          && c.scheduleFence c'' then
        modify fun c => { c with liveRetryTimer := some generation }
      else call (.hook .clearTimeout)

/-! ### Recovery -/

def requestApplicationRecovery : Code Bool := do
  let c ← get
  if !c.live then pure false
  else
    onlyIf (c.hasPublishedUnackedOwnership && !c.ackStallRecoveryIssued) do
      modify fun c => { c with
        ackStallMutationEpoch := c.ackStallMutationEpoch + 1, ackStallRecoveryIssued := true }
    let _ ← cancelLiveRetryTimer
    let c' ← get
    if c'.connectionEpoch != c.connectionEpoch || !c'.live then pure false
    else
      rawReconnect
      pure true

/-! ### Ledger -/

/-- What one `seal` of a user message keeps in its local variables. -/
structure Sealing where
  id : WireId
  text : String
  key : SessionKey
  epoch : Nat
  mutationEpoch : Nat
  stamp : Nat
  inserted : Bool
  evicted : List WireId

namespace Client

/-- The same entry, key and connection as when the seal began, on a live instance. -/
def ownerFence (c : Client) (x : Sealing) : Bool :=
  c.ledgerHolds x.id x.stamp && c.sessionKey == some x.key && c.connectionEpoch == x.epoch && c.live

def sealFence (c : Client) (x : Sealing) : Bool :=
  c.ownerFence x && c.ackStallMutationEpoch == x.mutationEpoch

/-- Change the ledger entry of an id in place. -/
def updateLedger (c : Client) (id : WireId) (f : UnackedLedgerEntry → UnackedLedgerEntry) : Client :=
  match c.unackedLedger.get id with
  | none => c
  | some entry => { c with unackedLedger := c.unackedLedger.set id (f entry) }

/-- Stamp the time of a publish attempt. -/
def stampAttempt (c : Client) (id : WireId) (attemptAt : Int) : Client :=
  match c.sendTracker.get id with
  | none => c
  | some entry =>
    { c with sendTracker := c.sendTracker.set id { entry with lastAttemptAt := some attemptAt } }

/-- `recordUnacked` without its result. -/
def record (c : Client) (id : WireId) (text : String) : Client :=
  if c.unackedLedger.has id then c
  else { c with
    unackedLedger := c.unackedLedger.set id ⟨c.nextStamp, text, 0, none, false⟩
    nextStamp := c.nextStamp + 1 }

/-- At the end of the queue. -/
def push (c : Client) (message : OutboundMessage) : Client :=
  { c with outboundQueue := c.outboundQueue ++ [message] }

/-- From the ledger back to the front of the queue. -/
def requeue (c : Client) (id : WireId) (text : String) : Client :=
  { c with
    unackedLedger := c.unackedLedger.delete id
    outboundQueue := .userMessage text id :: c.outboundQueue }

/-- The ids that the cap evicts, oldest first. -/
def overflow (c : Client) : List WireId := c.ledgerIds.take (c.ledgerIds.length - maxUnacked)

def evict (c : Client) : Client :=
  { c with
    unackedLedger := c.overflow.foldl (·.delete ·) c.unackedLedger
    warnedUnackedEvict := c.warnedUnackedEvict || !c.overflow.isEmpty }

end Client

/-- Insert the message into the ledger and evict past the cap; nothing is called in between. -/
def recordUnacked (id : WireId) (text : String) : Code (List WireId × Bool) := do
  let c ← get
  let inserted := !c.unackedLedger.has id
  modify fun c => c.record id text
  let evicted := (← get).overflow
  modify Client.evict
  pure (evicted, inserted)

/-! ### Sealing -/

/-- The deferred eviction notices. -/
def finishPostSeal (evicted : List WireId) : Code Unit := each (failSend .evicted true) evicted

/-- A hook changed something before the publish. An entry that only an older message's result
has overtaken goes back to the front of the queue; any other is left to its new owner. -/
def finishInvalidatedPrePublish (x : Sealing) : Code Unit := do
  let c ← get
  onlyIf (x.inserted && c.ownerFence x && (c.unackedLedger.get x.id).any (·.nextRetryAt.isNone)
      && c.ackStallMutationEpoch != x.mutationEpoch) do
    modify fun c => c.requeue x.id x.text
  finishPostSeal x.evicted

/-- Only a successful publish makes the entry a published one; an acknowledgement stall is
counted from the first of them. -/
def confirmOwnership (x : Sealing) : Code (Option (Nat × List SchedulingItem)) := do
  if (← get).ownerFence x then
    modify fun c => c.updateLedger x.id fun e => { e with published := true }
    let confirmationMutationEpoch := (← get).ackStallMutationEpoch
    let publishedAt ← retryNow
    let c ← get
    if c.ownerFence x && c.ackStallMutationEpoch == confirmationMutationEpoch then
      onlyIf (c.ackStallSinceAt.isNone && !c.ackStallRecoveryIssued) do
        modify fun c => { c with
          ackStallMutationEpoch := c.ackStallMutationEpoch + 1
          ackStallSinceAt := some publishedAt
          ackStallRecoveryIssued := false }
      let c ← get
      pure (some (c.ackStallMutationEpoch, c.captureLedgerScheduling))
    else pure none
  else pure none

/-- After a successful publish: confirm the entry, advance the tracker, and arm the timer when
nothing has moved since. -/
def confirmPublished (x : Sealing) : Code Unit := do
  let schedule ← confirmOwnership x
  trackerAdvance x.id .sent
  onSome schedule fun (publishedMutationEpoch, snapshot) => do
    let c ← get
    onlyIf (c.ownerFence x && c.ackStallMutationEpoch == publishedMutationEpoch
      && c.ledgerSchedulingMatches snapshot) armLiveRetryTimer

/-- The publish attempt, with the delay to the first retry when the entry has none yet. -/
def attemptPublish (x : Sealing) (initialRetryDelay : Option Int) : Code Unit := do
  let attemptAt ← retryNow
  if !(← get).sealFence x then finishInvalidatedPrePublish x
  else
    modify fun c => match initialRetryDelay with
      | none => c
      | some delay => c.updateLedger x.id fun e => { e with nextRetryAt := some (attemptAt + delay) }
    modify fun c => c.stampAttempt x.id attemptAt
    if !(← get).sealFence x then finishPostSeal x.evicted
    else
      let ok ← publish (.userMessage x.text x.id) x.key x.epoch
      onlyIf ok (confirmPublished x)
      finishPostSeal x.evicted

def sealUserMessage (key : SessionKey) (text : String) (id : WireId) : Code Unit := do
  let c ← get
  let (evicted, inserted) ← recordUnacked id text
  match (← get).unackedLedger.get id with
  | none => finishPostSeal evicted
  | some entry =>
    let x : Sealing :=
      ⟨id, text, key, c.connectionEpoch, c.ackStallMutationEpoch, entry.stamp, inserted, evicted⟩
    if !(← get).sealFence x then finishPostSeal evicted
    else if entry.nextRetryAt.isSome then attemptPublish x none
    else
      let delay ← retryDelay entry.retryCount
      if !(← get).sealFence x then finishInvalidatedPrePublish x
      else attemptPublish x (some delay)

def sealOutbound (message : OutboundMessage) : Code Unit := do
  let c ← get
  match c.sessionKey with
  | none => modify fun c => c.push message
  | some key =>
    match message with
    | .userMessage text id => sealUserMessage key text id
    | _ =>
      let _ ← publish message key c.connectionEpoch
      pure ()

/-- One entry at a time, so that a sweep started by a listener still sees the rest. -/
def drainOutboundQueue : Code Unit := do
  onlyIf (!(← get).drainingOutboundQueue) do
    modify fun c => { c with drainingOutboundQueue := true }
    whileTrue (fun c => c.sessionKey.isSome && !c.outboundQueue.isEmpty) do
      match (← get).outboundQueue with
      | [] => pure ()
      | message :: rest =>
        modify fun c => { c with outboundQueue := rest }
        sealOutbound message
    modify fun c => { c with drainingOutboundQueue := false }

def enqueue (message : OutboundMessage) : Code Unit := do
  modify fun c => c.push message
  drainOutboundQueue

/-- The ledger in insertion order goes in front of the queue. -/
def Client.replay (c : Client) : Client :=
  { c with
    outboundQueue := c.unackedLedger.entries.map (fun e => .userMessage e.2.text e.1) ++ c.outboundQueue
    unackedLedger := .empty }

def flushQueue : Code Unit := do
  onlyIf (← get).sessionKey.isSome do
    modify Client.replay
    drainOutboundQueue

/-! ### Live retry -/

/-- The fence of one entry of the retry loop. -/
def Client.retryFence (captured now : Client) (id : WireId) (stamp : Nat) : Bool :=
  now.ledgerHolds id stamp && now.sessionKey == captured.sessionKey
    && now.connectionEpoch == captured.connectionEpoch
    && now.ackStallMutationEpoch == captured.ackStallMutationEpoch
    && now.liveRetryTimerGeneration == captured.liveRetryTimerGeneration && now.live

/-- Republish one due entry; `false` ends the loop. -/
def retryEntry (id : WireId) (entry : UnackedLedgerEntry) : Code Bool := do
  let c ← get
  match c.sessionKey with
  | none => pure false
  | some key =>
    if !c.live then pure false
    else
      let delay ← retryDelay (entry.retryCount + 1)
      if !c.retryFence (← get) id entry.stamp then pure false
      else
        let attemptAt ← retryNow
        if !c.retryFence (← get) id entry.stamp then pure false
        else
          modify fun c => c.stampAttempt id attemptAt
          let ok ← publish (.userMessage entry.text id) key c.connectionEpoch
          if !ok then pure false
          else if !c.retryFence (← get) id entry.stamp then pure false
          else
            modify fun c => c.updateLedger id fun e =>
              { e with retryCount := entry.retryCount + 1, nextRetryAt := some (attemptAt + delay) }
            pure true

/-- The loop over the live map: the next entry is the first one inserted after the last visited. -/
def retryLoop (schedulerNow : Int) : Code Bool :=
  loop (fun cursor => do
    match (← get).unackedLedger.entries.find? (fun e => decide (cursor ≤ e.2.stamp)) with
    | none => pure (.inr true)
    | some (id, entry) =>
      if entry.nextRetryAt.all (fun at_ => decide (schedulerNow < at_)) then
        pure (.inl (entry.stamp + 1))
      else if ← retryEntry id entry then pure (.inl (entry.stamp + 1))
      else pure (.inr false)) 0

def retryDueUnacked : Code Unit := do
  let c ← get
  onlyIf (c.sessionKey.isSome && c.live) do
    let schedulerNow ← retryNow
    let c' ← get
    onlyIf (c'.liveRetryTimerGeneration == c.liveRetryTimerGeneration && c.scheduleFence c') do
      if c.hasStallCandidate && c'.unackedLedger.size != 0
          && c.ackStallSinceAt.any (fun since =>
            decide ((c.options.ackStallTimeoutMs : Int) ≤ max 0 (schedulerNow - since))) then
        modify fun c => { c with
          ackStallMutationEpoch := c.ackStallMutationEpoch + 1, ackStallRecoveryIssued := true }
        let _ ← requestApplicationRecovery
        pure ()
      else onlyIf (← retryLoop schedulerNow) armLiveRetryTimer

/-! ### Results -/

/-- Drop the ids of a result frame from the ledger. -/
def Client.detach (c : Client) (frameIds : List WireId) : Client :=
  { c with unackedLedger := frameIds.foldl (·.delete ·) c.unackedLedger }

/-- The time of an owned result, committed when nothing moved while it was sampled. -/
def commitResultTime (captured : Client) (resultEpoch : Nat) :
    Code (Option (Nat × Int × Nat × List SchedulingItem)) := do
  let fence := fun (c : Client) => c.connectionEpoch == captured.connectionEpoch
    && c.sessionKey == captured.sessionKey && c.live && c.ackStallMutationEpoch == resultEpoch
    && c.hasPublishedUnackedOwnership
  if captured.live && captured.sessionKey.isSome && fence (← get) then
    let sampledResultAt ← retryNow
    if fence (← get) then
      modify fun c => { c with
        ackStallMutationEpoch := c.ackStallMutationEpoch + 1
        ackStallSinceAt := some sampledResultAt
        ackStallRecoveryIssued := false }
      let c ← get
      pure (some (c.ackStallMutationEpoch, sampledResultAt, c.liveRetryTimerGeneration,
        c.captureLedgerScheduling))
    else pure none
  else pure none

/-- The whole frame is detached before any of its outcomes fans out. -/
def drainOwnedResult (frameIds : List WireId) (apply : WireId → Code Unit) : Code Unit := do
  let c ← get
  modify fun c => c.detach frameIds
  if !frameIds.any c.unackedLedger.has then each apply frameIds
  else
    modify fun c => { c with ackStallMutationEpoch := c.ackStallMutationEpoch + 1 }
    let resultEpoch := c.ackStallMutationEpoch + 1
    let publishedOwnershipRemains := (← get).hasPublishedUnackedOwnership
    onlyIf (!publishedOwnershipRemains) do
      modify fun c => { c with ackStallSinceAt := none, ackStallRecoveryIssued := false }
    let _ ← cancelLiveRetryTimer
    let committed ← (if publishedOwnershipRemains then commitResultTime c resultEpoch else pure none)
    each apply frameIds
    onSome committed fun (resultCommitEpoch, resultAt, timerGeneration, snapshot) => do
      let c' ← get
      onlyIf (c'.connectionEpoch == c.connectionEpoch && c'.sessionKey == c.sessionKey && c'.live
        && c'.ackStallMutationEpoch == resultCommitEpoch && c'.ackStallSinceAt == some resultAt
        && !c'.ackStallRecoveryIssued && c'.liveRetryTimerGeneration == timerGeneration
        && c'.ledgerSchedulingMatches snapshot) armLiveRetryTimer

def drainAcked (ids : Option (List WireId)) : Code Unit :=
  onSome ids fun ids => drainOwnedResult (OrderedSet.ofList ids).keys (trackerAdvance · .accepted)

def drainRejected (ids : Option (List WireId)) : Code Unit :=
  onSome ids fun ids => drainOwnedResult (OrderedSet.ofList ids).keys (failSend .overloaded true)

def drainResult : InboundMessage → Code Unit
  | .ack ids => drainAcked ids
  | .inboundRejected true ids => drainRejected ids
  | _ => pure ()

/-- A frame takes effect on the ledger before it is forwarded to the listeners. -/
def deliverInbound (msg : InboundMessage) : Code Unit := do
  drainResult msg
  call (.message msg)

/-- Decrypt and deliver; a payload that does not open is dropped. -/
def openAndDeliver (payload : String) : Code Unit := do
  let msg : Option InboundMessage ← query (Ask.openMessage payload)
  onSome msg deliverInbound

/-- `handleRaw` on the client's own subject. -/
def handleRaw (payload : String) : Code Unit := do
  let c ← get
  if c.sessionKey.isSome then openAndDeliver payload
  else if c.pendingInbound.length < maxPendingInbound then
    modify fun c => { c with pendingInbound := c.pendingInbound ++ [payload] }
  else modify fun c => { c with warnedPreKeyDrop := true }

/-- The frames that came before the key; a listener may end the session in between. -/
def drainPendingInbound : Code Unit := do
  let c ← get
  onlyIf c.sessionKey.isSome do
    modify fun c => { c with pendingInbound := [] }
    each (fun payload => do
      onlyIf (← get).sessionKey.isSome (openAndDeliver payload)) c.pendingInbound

/-! ### Sweeps -/

/-- Nothing is queued or owned any more. -/
def Client.sweep (c : Client) : Client :=
  { c with
    outboundQueue := []
    unackedLedger := .empty
    ackStallMutationEpoch := c.ackStallMutationEpoch + 1
    ackStallSinceAt := none
    ackStallRecoveryIssued := false }

/-- Detach everything the current lifecycle still owns. -/
def takePendingSendIds : Code (List WireId) := do
  let c ← get
  modify Client.sweep
  let _ ← cancelLiveRetryTimer
  pure (OrderedSet.ofList (c.queuedIds ++ c.ledgerIds)).keys

def failPendingIds (ids : List WireId) (reason : FailureReason) : Code Unit :=
  each (failSend reason false) ids

def markTerminalAndSweep (cause : ErrorCause) : Code Unit := do
  modify fun c => { c with terminalReached := true, terminalCause := cause }
  failPendingIds (← takePendingSendIds) (.terminal cause)

def handleTerminal (cause : ErrorCause) : Code Unit := do
  markTerminalAndSweep cause
  call (.error cause)

end Webchannel.Session
