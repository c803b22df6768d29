import Webchannel.Ingress.Chunks
import Webchannel.Outcome.Store

/-!
# The flush of a batch

The outcome/lease branch of `createIngressOnFlush` in `ingress-dedupe.ts`, as a program over
its dependencies: what the outcome store, the dispatcher lease, the entries and the channel
answer comes from outside. An entry is named by its position in the batch, and so are the
offer, the write receipt and the reservation that belong to it.
-/

namespace Webchannel.Ingress

open Webchannel.Program
open Webchannel.Outcome (IngressOutcome Durability OutcomeLookup)

/-- `id` is the message's id when it is a string. -/
structure IngressDedupeItem where
  peerId : String
  id : Option String
  deriving DecidableEq, Repr

def maxIngressDedupeIdLength : Nat := 128

def ingressDedupeKey (item : IngressDedupeItem) : Option String :=
  (item.id.filter fun id => 0 < utf16Length id ∧ utf16Length id ≤ maxIngressDedupeIdLength).map
    fun id => item.peerId ++ ":" ++ id

inductive OfferStatus where
  | accepted | rejected | disposed
  deriving DecidableEq, Repr

inductive OutcomeRecordResult where
  | recorded (durability : Durability)
  | unknown
  deriving DecidableEq, Repr

inductive FlushWarning where
  | resultTooSmall | fallbackRetryFailed | fallbackDeliveryFailed
  deriving DecidableEq, Repr

def FlushWarning.message : FlushWarning → String
  | .resultTooSmall => "webchannel: result frame cannot fit effective NATS max_payload"
  | .fallbackRetryFailed => "webchannel: cancelled-inbound fallback outcome retry failed"
  | .fallbackDeliveryFailed => "webchannel: cancelled-inbound fallback result delivery failed"

inductive AdapterFailure where
  | lookup | recordOverloaded | recordAccepted
  deriving DecidableEq, Repr

def AdapterFailure.category : AdapterFailure → String
  | .lookup => "adapter-lookup"
  | .recordOverloaded => "adapter-record-overloaded"
  | .recordAccepted => "adapter-record-accepted"

/-- What a flush calls. The awaited ones are `lookup`, `record`, `rollbackWrite` and
`waitForCancellation`; the others return at once. -/
inductive Call where
  | isActive
  | entryIsActive (e : Nat)
  | isCancellationRequested (e : Nat)
  | waitForCancellation (es : List Nat)
  | requestRelease (e : Nat)
  | beginBatch (peerId : String)
  | offer (e : Nat)
  | commitOffer (e : Nat)
  | rollbackOffer (e : Nat)
  | finish
  | hasFallback (key : String)
  | deleteFallback (key : String)
  | lookup (e : Nat) (key : String)
  | record (e : Nat) (key : String) (outcome : IngressOutcome) (replaceOpposite : Bool)
  | commitWrite (e : Nat)
  | rollbackWrite (e : Nat)
  | effectiveOutboundLimit
  | measureResultWireBytes (peerId : String) (frame : IngressResultFrame)
  | sendAck (site : Site) (peerId : String) (ids : List String)
  | sendInboundRejected (site : Site) (peerId : String) (ids : List String)
  | logWarn (warning : FlushWarning)
  | warnOutcomeFailure (failure : AdapterFailure)
  deriving DecidableEq, Repr

@[reducible] def Reply : Call → Type
  | .isActive | .entryIsActive _ | .isCancellationRequested _ => Bool
  | .hasFallback _ => Bool
  | .sendAck _ _ _ | .sendInboundRejected _ _ _ => Bool
  | .offer _ => OfferStatus
  | .lookup _ _ => OutcomeLookup
  | .record _ _ _ _ => OutcomeRecordResult
  | .effectiveOutboundLimit => Option Number
  | .measureResultWireBytes _ _ => Number
  | .waitForCancellation _ | .requestRelease _ | .beginBatch _ | .commitOffer _
  | .rollbackOffer _ | .finish | .deleteFallback _ | .commitWrite _ | .rollbackWrite _
  | .logWarn _ | .warnOutcomeFailure _ => Unit

/-- The variables of one flush. `rollbackOffers` holds the closures `rollbackOnce`, whose
flags are `rolledBack`. -/
structure Locals where
  ack : ChunkWriter
  rejected : ChunkWriter
  rollbackOffers : List Nat
  rolledBack : List Nat
  commitOffers : List Nat
  pendingWrites : List Nat
  deferredReleases : List Nat
  finalized : Bool
  fifoBlocked : Bool
  deriving DecidableEq, Repr

/-- How a flush returned. -/
inductive FlushEnd where
  | inactive | nothing | invalidated | published
  deriving DecidableEq, Repr

abbrev Flush := Code Call Reply Locals

def Locals.create : Locals :=
  ⟨.create ⟨1, 0⟩, .create ⟨1, 0⟩, [], [], [], [], [], false, false⟩

namespace Flush

def call (c : Call) : Flush (Reply c) := Code.call c

/-- `createIngressResultChunkWriter` with the options of a flush. -/
def createWriter : Flush ChunkWriter := do
  let effectiveOutboundLimit : Option Number ← call .effectiveOutboundLimit
  match chunkLimits none none effectiveOutboundLimit with
  | none => Code.throw
  | some limits => pure (.create limits)

def ack (peerId : String) : ChunkOptions Call Reply Locals where
  type := .ack
  publish site frame := call (.sendAck site peerId frame.ids)
  measureWireBytes frame := call (.measureResultWireBytes peerId frame)
  onTooSmall := call (.logWarn .resultTooSmall)
  writer := Locals.ack
  put writer l := { l with ack := writer }

def rejected (peerId : String) : ChunkOptions Call Reply Locals where
  type := .inboundRejected
  publish site frame := call (.sendInboundRejected site peerId frame.ids)
  measureWireBytes frame := call (.measureResultWireBytes peerId frame)
  onTooSmall := call (.logWarn .resultTooSmall)
  writer := Locals.rejected
  put writer l := { l with rejected := writer }

def release (e : Nat) : Flush Unit := call (.requestRelease e)

def blockFifo : Flush Unit := Code.modify ({ · with fifoBlocked := true })

/-- `!isActive() || !retainedItem.isActive()`. -/
def inactive (e : Nat) : Flush Bool := do
  let running : Bool ← call .isActive
  if running then
    let active : Bool ← call (.entryIsActive e)
    pure !active
  else pure true

def rollbackOnce (e : Nat) : Flush Unit := do
  let l ← Code.get
  if e ∈ l.rolledBack then pure ()
  else
    Code.modify fun l => { l with rolledBack := e :: l.rolledBack }
    call (.rollbackOffer e)

def rollbackWrites : Flush Unit := do
  let l ← Code.get
  Code.each (fun e => call (.rollbackWrite e)) l.pendingWrites

def rollbackOffers : Flush Unit := do
  let l ← Code.get
  Code.each rollbackOnce l.rollbackOffers

def releaseDeferred : Flush Unit := do
  let l ← Code.get
  Code.each release l.deferredReleases

def rollbackBatch : Flush Unit := do
  rollbackWrites
  rollbackOffers
  releaseDeferred

def wasRecorded : Option OutcomeRecordResult → Bool
  | some (.recorded _) => true
  | _ => false

/-- What is left of an entry whose record came back too late. -/
def rollbackLate (e : Nat) (result : Option OutcomeRecordResult) : Flush Unit :=
  if wasRecorded result then call (.rollbackWrite e) else pure ()

/-- The record of a cancelled message is tried again. -/
def retryFallback (e : Nat) (key : String) : Flush (Option OutcomeRecordResult) := do
  let result ← Code.attempt do
    let result : OutcomeRecordResult ← call (.record e key .accepted true)
    if wasRecorded (some result) then pure result
    else
      call (.logWarn .fallbackRetryFailed)
      pure result
  if result = none then
    call (.logWarn .fallbackRetryFailed)
    pure result
  else pure result

/-- The branch for an id with a cancellation tombstone. -/
def fallback (item : IngressDedupeItem) (e : Nat) (key id : String) : Flush Unit := do
  let result ← retryFallback e key
  if ← inactive e then
    rollbackLate e result
    release e
    blockFifo
  else if wasRecorded result then
    call (.commitWrite e)
    let acked : Bool ← call (.sendAck .fallback item.peerId [id])
    if acked then call (.deleteFallback key)
    else call (.logWarn .fallbackDeliveryFailed)
    release e
  else
    release e
    blockFifo

/-- A call of the store's adapter; what it throws is reported and leaves `none`. -/
def guarded {α : Type} (failure : AdapterFailure) (m : Flush α) : Flush (Option α) := do
  let result ← Code.attempt m
  match result with
  | some a => pure (some a)
  | none =>
    call (.warnOutcomeFailure failure)
    pure none

/-- The branch for an offer that the lease rejected. -/
def recordOverloaded (peerId : String) (e : Nat) (key id : String) : Flush Unit := do
  let result : Option OutcomeRecordResult ←
    guarded .recordOverloaded (call (.record e key .overloaded false))
  if ← inactive e then
    rollbackLate e result
    release e
    blockFifo
  else if result = some (.recorded .durable) then
    Code.modify fun l => { l with
      pendingWrites := l.pendingWrites ++ [e]
      deferredReleases := l.deferredReleases ++ [e] }
    let _ ← (rejected peerId).add (some id)
    pure ()
  else
    rollbackLate e result
    release e
    blockFifo

/-- The branch for an offer that the lease accepted. -/
def recordAccepted (peerId : String) (e : Nat) (key id : String) : Flush Unit := do
  Code.modify fun l => { l with rollbackOffers := l.rollbackOffers ++ [e] }
  let recorded : Option OutcomeRecordResult ←
    guarded .recordAccepted (call (.record e key .accepted false))
  if ← inactive e then
    rollbackLate e recorded
    blockFifo
  else if wasRecorded recorded then
    Code.modify fun l => { l with
      pendingWrites := l.pendingWrites ++ [e]
      commitOffers := l.commitOffers ++ [e] }
    let _ ← (ack peerId).add (some id)
    pure ()
  else
    rollbackOnce e
    blockFifo

/-- An id that no marker was found for is offered to the dispatcher. -/
def offerFresh (peerId : String) (e : Nat) (key id : String) : Flush Unit := do
  let offer : OfferStatus ← call (.offer e)
  match offer with
  | .disposed => release e
  | .rejected => recordOverloaded peerId e key id
  | .accepted => recordAccepted peerId e key id

/-- The branch for an id without a tombstone. -/
def classify (peerId : String) (e : Nat) (key id : String) : Flush Unit := do
  let existing : Option OutcomeLookup ← guarded .lookup (call (.lookup e key))
  if ← inactive e then
    release e
    blockFifo
  else match existing with
    | none | some (.unknown _) =>
      release e
      blockFifo
    | some (.found outcome) =>
      release e
      let _ ← match outcome with
        | .accepted => (ack peerId).add (some id)
        | .overloaded => (rejected peerId).add (some id)
      pure ()
    | some .notFound => offerFresh peerId e key id

/-- An entry without a usable id is only offered. -/
def offerBare (e : Nat) : Flush Unit := do
  let offer : OfferStatus ← call (.offer e)
  if offer = .accepted then call (.commitOffer e) else release e

/-- One round of the loop. -/
def flushEntry (peerId : String) (retained : IngressDedupeItem × Nat) : Flush Unit := do
  let (item, e) := retained
  let l ← Code.get
  if l.fifoBlocked then release e
  else if ← inactive e then
    release e
    blockFifo
  else match ingressDedupeKey item with
    | none => offerBare e
    | some key =>
      let id := item.id.getD ""
      let cancelled : Bool ← call (.hasFallback key)
      if cancelled then fallback item e key id else classify peerId e key id

/-- `!isActive() || retained.some((entry) => !entry.isActive())`. -/
def isInvalidated (es : List Nat) : Flush Bool := do
  let running : Bool ← call .isActive
  if running then
    Code.anyOf (fun e => do
      let active : Bool ← call (.entryIsActive e)
      pure !active) es
  else pure true

/-- The entries whose cancellation has been requested. -/
def cancelledOf : List Nat → Flush (List Nat)
  | [] => pure []
  | e :: es => do
    let requested : Bool ← call (.isCancellationRequested e)
    let rest ← cancelledOf es
    pure (if requested then e :: rest else rest)

/-- The end of an invalidated batch. -/
def invalidate (es : List Nat) : Flush FlushEnd := do
  rollbackWrites
  let cancelled ← cancelledOf es
  call (.waitForCancellation cancelled)
  rollbackOffers
  releaseDeferred
  Code.modify ({ · with finalized := true })
  pure .invalidated

/-- The end of any other batch. -/
def publish (peerId : String) : Flush FlushEnd := do
  let l ← Code.get
  Code.each (fun e => call (.commitWrite e)) l.pendingWrites
  Code.each (fun e => call (.commitOffer e)) l.commitOffers
  let _ ← (ack peerId).finish
  let _ ← (rejected peerId).finish
  releaseDeferred
  Code.modify ({ · with finalized := true })
  pure .published

def arbitrate (peerId : String) (items : List IngressDedupeItem) : Flush FlushEnd := do
  Code.each (flushEntry peerId) items.zipIdx
  if ← isInvalidated (List.range items.length) then invalidate (List.range items.length)
  else publish peerId

/-- The `finally` block. -/
def conclude : Flush Unit := do
  let l ← Code.get
  if l.finalized then call .finish
  else
    rollbackBatch
    call .finish

/-- The handler that `createIngressOnFlush` returns. -/
def onFlush (items : List IngressDedupeItem) : Flush FlushEnd := do
  let running : Bool ← call .isActive
  if running then
    match items with
    | [] => pure .nothing
    | anchor :: _ =>
      call (.beginBatch anchor.peerId)
      let ackWriter ← createWriter
      Code.modify ({ · with ack := ackWriter })
      let rejectedWriter ← createWriter
      Code.modify ({ · with rejected := rejectedWriter })
      Code.tryFinally (arbitrate anchor.peerId items) conclude
  else pure .inactive

end Flush

/-- A flush that has not made a call yet. -/
def onFlush (items : List IngressDedupeItem) : Prog Call Reply (Option FlushEnd × Locals) :=
  Flush.onFlush items .create

end Webchannel.Ingress
