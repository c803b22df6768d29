import Webchannel.Lib.Heap
import Webchannel.Lib.LengthPrefix
import Webchannel.Lib.OrderedMap
import Webchannel.Outcome.Store
import Webchannel.Retention.Ledger

/-!
# The bounded inbound debouncer

`createBoundedInboundDebouncer` of `bounded-inbound-debouncer.ts`. Entries, waiting buckets
and cancellation batches are objects that closures share, so they are heap cells. The worker
of a key and the microtask of a cancellation are cut where other code can run: before they
start, while `onFlush` or `onCancel` is awaited, and between a settlement and its
continuation. What the callbacks do to the reservations meanwhile is a step of its own.
-/

namespace Webchannel.Debounce

open Webchannel.Retention
open Webchannel.Outcome (IngressOutcome)

/-- A `RetainedDebounceEntry` with its state record; `key` and `generation` are variables of
its closures. `cancellationSettled` is the promise: there is none yet, or it is there and has
been resolved or not. -/
structure Entry (Item : Type) where
  item : Item
  reservation : Nat
  id : Option String
  key : String
  generation : Nat
  cancellationRequested : Bool
  cancellationPending : Bool
  cancellationCallbackRunning : Bool
  retired : Bool
  cancellationSettled : Option Bool
  releaseCancellationHold : Option Nat
  deriving DecidableEq, Repr

structure Waiting where
  key : String
  entries : List Nat
  deriving DecidableEq, Repr

structure FlushBatch where
  entries : List Nat
  generation : Nat
  deriving DecidableEq, Repr

/-- Where the worker of a chain stands: there is none, its microtask is queued, it awaits
`onFlush`, `runFlush` has returned, or its loop has ended. -/
inductive Worker where
  | idle | scheduled | awaiting | returning | finishing
  deriving DecidableEq, Repr

/-- The running batch, with the holds and the snapshot of `retainRunningFlush`. -/
structure Running where
  entries : List Nat
  holds : List (Nat × Nat)
  tracked : List Nat
  deriving DecidableEq, Repr

/-- A chain leaves its map only after its worker has ended, so the key stands for it. -/
structure KeyWorker where
  queued : List FlushBatch
  running : Option Running
  worker : Worker
  deriving DecidableEq, Repr

inductive CancelPhase where
  | scheduled | awaiting | done
  deriving DecidableEq, Repr

structure CancellationBatch where
  key : String
  entries : List Nat
  started : Bool
  callbackEntries : List Nat
  phase : CancelPhase
  deriving DecidableEq, Repr

structure TrackedCallback where
  key : String
  references : Nat
  deriving DecidableEq, Repr

/-- The last field is history: the batches that `onFlush` has been called with. -/
structure Debouncer (Item : Type) where
  waiting : OrderedMap String Nat
  buckets : Heap Waiting
  chains : OrderedMap String KeyWorker
  inflightIds : OrderedSet String
  inflightEntries : OrderedSet Nat
  inflightByKey : OrderedMap String (OrderedSet Nat)
  entries : Heap (Entry Item)
  runningCallbacks : OrderedMap Nat TrackedCallback
  cancellationBatches : OrderedMap String (OrderedSet Nat)
  cancellations : Heap CancellationBatch
  keyGeneration : OrderedMap String Nat
  disposed : Bool
  ledger : Ledger
  flushed : List (List Nat)

/-- `measure` answers `none` when it throws. -/
structure Options (Item : Type) where
  buildKey : Item → String
  getId : Item → Option String
  measure : Item → Option JsNumber
  onCancel : Bool

inductive PushResult where
  | accepted
  | duplicateInflight
  | overflowInflight
  | knownOutcome (outcome : IngressOutcome)
  | overflow (reason : RetentionLimitReason) (chargedBytes : Option JsNumber)
  | disposed
  deriving DecidableEq, Repr

/-- What the rest of the runtime answers while `push` runs: `isOverflowClaimed`,
`isCancelledFallback`, `peekOutcome` and `sessionToken`. -/
structure PushAnswers where
  overflowClaimed : Bool
  cancelledFallback : Bool
  knownOutcome : Option IngressOutcome
  sessionToken : SessionToken
  deriving DecidableEq, Repr

/-- Who settles an entry. -/
inductive Owner where
  | flush | cancel | retire
  deriving DecidableEq, Repr

def validId (id : Option String) : Option String :=
  id.filter fun value => 0 < utf16Length value ∧ utf16Length value ≤ 128

variable {Item : Type}

def checkedCharge (measure : Item → Option JsNumber) (item : Item) : Option JsNumber :=
  (measure item).filter fun charge =>
    match assertSafeNonNegative charge "" with
    | .ok _ => true
    | .error _ => false

def idIndexKey (key id : String) : String := lengthPrefixed key id

namespace Debouncer

def create (limits : BusyTurnLimits) : Debouncer Item where
  waiting := .empty
  buckets := .empty
  chains := .empty
  inflightIds := .empty
  inflightEntries := .empty
  inflightByKey := .empty
  entries := .empty
  runningCallbacks := .empty
  cancellationBatches := .empty
  cancellations := .empty
  keyGeneration := .empty
  disposed := false
  ledger := ⟨limits, []⟩
  flushed := []

variable (d : Debouncer Item)

def generation (key : String) : Nat := (d.keyGeneration.get key).getD 0

def bumpGeneration (key : String) : Debouncer Item :=
  { d with keyGeneration := d.keyGeneration.set key (d.generation key + 1) }

/-- The generation of a key that holds nothing is dropped. -/
def forgetGeneration (key : String) : Debouncer Item :=
  if !d.chains.has key && !d.waiting.has key && !d.inflightByKey.has key then
    { d with keyGeneration := d.keyGeneration.delete key }
  else d

def updateEntry (e : Nat) (f : Entry Item → Entry Item) : Debouncer Item :=
  { d with entries := d.entries.update e f }

/-- `entry.isActive()`. -/
def isActive (e : Nat) : Bool :=
  (d.entries.get e).any fun E =>
    !d.disposed && !E.cancellationRequested && d.generation E.key == E.generation

def reservationsOf (es : List Nat) : List Nat := es.filterMap fun e =>
  (d.entries.get e).map Entry.reservation

/-- The two indexes forget an entry. -/
def untrackInflight (key : String) (e : Nat) : Debouncer Item :=
  { d with
    inflightEntries := d.inflightEntries.delete e
    inflightByKey := match d.inflightByKey.get key with
      | none => d.inflightByKey
      | some keyed =>
        if (keyed.delete e).size = 0 then d.inflightByKey.delete key
        else d.inflightByKey.set key (keyed.delete e) }

def releaseEntry (key : String) (e r : Nat) (requestRelease : Bool) : Debouncer Item :=
  untrackInflight (if requestRelease then { d with ledger := d.ledger.requestRelease r } else d) key e

/-- The two indexes take in an entry. -/
def indexInflight (key : String) (e : Nat) : Debouncer Item :=
  { d with
    inflightEntries := d.inflightEntries.add e
    inflightByKey := d.inflightByKey.set key (((d.inflightByKey.get key).getD .empty).add e) }

/-- The loop of `trackInflight`; it stops when `transfer` throws. -/
def trackEntries (key : String) : List Nat → Debouncer Item → Option Fault × Debouncer Item
  | [], d => (none, d)
  | e :: es, d =>
    let d := d.indexInflight key e
    match (d.entries.get e).bind fun E => (d.ledger.rows[E.reservation]?).map (E.reservation, ·) with
    | none => trackEntries key es d
    | some (r, row) =>
      if row.released then trackEntries key es d
      else match d.ledger.transfer r .debounceInflight with
        | none => (some .alreadyReleased, d)
        | some ledger => trackEntries key es { d with ledger }

def indexKey (key : String) : Debouncer Item :=
  if d.inflightByKey.has key then d
  else { d with inflightByKey := d.inflightByKey.set key .empty }

def trackInflight (key : String) (es : List Nat) : Option Fault × Debouncer Item :=
  trackEntries key es (d.indexKey key)

def releaseCancellationHold (e : Nat) (E : Entry Item) : Debouncer Item :=
  match E.releaseCancellationHold with
  | none => d
  | some h => { d.updateEntry e ({ · with releaseCancellationHold := none }) with
      ledger := d.ledger.releaseHold E.reservation h }

/-- One round of `settleEntries`. -/
def settleEntry (key : String) (owner : Owner) (d : Debouncer Item) (e : Nat) : Debouncer Item :=
  match d.entries.get e with
  | none => d
  | some E =>
    if owner = .flush ∧ E.cancellationPending then d
    else
      let d := match owner with
        | .flush => d
        | .cancel => d.updateEntry e ({ · with cancellationPending := false })
        | .retire => d.updateEntry e ({ · with retired := true, cancellationPending := false })
      let requestRelease := owner ≠ .flush ∨
        (d.ledger.rows[E.reservation]?).map Reservation.owner ≠ some .pending
      let d := d.releaseEntry key e E.reservation requestRelease
      let d := if owner = .cancel ∨ owner = .retire ∧ !E.cancellationCallbackRunning then
        d.releaseCancellationHold e E else d
      let d := match E.id with
        | none => d
        | some id => { d with inflightIds := d.inflightIds.delete (idIndexKey key id) }
      if owner = .flush then d
      else d.updateEntry e fun E =>
        { E with cancellationSettled := E.cancellationSettled.map fun _ => true }

def settleEntries (key : String) (es : List Nat) (owner : Owner) : Debouncer Item :=
  (es.foldl (settleEntry key owner) d).forgetGeneration key

/-! ### Running callbacks -/

def trackRunningCallback (key : String) (es : List Nat) : Debouncer Item :=
  { d with runningCallbacks := es.foldl (fun m e => m.set e (match m.get e with
      | some tracked => { tracked with references := tracked.references + 1 }
      | none => ⟨key, 1⟩)) d.runningCallbacks }

/-- The closure returned by `trackRunningCallback`; it stops when an entry is not tracked. -/
def stopTracking : List Nat → OrderedMap Nat TrackedCallback → OrderedMap Nat TrackedCallback
  | [], m => m
  | e :: es, m => match m.get e with
    | none => m
    | some tracked =>
      if tracked.references ≤ 1 then stopTracking es (m.delete e)
      else stopTracking es (m.set e { tracked with references := tracked.references - 1 })

/-- The holds of `retainRunningFlush`; when one throws, those before it are given back. -/
def holdAll : List Nat → Ledger → Option (List (Nat × Nat)) × Ledger
  | [], l => (some [], l)
  | r :: rs, l => match l.hold r with
    | none => (none, l)
    | some (h, l) => match holdAll rs l with
      | (none, l) => (none, l.releaseHold r h)
      | (some holds, l) => (some ((r, h) :: holds), l)

def releaseHolds (holds : List (Nat × Nat)) (l : Ledger) : Ledger :=
  holds.foldl (fun l hold => l.releaseHold hold.1 hold.2) l

def setChain (key : String) (chain : KeyWorker) : Debouncer Item :=
  { d with chains := d.chains.set key chain }

/-- `runFlush` up to its await, for a batch that has just been taken off the queue. -/
def startFlush (key : String) (queued : List FlushBatch) (batch : FlushBatch) : Debouncer Item :=
  let skipped : KeyWorker := ⟨queued, some ⟨batch.entries, [], []⟩, .returning⟩
  if !d.disposed && d.generation key == batch.generation then
    match holdAll (d.reservationsOf batch.entries) d.ledger with
    | (none, ledger) => ({ d with ledger }.setChain key skipped).settleEntries key batch.entries .flush
    | (some holds, ledger) =>
      { ({ d with ledger }.trackRunningCallback key batch.entries).setChain key
          ⟨queued, some ⟨batch.entries, holds, batch.entries⟩, .awaiting⟩ with
        flushed := d.flushed ++ [batch.entries] }
  else (d.setChain key skipped).settleEntries key batch.entries .flush

/-- The worker runs on to its next await. -/
def workerNext (key : String) (chain : KeyWorker) : Debouncer Item :=
  match chain.queued with
  | [] => d.setChain key ⟨[], none, .finishing⟩
  | batch :: queued => d.startFlush key queued batch

/-- The rest of `runFlush`, after `onFlush` has settled. -/
def flushSettled (key : String) (chain : KeyWorker) (running : Running) : Debouncer Item :=
  let d := d.settleEntries key running.entries .flush
  { d.setChain key { chain with worker := .returning } with
    ledger := releaseHolds running.holds d.ledger
    runningCallbacks := stopTracking running.tracked d.runningCallbacks }

/-- The callback on the end of a worker. -/
def workerEnded (key : String) (chain : KeyWorker) : Debouncer Item :=
  if !chain.queued.isEmpty then d.setChain key { chain with worker := .scheduled }
  else
    let d := { d with chains := d.chains.delete key }
    if !d.waiting.has key && !d.inflightByKey.has key then
      { d with keyGeneration := d.keyGeneration.delete key }
    else d

/-- `chain.queued.push(batch)` and `pump`. -/
def enqueueBatch (key : String) (batch : FlushBatch) : Debouncer Item :=
  let chain := (d.chains.get key).getD ⟨[], none, .idle⟩
  d.setChain key
    { chain with
      queued := chain.queued ++ [batch]
      worker := if chain.worker = .idle then .scheduled else chain.worker }

/-- `detachAndQueue`, run by the timer or the microtask of a bucket. -/
def detachAndQueue (b : Nat) (bucket : Waiting) : Option Fault × Debouncer Item :=
  if d.waiting.get bucket.key ≠ some b then (none, d)
  else
    let d := { d with
      waiting := d.waiting.delete bucket.key
      buckets := d.buckets.update b ({ · with entries := [] }) }
    let flushGeneration := d.generation bucket.key
    match d.trackInflight bucket.key bucket.entries with
    | (some fault, d) => (some fault, d)
    | (none, d) => (none, d.enqueueBatch bucket.key ⟨bucket.entries, flushGeneration⟩)

/-! ### Admission -/

variable (options : Options Item)

/-- The end of `push`: the entry is retained. -/
def retain (item : Item) (key : String) (id : Option String) (reservation : Nat) : Debouncer Item :=
  let e := d.entries.next
  let d := { d with
    entries := d.entries.alloc
      { item, reservation, id, key, generation := d.generation key
        cancellationRequested := false, cancellationPending := false
        cancellationCallbackRunning := false, retired := false
        cancellationSettled := none, releaseCancellationHold := none }
    inflightIds := id.elim d.inflightIds fun id => d.inflightIds.add (idIndexKey key id) }
  match d.waiting.get key with
  | some b => { d with buckets := d.buckets.update b fun bucket =>
      { bucket with entries := bucket.entries ++ [e] } }
  | none => { d with
      buckets := d.buckets.alloc ⟨key, [e]⟩
      waiting := d.waiting.set key d.buckets.next }

/-- The part of `push` that makes the reservation. -/
def admission (item : Item) (key : String) (id : Option String) (answers : PushAnswers) :
    PushResult × Debouncer Item :=
  match checkedCharge options.measure item with
  | none => (.overflow .sessionByteCount none, d)
  | some charge => match d.ledger.tryReserve answers.sessionToken charge .debounceWaiting with
    | (.ok (.accepted r), ledger) => (.accepted, { d with ledger }.retain item key id r)
    | (.ok (.rejected reason), _) => (.overflow reason (some charge), d)
    | (.error _, _) => (.overflow .sessionByteCount none, d)

def push (item : Item) (answers : PushAnswers) : PushResult × Debouncer Item :=
  if d.disposed then (.disposed, d)
  else
    let key := options.buildKey item
    match validId (options.getId item) with
    | none => d.admission options item key none answers
    | some id =>
      if answers.overflowClaimed then (.overflowInflight, d)
      else match (if answers.cancelledFallback then none else answers.knownOutcome) with
        | some known => (.knownOutcome known, d)
        | none =>
          if d.inflightIds.has (idIndexKey key id) then (.duplicateInflight, d)
          else d.admission options item key (some id) answers

/-! ### Cancellation and retirement -/

def clearCapturedBatches (key : String) : Debouncer Item :=
  match d.chains.get key with
  | none => d
  | some chain => d.setChain key
      { chain with queued := [], running := chain.running.map ({ · with entries := [] }) }

def clearQueuedCancellationBatches (key : String) : Debouncer Item :=
  match d.cancellationBatches.get key with
  | none => d
  | some batches =>
    { d with
      cancellations := d.cancellations.updateAll batches.keys fun batch =>
        if batch.started then batch else { batch with entries := [] }
      cancellationBatches := d.cancellationBatches.delete key }

def waitingEntries (key : String) : List Nat :=
  (((d.waiting.get key).bind d.buckets.get).map Waiting.entries).getD []

def activeEntries (key : String) : List Nat :=
  ((d.inflightByKey.get key).map OrderedMap.keys).getD []

def exactUnion (key : String) : List Nat :=
  (OrderedSet.ofList (d.activeEntries key ++ d.waitingEntries key)).keys

def newlyCancelled (key : String) (notify : Option Bool) : List Nat :=
  if notify = some true then
    (d.exactUnion key).filter fun e => !((d.entries.get e).any Entry.cancellationRequested)
  else d.exactUnion key

def dropBucket (key : String) : Debouncer Item :=
  match d.waiting.get key with
  | none => d
  | some b => { d with
      waiting := d.waiting.delete key
      buckets := d.buckets.update b ({ · with entries := [] }) }

/-- One round of the loop that pins the newly cancelled entries; `none` when `hold` throws. -/
def pin (e : Nat) : Option Fault × Debouncer Item :=
  match d.entries.get e with
  | none => (none, d)
  | some E =>
    let d := d.updateEntry e ({ · with cancellationRequested := true, cancellationPending := true })
    let promised (E : Entry Item) : Entry Item :=
      { E with cancellationSettled := some (E.cancellationSettled.getD false) }
    match E.releaseCancellationHold with
    | some _ => (none, d.updateEntry e promised)
    | none => match d.ledger.hold E.reservation with
      | none => (some .cannotHold, d)
      | some (h, ledger) => (none, { d with ledger }.updateEntry e fun E =>
          promised { E with releaseCancellationHold := some h })

def pinAll : List Nat → Debouncer Item → Option Fault × Debouncer Item
  | [], d => (none, d)
  | e :: es, d => match d.pin e with
    | (some fault, d) => (some fault, d)
    | (none, d) => pinAll es d

def scheduleCancellation (key : String) (es : List Nat) : Debouncer Item :=
  { d with
    cancellations := d.cancellations.alloc ⟨key, es, false, [], .scheduled⟩
    cancellationBatches := d.cancellationBatches.set key
      (((d.cancellationBatches.get key).getD .empty).add d.cancellations.next) }

/-- The branch of `cancelKey` that notifies `onCancel`. -/
def notifyCancelled (key : String) (waitingEntries newlyCancelled : List Nat) :
    Except Fault Bool × Debouncer Item :=
  match pinAll newlyCancelled d with
  | (some fault, d) => (.error fault, d)
  | (none, d) => match d.trackInflight key waitingEntries with
    | (some fault, d) => (.error fault, d)
    | (none, d) => (.ok true, (d.scheduleCancellation key newlyCancelled).forgetGeneration key)

def settleCancelled (key : String) (newlyCancelled : List Nat) (retireInflight : Bool) :
    Debouncer Item :=
  if retireInflight then
    (((d.settleEntries key newlyCancelled .retire).clearCapturedBatches
      key).clearQueuedCancellationBatches key).forgetGeneration key
  else (d.settleEntries key newlyCancelled .cancel).forgetGeneration key

def cancelKey (key : String) (notify : Option Bool) : Except Fault Bool × Debouncer Item :=
  let waitingEntries := d.waitingEntries key
  let newlyCancelled := d.newlyCancelled key notify
  if newlyCancelled.isEmpty then (.ok false, d)
  else
    let d := (d.dropBucket key).bumpGeneration key
    if notify = some true && options.onCancel then
      d.notifyCancelled key waitingEntries newlyCancelled
    else (.ok true, d.settleCancelled key newlyCancelled (notify = some false))

def unscheduleCancellation (key : String) (c : Nat) : Debouncer Item :=
  { d with cancellationBatches := match d.cancellationBatches.get key with
      | none => d.cancellationBatches
      | some batches =>
        if (batches.delete c).size = 0 then d.cancellationBatches.delete key
        else d.cancellationBatches.set key (batches.delete c) }

/-- The microtask of a cancellation, up to its await. -/
def cancelStart (c : Nat) (batch : CancellationBatch) : Debouncer Item :=
  let d := d.unscheduleCancellation batch.key c
  let started (phase : CancelPhase) (batch : CancellationBatch) : CancellationBatch :=
    { batch with started := true, entries := [], callbackEntries := batch.entries, phase }
  if batch.entries.isEmpty then
    { d with cancellations := d.cancellations.update c (started .done) }
  else
    trackRunningCallback { d with
      cancellations := d.cancellations.update c (started .awaiting)
      entries := d.entries.updateAll batch.entries ({ · with cancellationCallbackRunning := true }) }
      batch.key batch.entries

/-- The rest of it, after `onCancel` has settled. -/
def cancelSettled (c : Nat) (batch : CancellationBatch) : Debouncer Item :=
  settleEntries { d with
    cancellations := d.cancellations.update c ({ · with phase := .done })
    entries := d.entries.updateAll batch.callbackEntries
      ({ · with cancellationCallbackRunning := false })
    runningCallbacks := stopTracking batch.callbackEntries d.runningCallbacks }
    batch.key batch.callbackEntries .cancel

/-! ### Disposal -/

/-- One round of the loop over the waiting buckets, with the count. -/
def disposeBucket (acc : Nat × Debouncer Item) (bucket : String × Nat) : Nat × Debouncer Item :=
  let es := ((acc.2.buckets.get bucket.2).map Waiting.entries).getD []
  (acc.1 + es.length, (acc.2.bumpGeneration bucket.1).settleEntries bucket.1 es .retire)

def retireActive (d : Debouncer Item) (active : String × Nat) : Debouncer Item :=
  d.settleEntries active.1 [active.2] .retire

def activeAll : List (String × Nat) :=
  d.inflightByKey.entries.flatMap fun keyed => keyed.2.keys.map (keyed.1, ·)

/-- Retire what is in flight and let go of every captured batch. -/
def retireAll : Debouncer Item :=
  let d := d.activeAll.foldl retireActive d
  let d := d.chains.keys.foldl clearCapturedBatches d
  d.cancellationBatches.keys.foldl clearQueuedCancellationBatches d

def dispose : (Nat × Nat) × Debouncer Item :=
  if d.disposed then ((0, d.runningCallbacks.size), d)
  else
    let (waitingCount, d) := d.waiting.entries.foldl disposeBucket (0, { d with disposed := true })
    let d := { d with waiting := .empty }
    let inflight := d.activeAll.map Prod.snd ++ d.runningCallbacks.keys
    ((waitingCount, (OrderedSet.ofList inflight).size), { d.retireAll with inflightIds := .empty })

end Debouncer

/-- What can happen to the debouncer; the last action is a call that a callback, or another
owner of reservations, makes on the budget. -/
inductive Action (Item : Type) where
  | push (item : Item) (answers : PushAnswers)
  | detach (b : Nat)
  | workerNext (key : String)
  | flushSettled (key : String)
  | workerEnded (key : String)
  | cancelKey (key : String) (notify : Option Bool)
  | cancelStart (c : Nat)
  | cancelSettled (c : Nat)
  | dispose
  | ledger (call : Call)

def step (options : Options Item) (d : Debouncer Item) : Action Item → Option (Debouncer Item)
  | .push item answers => some (d.push options item answers).2
  | .detach b => do
    let bucket ← d.buckets.get b
    return (d.detachAndQueue b bucket).2
  | .workerNext key => do
    let chain ← d.chains.get key
    if chain.worker = .scheduled ∨ chain.worker = .returning then some (d.workerNext key chain)
    else none
  | .flushSettled key => do
    let chain ← d.chains.get key
    let running ← chain.running
    if chain.worker = .awaiting then some (d.flushSettled key chain running) else none
  | .workerEnded key => do
    let chain ← d.chains.get key
    if chain.worker = .finishing then some (d.workerEnded key chain) else none
  | .cancelKey key notify => some (d.cancelKey options key notify).2
  | .cancelStart c => do
    let batch ← d.cancellations.get c
    if batch.phase = .scheduled then some (d.cancelStart c batch) else none
  | .cancelSettled c => do
    let batch ← d.cancellations.get c
    if batch.phase = .awaiting then some (d.cancelSettled c batch) else none
  | .dispose => some d.dispose.2
  | .ledger call => some { d with ledger := (d.ledger.call call).2 }

end Webchannel.Debounce
