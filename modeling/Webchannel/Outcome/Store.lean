import Webchannel.Lib.Gate
import Webchannel.Lib.LengthPrefix

/-!
# The ingress outcome store

`createIngressOutcomeStore` of `ingress-outcome.ts`: a hot cache in front of two persistent
stores, one operation at a time for each account and key, and a quarantine for markers that
a rollback could not delete. Every operation is cut at its awaits. What the persistent stores
answer is not determined here: each answer is part of the action that resumes an operation.
The callbacks that report failures are taken to return.
-/

namespace Webchannel.Outcome

inductive IngressOutcome where
  | accepted | overloaded
  deriving DecidableEq, Repr

def IngressOutcome.opposite : IngressOutcome → IngressOutcome
  | .accepted => .overloaded
  | .overloaded => .accepted

inductive Durability where
  | durable | memoryOnly
  deriving DecidableEq, Repr

inductive IngressOutcomeFailureCategory where
  | lookup (outcome : IngressOutcome)
  | record (outcome : IngressOutcome)
  | replaceWith (outcome : IngressOutcome)
  | rollback (outcome : IngressOutcome)
  | rollbackRecovery (outcome : IngressOutcome)
  | rollbackRecoveryPoisoned
  deriving DecidableEq, Repr

inductive Warning where
  | failure (accountId : String) (category : IngressOutcomeFailureCategory)
  | dualMarker
  deriving DecidableEq, Repr

/-- Where the error of an unknown result comes from. -/
inductive OutcomeError where
  | thrown | disk | rollbackRecoveryPoisoned
  deriving DecidableEq, Repr

inductive OutcomeLookup where
  | found (outcome : IngressOutcome)
  | notFound
  | unknown (error : OutcomeError)
  deriving DecidableEq, Repr

/-- What a call of a persistent store comes back with: it throws, or it returns, having
called `onDiskError` or not. -/
inductive Answer where
  | threw
  | returned (value diskError : Bool)
  deriving DecidableEq, Repr

structure HotEntry where
  accountId : String
  key : String
  outcome : IngressOutcome
  durability : Durability
  bytes : Nat
  deriving DecidableEq, Repr

def hotKey (accountId key : String) : String := lengthPrefixed accountId key

def hotEntryOverhead : Nat := 64

def hotBytes (accountId key : String) : Nat :=
  accountId.utf8ByteSize + key.utf8ByteSize + hotEntryOverhead

structure Limits where
  maxEntries : Nat
  maxBytes : Nat
  maxRecoveryEntries : Nat
  maxRecoveryBytes : Nat
  deriving DecidableEq, Repr

def defaultLimits : Limits := ⟨2048, 2 * 1024 * 1024, 2048, 2 * 1024 * 1024⟩

inductive Kind where
  | lookup
  | record (outcome : IngressOutcome) (replaceOpposite : Bool)
  | forget (outcome : IngressOutcome)
  deriving DecidableEq, Repr

inductive Reply where
  | lookup (result : OutcomeLookup)
  | recorded (durability : Durability)
  | unknown (error : OutcomeError)
  | removed (removed : Bool)
  deriving DecidableEq, Repr

/-- The await at which an operation is suspended. -/
inductive Point where
  | waiting
  | recovering (recovery : HotEntry)
  | recovered
  | lookingOverloaded
  | lookingDual
  | droppingDual
  | lookingAccepted
  | replacing
  | recording
  | undoing
  | forgetting
  | done (reply : Reply)
  deriving DecidableEq, Repr

/-- The variables of a write receipt; `rollingBack` while its `forget` is awaited. -/
structure Receipt where
  outcome : IngressOutcome
  created : Bool
  durability : Durability
  settled : Bool
  rollingBack : Bool
  deriving DecidableEq, Repr

structure Op where
  accountId : String
  key : String
  kind : Kind
  point : Point
  receipt : Option Receipt
  deriving DecidableEq, Repr

/-- Operation `i` holds ticket `i` of the gate. The last two fields are history: the
operations whose rollback called `forget`, and the markers that a rollback failed to delete
and that no call has deleted since. -/
structure OutcomeStore where
  limits : Limits
  hot : OrderedMap String HotEntry
  totalHotBytes : Nat
  rollbackRecovery : OrderedMap String HotEntry
  totalRollbackRecoveryBytes : Nat
  rollbackRecoveryPoisoned : Bool
  operationTails : Gate String
  ops : Heap Op
  warnings : List Warning
  rollbackDeletions : List Nat
  leftBehind : List (String × String × IngressOutcome)

def OutcomeStore.create (limits : Limits) : OutcomeStore :=
  ⟨limits, .empty, 0, .empty, 0, false, .empty, .empty, [], [], []⟩

namespace OutcomeStore

variable (w : OutcomeStore)

def warn (accountId : String) (category : IngressOutcomeFailureCategory) : OutcomeStore :=
  { w with warnings := w.warnings ++ [.failure accountId category] }

/-- The eviction loop of `putHot`; `fuel` is the number of entries. -/
def makeRoom (maxEntries maxBytes bytes : Nat) :
    Nat → OrderedMap String HotEntry × Nat → OrderedMap String HotEntry × Nat
  | 0, r => r
  | fuel + 1, (hot, total) =>
    if hot.size ≥ maxEntries ∨ total + bytes > maxBytes then
      match hot.entries with
      | [] => (hot, total)
      | (oldest, entry) :: _ =>
        makeRoom maxEntries maxBytes bytes fuel (hot.delete oldest, total - entry.bytes)
    else (hot, total)

def deleteHot (accountId key : String) (outcome : Option IngressOutcome) : OutcomeStore :=
  match w.hot.get (hotKey accountId key) with
  | none => w
  | some entry =>
    if outcome.any fun o => entry.outcome ≠ o then w
    else { w with
      totalHotBytes := w.totalHotBytes - entry.bytes
      hot := w.hot.delete (hotKey accountId key) }

def putHot (accountId key : String) (outcome : IngressOutcome) (durability : Durability) :
    OutcomeStore :=
  let mapKey := hotKey accountId key
  let bytes := hotBytes accountId key
  let w := w.deleteHot accountId key none
  if w.limits.maxEntries = 0 ∨ bytes > w.limits.maxBytes then w
  else
    let (hot, total) := makeRoom w.limits.maxEntries w.limits.maxBytes bytes w.hot.size
      (w.hot, w.totalHotBytes)
    { w with
      hot := hot.set mapKey { accountId, key, outcome, durability, bytes }
      totalHotBytes := total + bytes }

def rememberFailedRollback (accountId key : String) (outcome : IngressOutcome)
    (durability : Durability) : OutcomeStore :=
  let mapKey := hotKey accountId key
  let w := w.deleteHot accountId key (some outcome)
  if w.rollbackRecoveryPoisoned || w.rollbackRecovery.has mapKey then w
  else
    let bytes := hotBytes accountId key
    if w.limits.maxRecoveryEntries = 0 ∨ bytes > w.limits.maxRecoveryBytes ∨
        w.rollbackRecovery.size ≥ w.limits.maxRecoveryEntries ∨
        w.totalRollbackRecoveryBytes + bytes > w.limits.maxRecoveryBytes then
      warn { w with rollbackRecoveryPoisoned := true } accountId .rollbackRecoveryPoisoned
    else
      warn { w with
        rollbackRecovery :=
          w.rollbackRecovery.set mapKey { accountId, key, outcome, durability, bytes }
        totalRollbackRecoveryBytes := w.totalRollbackRecoveryBytes + bytes }
        accountId (.rollback outcome)

def peek (accountId key : String) : Option IngressOutcome :=
  if w.rollbackRecoveryPoisoned || w.rollbackRecovery.has (hotKey accountId key) then none
  else (w.hot.get (hotKey accountId key)).map HotEntry.outcome

/-! ### Operations -/

/-- `acquireOperation` up to its await, for a new operation. -/
def call (accountId key : String) (kind : Kind) : OutcomeStore :=
  { w with
    operationTails := w.operationTails.draw (hotKey accountId key)
    ops := w.ops.alloc { accountId, key, kind, point := .waiting, receipt := none } }

def goto (i : Nat) (point : Point) : OutcomeStore :=
  { w with ops := w.ops.update i ({ · with point := point }) }

/-- The operation returns and gives the gate back. -/
def finish (i : Nat) (reply : Reply) : OutcomeStore :=
  { w.goto i (.done reply) with operationTails := w.operationTails.release i }

/-- How an operation returns when its outcome is unknown. -/
def Kind.unknown (error : OutcomeError) : Kind → Reply
  | .lookup => .lookup (.unknown error)
  | .record _ _ => .unknown error
  | .forget _ => .removed false

/-- Forget the history of a marker that a call has deleted. -/
def deleted (accountId key : String) (outcome : IngressOutcome) (answer : Answer) : OutcomeStore :=
  match answer with
  | .returned _ false =>
    { w with leftBehind := w.leftBehind.filter (· ≠ (accountId, key, outcome)) }
  | _ => w

/-- The gate is open: `recoverFailedRollbackUnlocked` up to its await. -/
def enter (i : Nat) (op : Op) : OutcomeStore :=
  if w.rollbackRecoveryPoisoned then
    (w.warn op.accountId .rollbackRecoveryPoisoned).finish i
      (Kind.unknown .rollbackRecoveryPoisoned op.kind)
  else match w.rollbackRecovery.get (hotKey op.accountId op.key) with
    | none => w.goto i .recovered
    | some recovery => w.goto i (.recovering recovery)

/-- The rest of `recoverFailedRollbackUnlocked`. -/
def recover (i : Nat) (op : Op) (recovery : HotEntry) : Answer → OutcomeStore
  | .threw => (w.warn op.accountId (.rollbackRecovery recovery.outcome)).finish i
      (Kind.unknown .thrown op.kind)
  | .returned _ true => (w.warn op.accountId (.rollbackRecovery recovery.outcome)).finish i
      (Kind.unknown .disk op.kind)
  | .returned value false =>
    let w := { w with
      rollbackRecovery := w.rollbackRecovery.delete (hotKey op.accountId op.key)
      totalRollbackRecoveryBytes := w.totalRollbackRecoveryBytes - recovery.bytes }
    ((w.deleteHot op.accountId op.key (some recovery.outcome)).deleted op.accountId op.key
      recovery.outcome (.returned value false)).goto i .recovered

/-- The continuation of the operation after a recovery that went well. -/
def resume (i : Nat) (op : Op) : OutcomeStore :=
  match op.kind with
  | .lookup => w.goto i .lookingOverloaded
  | .record _ true => w.goto i .replacing
  | .record _ false => w.goto i .recording
  | .forget outcome => (w.deleteHot op.accountId op.key (some outcome)).goto i .forgetting

def foundOverloaded (i : Nat) (op : Op) : OutcomeStore :=
  (w.putHot op.accountId op.key .overloaded .durable).finish i (.lookup (.found .overloaded))

def foundAccepted (i : Nat) (op : Op) : OutcomeStore :=
  let durability := match w.hot.get (hotKey op.accountId op.key) with
    | some existing => if existing.outcome = .accepted then existing.durability else .durable
    | none => .durable
  (w.putHot op.accountId op.key .accepted durability).finish i (.lookup (.found .accepted))

def lookupUnknown (i : Nat) (op : Op) (outcome : IngressOutcome) (error : OutcomeError) :
    OutcomeStore :=
  (w.warn op.accountId (.lookup outcome)).finish i (.lookup (.unknown error))

/-- The receipt of a record, with the gate kept until it is settled. -/
def receive (i : Nat) (op : Op) (outcome : IngressOutcome) (fresh diskError : Bool) :
    OutcomeStore :=
  let durability := if diskError then .memoryOnly
    else match w.hot.get (hotKey op.accountId op.key) with
      | some prior => if !fresh && prior.outcome = outcome then prior.durability else .durable
      | none => .durable
  { w with ops := w.ops.update i fun op =>
      { op with
        point := .done (.recorded durability)
        receipt := some
          { outcome, created := fresh, durability, settled := false, rollingBack := false } } }

/-- `record` after `checkAndRecord`. -/
def recorded (i : Nat) (op : Op) (outcome : IngressOutcome) : Answer → OutcomeStore
  | .threw => (w.warn op.accountId (.record outcome)).finish i (.unknown .thrown)
  | .returned fresh false => w.receive i op outcome fresh false
  | .returned fresh true =>
    let w := w.warn op.accountId (.record outcome)
    match outcome with
    | .overloaded => w.goto i .undoing
    | .accepted => w.receive i op outcome fresh true

/-- `record` after the `forget` of the opposite marker. -/
def replaced (i : Nat) (op : Op) (outcome : IngressOutcome) : Answer → OutcomeStore
  | .threw => (w.warn op.accountId (.replaceWith outcome)).finish i (.unknown .thrown)
  | .returned _ true => (w.warn op.accountId (.replaceWith outcome)).finish i (.unknown .disk)
  | .returned _ false => (w.deleteHot op.accountId op.key none).goto i .recording

/-- A persistent store has answered the call at which operation `i` is suspended. -/
def resumeWith (i : Nat) (op : Op) (answer : Answer) : Option OutcomeStore :=
  match op.point, op.kind with
  | .recovering recovery, _ => some (w.recover i op recovery answer)
  | .lookingOverloaded, .lookup => some (match answer with
    | .threw => w.lookupUnknown i op .overloaded .thrown
    | .returned true _ => w.goto i .lookingDual
    | .returned false true => w.lookupUnknown i op .overloaded .disk
    | .returned false false => w.goto i .lookingAccepted)
  | .lookingDual, .lookup => some (match answer with
    | .returned true _ => goto { w with warnings := w.warnings ++ [.dualMarker] } i .droppingDual
    | _ => w.foundOverloaded i op)
  | .droppingDual, .lookup =>
    some ((w.deleted op.accountId op.key .accepted answer).foundOverloaded i op)
  | .lookingAccepted, .lookup => some (match answer with
    | .threw => w.lookupUnknown i op .accepted .thrown
    | .returned true _ => w.foundAccepted i op
    | .returned false true => w.lookupUnknown i op .accepted .disk
    | .returned false false => w.finish i (.lookup .notFound))
  | .replacing, .record outcome _ =>
    some ((w.deleted op.accountId op.key outcome.opposite answer).replaced i op outcome answer)
  | .recording, .record outcome _ => some (w.recorded i op outcome answer)
  | .undoing, .record outcome _ =>
    some (((w.deleted op.accountId op.key outcome answer).deleteHot op.accountId op.key
      (some outcome)).finish i (.unknown .disk))
  | .forgetting, .forget outcome =>
    some ((w.deleted op.accountId op.key outcome answer).finish i (.removed (match answer with
      | .returned removed false => removed
      | _ => false)))
  | _, _ => none

/-! ### Receipts -/

def updateReceipt (i : Nat) (f : Receipt → Receipt) : OutcomeStore :=
  { w with ops := w.ops.update i fun op => { op with receipt := op.receipt.map f } }

/-- `commit()` of a receipt. -/
def commit (i : Nat) (op : Op) (receipt : Receipt) : OutcomeStore :=
  if receipt.settled then w
  else
    let w := (w.updateReceipt i ({ · with settled := true })).putHot op.accountId op.key
      receipt.outcome receipt.durability
    { w with operationTails := w.operationTails.release i }

/-- `rollback()` of a receipt, up to its await; the first component is what it returns if
it returns at once. -/
def rollback (i : Nat) (receipt : Receipt) : Option Bool × OutcomeStore :=
  if receipt.settled then (some false, w)
  else if receipt.created then
    (none, { w.updateReceipt i ({ · with settled := true, rollingBack := true }) with
      rollbackDeletions := w.rollbackDeletions ++ [i] })
  else (some false, { w.updateReceipt i ({ · with settled := true }) with
    operationTails := w.operationTails.release i })

/-- The rest of `rollback()`, after its `forget` has come back. -/
def rolledBack (i : Nat) (op : Op) (receipt : Receipt) (answer : Answer) : Bool × OutcomeStore :=
  let (removed, w) := match answer with
    | .returned removed false =>
      (removed, w.deleted op.accountId op.key receipt.outcome answer)
    | _ => (false,
        { w.rememberFailedRollback op.accountId op.key receipt.outcome receipt.durability with
          leftBehind := w.leftBehind ++ [(op.accountId, op.key, receipt.outcome)] })
  let w := if w.rollbackRecovery.has (hotKey op.accountId op.key) then w
    else w.deleteHot op.accountId op.key (some receipt.outcome)
  let w := w.updateReceipt i ({ · with rollingBack := false })
  (removed, { w with operationTails := w.operationTails.release i })

end OutcomeStore

inductive Action where
  | call (accountId key : String) (kind : Kind)
  | enter (i : Nat)
  | resume (i : Nat)
  | answer (i : Nat) (answer : Answer)
  | commit (i : Nat)
  | rollback (i : Nat)
  | rolledBack (i : Nat) (answer : Answer)
  | settleTail (i : Nat)
  | forgetTail (i : Nat)
  deriving DecidableEq, Repr

def step (w : OutcomeStore) : Action → Option OutcomeStore
  | .call accountId key kind => some (w.call accountId key kind)
  | .enter i => do
    let op ← w.ops.get i
    let gate ← w.operationTails.enter i
    return OutcomeStore.enter { w with operationTails := gate } i op
  | .resume i => do
    let op ← w.ops.get i
    if op.point = .recovered then some (w.resume i op) else none
  | .answer i answer => do
    let op ← w.ops.get i
    w.resumeWith i op answer
  | .commit i => do
    let op ← w.ops.get i
    let receipt ← op.receipt
    return w.commit i op receipt
  | .rollback i => do
    let op ← w.ops.get i
    let receipt ← op.receipt
    return (w.rollback i receipt).2
  | .rolledBack i answer => do
    let op ← w.ops.get i
    let receipt ← op.receipt
    if receipt.rollingBack then some (w.rolledBack i op receipt answer).2 else none
  | .settleTail i => do
    let gate ← w.operationTails.settleTail i
    return { w with operationTails := gate }
  | .forgetTail i => do
    let gate ← w.operationTails.forgetTail i
    return { w with operationTails := gate }

end Webchannel.Outcome
