import Webchannel.Ingress.Flush
import Webchannel.Lib.OrderedMap
import Webchannel.Lib.Runs
import Webchannel.Retention.Budget

/-!
# The bounded overflow resolver

`BoundedOverflowResolver` of `inbound-overflow-resolver.ts`. `resolve` is cut at its awaits and where it calls
`onCancelledRecovered`; what the outcome store and the channel answer is part of the action that resumes a task. A task
is named by its place in the list of all tasks, and its write receipt with it.
-/

namespace Webchannel.Overflow

open Webchannel.Retention
open Webchannel.Outcome (IngressOutcome Durability OutcomeLookup)
open Webchannel.Ingress (OutcomeRecordResult)

def maxOverflowResolversPerProcess : Nat := 64

def maxOverflowResolverMetadataBytes : Nat := 1 * 1024 * 1024

def overflowResolverMetadataOverhead : Nat := 192

/-- A field as `typeof` sees it. -/
inductive Field (α : Type) where
  | undefined
  | value (a : α)
  | other
  deriving DecidableEq, Repr

structure OverflowResolutionRequest where
  accountId : Field String
  peerId : Field String
  key : Field String
  id : Field String
  sessionToken : SessionToken
  recoverCancelled : Field Bool
  deriving DecidableEq, Repr

/-- The copy of a request that a task keeps. -/
structure Retained where
  accountId : String
  peerId : String
  key : String
  id : String
  sessionToken : SessionToken
  recoverCancelled : Bool
  deriving DecidableEq, Repr

inductive OverflowResolverStart where
  | started | busySession | busyKey | processCount | processBytes | invalid | disposed
  deriving DecidableEq, Repr

/-- What `resolve` is waiting for; at `recovered` it is in the call of `onCancelledRecovered`. -/
inductive Point where
  | recordingAccepted | lookingUp | recordingOverloaded | rollingBack | ackingRecovered | recovered | sending | settled
  deriving DecidableEq, Repr

structure ActiveTask where
  request : Retained
  bytes : Nat
  cancelled : Bool
  released : Bool
  point : Point
  deriving DecidableEq, Repr

/-- What happens to a task and is not in the state: the answers it has got, what it has asked the receipt of its write to
do, what it has published, and its end. -/
inductive Event where
  | disposed
  | cancelled (t : Nat)
  | found (t : Nat) (outcome : IngressOutcome)
  | recorded (t : Nat) (durability : Durability)
  | committed (t : Nat)
  | rolledBack (t : Nat)
  | sentAck (t : Nat)
  | sentRejected (t : Nat)
  | cancelledRecovered (t : Nat)
  | released (t : Nat)
  deriving DecidableEq, Repr

/-- `tasks` are all there have been. The last two fields are history: what happened, and the releases that threw. -/
structure Resolver where
  activeBySession : OrderedMap SessionToken Nat
  activeClaimsByAccount : OrderedMap String (OrderedMap String Nat)
  activeBytes : Int
  disposed : Bool
  maxTasks : Nat
  maxMetadataBytes : Nat
  tasks : List ActiveTask
  log : List Event
  underflows : Nat

def Field.get {α : Type} : Field α → Option α
  | .value a => some a
  | .undefined | .other => none

def overflowResolverMetadataBytes (request : Retained) : Nat :=
  request.accountId.utf8ByteSize + request.peerId.utf8ByteSize + request.key.utf8ByteSize + request.id.utf8ByteSize + 1
    + overflowResolverMetadataOverhead

/-- The copy of a request that `tryStart` finds valid. -/
def OverflowResolutionRequest.retained (request : OverflowResolutionRequest) : Option Retained := do
  let accountId ← request.accountId.get
  let peerId ← request.peerId.get
  let key ← request.key.get
  let id ← request.id.get
  if utf16Length id = 0 ∨ utf16Length id > 128 ∨ request.recoverCancelled = .other then none
  else some ⟨accountId, peerId, key, id, request.sessionToken, request.recoverCancelled = .value true⟩

/-- A limit of the constructor, which throws the text. -/
def limit (value : JsNumber) (name : String) : Except String Nat :=
  match assertSafeNonNegative value name with
  | .ok n => .ok n
  | .error _ => .error (name ++ " is invalid")

namespace Resolver

/-- The constructor. -/
def create (maxTasks maxMetadataBytes : Option JsNumber) : Except String Resolver := do
  let maxTasks ← limit (maxTasks.getD (.integer maxOverflowResolversPerProcess)) "maxTasks"
  let maxMetadataBytes ← limit (maxMetadataBytes.getD (.integer maxOverflowResolverMetadataBytes)) "maxMetadataBytes"
  return ⟨.empty, .empty, 0, false, maxTasks, maxMetadataBytes, [], [], 0⟩

variable (r : Resolver)

def hasActiveClaim (accountId key : String) : Bool := (r.activeClaimsByAccount.get accountId).any (·.has key)

/-- The part of `tryStart` after its checks, with `resolve` up to its first await. -/
def start (retained : Retained) : Resolver :=
  let t := r.tasks.length
  let accountClaims := (r.activeClaimsByAccount.get retained.accountId).getD .empty
  { r with
    tasks := r.tasks ++ [⟨retained, overflowResolverMetadataBytes retained, false, false,
      if retained.recoverCancelled then .recordingAccepted else .lookingUp⟩]
    activeBySession := r.activeBySession.set retained.sessionToken t
    activeClaimsByAccount := r.activeClaimsByAccount.set retained.accountId (accountClaims.set retained.key t)
    activeBytes := r.activeBytes + overflowResolverMetadataBytes retained }

def tryStart (request : OverflowResolutionRequest) : OverflowResolverStart × Resolver :=
  if r.disposed then (.disposed, r)
  else match request.retained with
    | none => (.invalid, r)
    | some retained =>
      if r.activeBySession.has retained.sessionToken then (.busySession, r)
      else if r.hasActiveClaim retained.accountId retained.key then (.busyKey, r)
      else if r.activeBySession.size ≥ r.maxTasks then (.processCount, r)
      else if (overflowResolverMetadataBytes retained : Int) > r.maxMetadataBytes - r.activeBytes then (.processBytes, r)
      else (.started, r.start retained)

/-- `task.cancelled = true`. -/
def cancel (t : Nat) : Resolver :=
  { r with tasks := r.tasks.modify t ({ · with cancelled := true }), log := r.log ++ [.cancelled t] }

def invalidateSession (sessionToken : SessionToken) : Bool × Resolver :=
  match r.activeBySession.get sessionToken with
  | none => (false, r)
  | some t => if (r.tasks[t]?).any ActiveTask.cancelled then (false, r) else (true, r.cancel t)

/-- One round of the loop of `invalidateAccount`, with the count. -/
def invalidateTask (accountId : String) (acc : Nat × Resolver) (t : Nat) : Nat × Resolver :=
  if (acc.2.tasks[t]?).any fun T => T.request.accountId = accountId ∧ ¬ T.cancelled then (acc.1 + 1, acc.2.cancel t)
  else acc

def invalidateAccount (accountId : String) : Nat × Resolver :=
  r.activeBySession.values.foldl (invalidateTask accountId) (0, r)

def dispose : Nat × Resolver :=
  if r.disposed then (0, r)
  else (r.activeBySession.size,
    r.activeBySession.values.foldl cancel { r with disposed := true, log := r.log ++ [.disposed] })

def usage : Nat × Int := (r.activeBySession.size, r.activeBytes)

/-- `release`; it throws after an underflow. -/
def release (t : Nat) (T : ActiveTask) : Resolver :=
  if T.released then r
  else
    { r with
      tasks := r.tasks.set t { T with released := true, point := .settled }
      activeBySession := if r.activeBySession.get T.request.sessionToken = some t then
          r.activeBySession.delete T.request.sessionToken
        else r.activeBySession
      activeClaimsByAccount := match r.activeClaimsByAccount.get T.request.accountId with
        | none => r.activeClaimsByAccount
        | some accountClaims =>
          let accountClaims := if accountClaims.get T.request.key = some t then accountClaims.delete T.request.key
            else accountClaims
          if accountClaims.size = 0 then r.activeClaimsByAccount.delete T.request.accountId
          else r.activeClaimsByAccount.set T.request.accountId accountClaims
      activeBytes := r.activeBytes - T.bytes
      log := r.log ++ [.released t]
      underflows := if r.activeBytes - T.bytes < 0 then r.underflows + 1 else r.underflows }

def tell (event : Event) : Resolver := { r with log := r.log ++ [event] }

/-- `resolve` runs on to its next await. -/
def suspend (t : Nat) (T : ActiveTask) (point : Point) : Resolver := { r with tasks := r.tasks.set t { T with point } }

/-- The check after every await. -/
def stopped (T : ActiveTask) : Bool := T.cancelled || r.disposed

/-- After the lookup; `none` when it threw. -/
def lookedUp (t : Nat) (T : ActiveTask) : Option OutcomeLookup → Resolver
  | none => r.release t T
  | some (.found outcome) =>
    let r := r.tell (.found t outcome)
    if r.stopped T then r.release t T
    else match outcome with
      | .accepted => (r.tell (.sentAck t)).suspend t T .sending
      | .overloaded => (r.tell (.sentRejected t)).suspend t T .sending
  | some .notFound => if r.stopped T then r.release t T else r.suspend t T .recordingOverloaded
  | some (.unknown _) => r.release t T

def rollback (t : Nat) (T : ActiveTask) : Resolver := (r.tell (.rolledBack t)).suspend t T .rollingBack

/-- After `record` for a recovered cancellation. -/
def recordedAccepted (t : Nat) (T : ActiveTask) : Option OutcomeRecordResult → Resolver
  | none => r.release t T
  | some (.recorded durability) =>
    let r := r.tell (.recorded t durability)
    if r.stopped T then r.rollback t T
    else ((r.tell (.committed t)).tell (.sentAck t)).suspend t T .ackingRecovered
  | some .unknown => r.release t T

/-- After `record` for an overload. -/
def recordedOverloaded (t : Nat) (T : ActiveTask) : Option OutcomeRecordResult → Resolver
  | none => r.release t T
  | some (.recorded durability) =>
    let r := r.tell (.recorded t durability)
    if r.stopped T ∨ durability ≠ .durable then r.rollback t T
    else ((r.tell (.committed t)).tell (.sentRejected t)).suspend t T .sending
  | some .unknown => r.release t T

/-- After `sendAck` for a recovered cancellation. -/
def acked (t : Nat) (T : ActiveTask) (acked : Option Bool) : Resolver :=
  if !r.stopped T && acked = some true then (r.tell (.cancelledRecovered t)).suspend t T .recovered
  else r.release t T

end Resolver

/-- A call from outside, or the end of what a task waits for. -/
inductive Action where
  | tryStart (request : OverflowResolutionRequest)
  | invalidateSession (sessionToken : SessionToken)
  | invalidateAccount (accountId : String)
  | dispose
  | lookedUp (t : Nat) (result : Option OutcomeLookup)
  | recorded (t : Nat) (result : Option OutcomeRecordResult)
  | rolledBack (t : Nat) (threw : Bool)
  | sent (t : Nat) (result : Option Bool)
  | returned (t : Nat) (threw : Bool)
  deriving DecidableEq, Repr


def step (r : Resolver) : Action → Option Resolver
  | .tryStart request => some (r.tryStart request).2
  | .invalidateSession sessionToken => some (r.invalidateSession sessionToken).2
  | .invalidateAccount accountId => some (r.invalidateAccount accountId).2
  | .dispose => some r.dispose.2
  | .lookedUp t result => do
    let T ← r.tasks[t]?
    if T.point = .lookingUp then some (r.lookedUp t T result) else none
  | .recorded t result => do
    let T ← r.tasks[t]?
    match T.point with
    | .recordingAccepted => some (r.recordedAccepted t T result)
    | .recordingOverloaded => some (r.recordedOverloaded t T result)
    | _ => none
  | .rolledBack t _ => do
    let T ← r.tasks[t]?
    if T.point = .rollingBack then some (r.release t T) else none
  | .sent t result => do
    let T ← r.tasks[t]?
    match T.point with
    | .ackingRecovered => some (r.acked t T result)
    | .sending => some (r.release t T)
    | _ => none
  | .returned t _ => do
    let T ← r.tasks[t]?
    if T.point = .recovered then some (r.release t T) else none

end Webchannel.Overflow
