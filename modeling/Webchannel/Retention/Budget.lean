import Mathlib.Logic.Function.Basic
import Mathlib.Data.List.Basic
import Webchannel.Lib.Effect

/-!
# The retained-work budget

`InboundRetentionBudget` of `inbound-retention.ts`, field for field. Counters are
kept redundantly for the process and for each session, in total and per owner,
and every method adjusts them in place. Reservations are closures in the source;
here each is a record in a table, addressed by its position, and the closures
returned by `hold()` are the flags of its `handles`.
-/

namespace Webchannel.Retention

open Webchannel.Effect

/-- A JavaScript number as far as the checks look at it. -/
inductive JsNumber where
  | integer (value : Int)
  | other
  deriving DecidableEq, Repr

def maxSafeInteger : Int := 2 ^ 53 - 1

/-- `Number.isSafeInteger`. -/
def JsNumber.isSafeInteger : JsNumber → Bool
  | .integer value => decide (-maxSafeInteger ≤ value ∧ value ≤ maxSafeInteger)
  | .other => false

inductive RetentionOwner where
  | debounceWaiting | debounceInflight | pending
  deriving DecidableEq, Repr

def RetentionOwner.text : RetentionOwner → String
  | .debounceWaiting => "debounce-waiting"
  | .debounceInflight => "debounce-inflight"
  | .pending => "pending"

inductive RetentionLimitReason where
  | sessionMessageCount | sessionByteCount | processMessageCount | processByteCount
  deriving DecidableEq, Repr

/-- Everything the class can throw. The last four are its internal assertions. -/
inductive Fault where
  | notSafeNonNegative (name : String)
  | cannotHold
  | alreadyReleased
  | releasedMoreThanOnce
  | releaseWithoutSession
  | liveWithoutSession
  | holdUnderflow
  | usageUnderflow (scope : String)
  deriving DecidableEq, Repr

def Fault.message : Fault → String
  | .notSafeNonNegative name => name ++ " must be a finite non-negative safe integer"
  | .cannotHold => "cannot hold a released retention reservation"
  | .alreadyReleased => "retention reservation already released"
  | .releasedMoreThanOnce => "retention reservation released more than once"
  | .releaseWithoutSession => "retention invariant: release has no session usage"
  | .liveWithoutSession => "retention invariant: live reservation has no session usage"
  | .holdUnderflow => "retention reservation hold underflow"
  | .usageUnderflow scope => "retention invariant: " ++ scope ++ " usage underflow"

/-- The assertions about the class's own bookkeeping, as opposed to misuse by a caller. -/
def Fault.internal : Fault → Bool
  | .releaseWithoutSession | .liveWithoutSession | .holdUnderflow | .usageUnderflow _ => true
  | _ => false

structure RetentionUsage where
  messages : Int
  bytes : Int
  deriving DecidableEq, Repr

def zeroUsage : RetentionUsage := ⟨0, 0⟩

def RetentionUsage.add (u : RetentionUsage) (messages bytes : Int) : RetentionUsage :=
  ⟨u.messages + messages, u.bytes + bytes⟩

abbrev RetentionBreakdown := RetentionOwner → RetentionUsage

def zeroBreakdown : RetentionBreakdown := fun _ => zeroUsage

structure BusyTurnLimits where
  maxMessagesPerSession : Nat
  maxBytesPerSession : Nat
  maxMessagesPerProcess : Nat
  maxBytesPerProcess : Nat
  deriving DecidableEq, Repr

def defaultBusyTurnLimits : BusyTurnLimits := ⟨32, 1 * 1024 * 1024, 1024, 32 * 1024 * 1024⟩

/-- The value of a number that `assertSafeNonNegative` lets through. -/
def assertSafeNonNegative (value : JsNumber) (name : String) : Except Fault Nat :=
  match value with
  | .integer n => if JsNumber.isSafeInteger (.integer n) && decide (0 ≤ n)
      then .ok n.toNat else .error (.notSafeNonNegative name)
  | .other => .error (.notSafeNonNegative name)

/-- The limits a constructor call passes, before `validateLimits` has looked at them. -/
structure LimitArguments where
  maxMessagesPerSession : JsNumber
  maxBytesPerSession : JsNumber
  maxMessagesPerProcess : JsNumber
  maxBytesPerProcess : JsNumber

def validateLimits (limits : LimitArguments) : Except Fault BusyTurnLimits := do
  let maxMessagesPerSession ←
    assertSafeNonNegative limits.maxMessagesPerSession "maxMessagesPerSession"
  let maxBytesPerSession ← assertSafeNonNegative limits.maxBytesPerSession "maxBytesPerSession"
  let maxMessagesPerProcess ←
    assertSafeNonNegative limits.maxMessagesPerProcess "maxMessagesPerProcess"
  let maxBytesPerProcess ← assertSafeNonNegative limits.maxBytesPerProcess "maxBytesPerProcess"
  pure ⟨maxMessagesPerSession, maxBytesPerSession, maxMessagesPerProcess, maxBytesPerProcess⟩

structure SessionState where
  usage : RetentionUsage
  breakdown : RetentionBreakdown

/-- Session tokens are opaque symbols; only their identity matters. -/
abbrev SessionToken := Nat

/-- The variables one reservation's closures share. `handles` has one flag for each
closure `hold()` has returned, true until that closure is first called. `finalizations`
counts the calls of `finalizeRelease`; no code reads it. -/
structure Reservation where
  sessionToken : SessionToken
  chargedBytes : Nat
  owner : RetentionOwner
  released : Bool
  releaseRequested : Bool
  holds : Int
  handles : List Bool
  finalizations : Nat
  deriving DecidableEq, Repr

structure Budget where
  limits : BusyTurnLimits
  sessions : SessionToken → Option SessionState
  processUsage : RetentionUsage
  processBreakdown : RetentionBreakdown
  reservations : List Reservation

/-- The constructor after `validateLimits`. -/
def Budget.new (limits : BusyTurnLimits) : Budget :=
  ⟨limits, fun _ => none, zeroUsage, zeroBreakdown, []⟩

abbrev BudgetM := Eff Fault Budget

def Budget.updateSession (b : Budget) (token : SessionToken)
    (f : SessionState → SessionState) : Budget :=
  { b with sessions := Function.update b.sessions token ((b.sessions token).map f) }

/-- `bump` on the one bucket of `owner`. -/
def RetentionBreakdown.add (breakdown : RetentionBreakdown) (owner : RetentionOwner)
    (messages bytes : Int) : RetentionBreakdown :=
  Function.update breakdown owner ((breakdown owner).add messages bytes)

def assertUsage (usage : RetentionUsage) (scope : String) : BudgetM Unit :=
  if usage.messages < 0 ∨ usage.bytes < 0 then throw (.usageUnderflow scope) else pure ()

/-- The session of `token` as the map holds it; the callers have checked that it is there. -/
def Budget.session (b : Budget) (token : SessionToken) : SessionState :=
  (b.sessions token).getD ⟨zeroUsage, zeroBreakdown⟩

def adjustBreakdown (token : SessionToken) (owner : RetentionOwner)
    (messageDelta byteDelta : Int) : BudgetM Unit := do
  modify fun b =>
    { b.updateSession token fun state =>
        { state with breakdown := state.breakdown.add owner messageDelta byteDelta } with
      processBreakdown := b.processBreakdown.add owner messageDelta byteDelta }
  let b ← get
  assertUsage ((b.session token).breakdown owner) ("session " ++ owner.text)
  assertUsage (b.processBreakdown owner) ("process " ++ owner.text)

def adjust (token : SessionToken) (owner : RetentionOwner)
    (messageDelta byteDelta : Int) : BudgetM Unit := do
  modify fun b =>
    { b.updateSession token fun state =>
        { state with usage := state.usage.add messageDelta byteDelta } with
      processUsage := b.processUsage.add messageDelta byteDelta }
  adjustBreakdown token owner messageDelta byteDelta
  let b ← get
  assertUsage (b.session token).usage "session"
  assertUsage b.processUsage "process"

inductive RetentionReserveResult where
  | accepted (reservation : Nat)
  | rejected (reason : RetentionLimitReason)
  deriving DecidableEq, Repr

def Reservation.fresh (token : SessionToken) (chargedBytes : Nat) (owner : RetentionOwner) :
    Reservation :=
  ⟨token, chargedBytes, owner, false, false, 0, [], 0⟩

/-- `tryReserve` once its numeric argument has passed the check. -/
def tryReserveChecked (token : SessionToken) (chargedBytes : Nat) (owner : RetentionOwner) :
    BudgetM RetentionReserveResult := do
  let b ← get
  let current := ((b.sessions token).map SessionState.usage).getD zeroUsage
  if current.messages + 1 > b.limits.maxMessagesPerSession then
    return .rejected .sessionMessageCount
  if current.bytes + chargedBytes > b.limits.maxBytesPerSession then
    return .rejected .sessionByteCount
  if b.processUsage.messages + 1 > b.limits.maxMessagesPerProcess then
    return .rejected .processMessageCount
  if b.processUsage.bytes + chargedBytes > b.limits.maxBytesPerProcess then
    return .rejected .processByteCount
  modify fun b => { b with sessions := Function.update b.sessions token (some (b.session token)) }
  adjust token owner 1 chargedBytes
  modify fun b => { b with
    reservations := b.reservations ++ [Reservation.fresh token chargedBytes owner] }
  return .accepted b.reservations.length

def tryReserve (token : SessionToken) (chargedBytes : JsNumber) (owner : RetentionOwner) :
    BudgetM RetentionReserveResult :=
  match assertSafeNonNegative chargedBytes "chargedBytes" with
  | .error fault => throw fault
  | .ok charge => tryReserveChecked token charge owner

def Budget.setReservation (b : Budget) (r : Nat) (x : Reservation) : Budget :=
  { b with reservations := b.reservations.set r x }

def finalizeRelease (r : Nat) (x : Reservation) : BudgetM Unit := do
  let b ← get
  if (b.sessions x.sessionToken).isNone then throw .releaseWithoutSession
  adjust x.sessionToken x.owner (-1) (-x.chargedBytes)
  modify fun b => b.setReservation r
    { x with released := true, finalizations := x.finalizations + 1 }
  let b ← get
  if (b.session x.sessionToken).usage.messages = 0 ∧ (b.session x.sessionToken).usage.bytes = 0 then
    modify fun b => { b with sessions := Function.update b.sessions x.sessionToken none }

/-- Returns the position of the new closure among the reservation's handles. -/
def hold (r : Nat) (x : Reservation) : BudgetM Nat := do
  if x.released || x.releaseRequested then throw .cannotHold
  modify fun b => b.setReservation r
    { x with holds := x.holds + 1, handles := x.handles ++ [true] }
  return x.handles.length

/-- A call of the closure that `hold()` returned as handle `h`. -/
def releaseHold (r h : Nat) (x : Reservation) : BudgetM Unit := do
  if x.handles[h]? ≠ some true then return
  let x' := { x with handles := x.handles.set h false, holds := x.holds - 1 }
  modify fun b => b.setReservation r x'
  if x'.holds < 0 then throw .holdUnderflow
  if x'.holds = 0 ∧ x'.releaseRequested = true ∧ x'.released = false then finalizeRelease r x'

def transfer (r : Nat) (next : RetentionOwner) (x : Reservation) : BudgetM Unit := do
  if x.released || x.releaseRequested then throw .alreadyReleased
  if next = x.owner then return
  let b ← get
  if (b.sessions x.sessionToken).isNone then throw .liveWithoutSession
  adjustBreakdown x.sessionToken x.owner (-1) (-x.chargedBytes)
  adjustBreakdown x.sessionToken next 1 x.chargedBytes
  modify fun b => b.setReservation r { x with owner := next }

/-- The common tail of `requestRelease` and `release`. -/
def markReleaseRequested (r : Nat) (x : Reservation) : BudgetM Unit := do
  let x' := { x with releaseRequested := true }
  modify fun b => b.setReservation r x'
  if x'.holds = 0 then finalizeRelease r x'

def requestRelease (r : Nat) (x : Reservation) : BudgetM Unit := do
  if x.releaseRequested then return
  if x.released then return
  markReleaseRequested r x

def release (r : Nat) (x : Reservation) : BudgetM Unit := do
  if x.released || x.releaseRequested then throw .releasedMoreThanOnce
  markReleaseRequested r x

end Webchannel.Retention
