import Mathlib.Data.Rat.Defs
import Mathlib.Algebra.Order.Ring.Rat
import Webchannel.Lib.OrderedMap
import Webchannel.Lib.Runs

/-!
# The approval-origin lease registry

`ApprovalOriginLeaseRegistry` of `approval-origin.ts`. The lease handles are closures in
the source; here they are the rows of a table beside the registry. The clock is part of
the world: it never runs backwards, but any one read of it may come back non-finite.
-/

namespace Webchannel.Approval

/-- What a read of the clock, or a request's time stamp, can be. -/
inductive Reading where
  | finite (ms : ℚ)
  | nonFinite
  deriving DecidableEq

inductive Evidence where
  | origin | presence
  deriving DecidableEq, Repr

inductive Resolution where
  | resolved (peerId : String)
  | noMatch
  | ambiguous
  | epochPoisoned
  | invalidRequestTime
  deriving DecidableEq, Repr

/-- `activatedAtMs = none` is the positive infinity of an unprovable start. -/
structure Claim where
  claimId : Nat
  rawAccountId : String
  canonicalKey : String
  peerId : String
  activatedAtMs : Option ℚ
  deriving DecidableEq

/-- `lastObservedMs = none` is the negative infinity it starts from. -/
structure Registry where
  maxPoisonedKeys : Nat
  nextClaimId : Nat
  epoch : Nat
  barrierMs : ℚ
  clockTrusted : Bool
  lastObservedMs : Option ℚ
  claimsByKey : OrderedMap String (OrderedMap Nat Claim)
  poisonedKeys : List String
  epochGloballyPoisoned : Bool

def defaultMaxPoisonedKeys : Nat := 1024

/-- The collision domain key of an account and a session. -/
def composeCanonicalKey (normalizeAccountId : String → String) (rawAccountId sessionKey : String) :
    String :=
  normalizeAccountId rawAccountId ++ " " ++ sessionKey

/-- The exact origin a claim stands for; the source compares the JSON text of the pair. -/
def Claim.exactOrigin (c : Claim) : String × String := (c.rawAccountId, c.peerId)

namespace Registry

def establishBarrier (r : Registry) : Reading → Registry
  | .nonFinite => { r with clockTrusted := false }
  | .finite value =>
    { r with barrierMs := value, lastObservedMs := some value, clockTrusted := true }

def create (maxPoisonedKeys : Option Int) (reading : Reading) : Registry :=
  establishBarrier
    { maxPoisonedKeys := match maxPoisonedKeys with
        | some cap => if 0 < cap then cap.toNat else defaultMaxPoisonedKeys
        | none => defaultMaxPoisonedKeys
      nextClaimId := 1, epoch := 0, barrierMs := 0, clockTrusted := false
      lastObservedMs := none, claimsByKey := .empty, poisonedKeys := []
      epochGloballyPoisoned := false } reading

def readClock (r : Registry) : Reading → Option ℚ × Registry
  | .nonFinite => (none, { r with clockTrusted := false })
  | .finite value =>
    if r.lastObservedMs.any fun last => value < last then (none, { r with clockTrusted := false })
    else (some value, { r with lastObservedMs := some value })

def poisonKey (r : Registry) (canonicalKey : String) : Registry :=
  if r.epochGloballyPoisoned || r.poisonedKeys.contains canonicalKey then r
  else if r.poisonedKeys.length + 1 > r.maxPoisonedKeys then
    { r with poisonedKeys := [], epochGloballyPoisoned := true }
  else { r with poisonedKeys := r.poisonedKeys ++ [canonicalKey] }

/-- The loop of `poisonIfOverlapping`: stop as soon as two exact origins have been seen. -/
def seesTwoOrigins (origins : List (String × String)) : List Claim → Bool
  | [] => false
  | c :: rest =>
    let seen := if origins.contains c.exactOrigin then origins else c.exactOrigin :: origins
    if seen.length ≥ 2 then true else seesTwoOrigins seen rest

/-- The claims of one key in activation order. -/
def claimsAt (r : Registry) (canonicalKey : String) : List Claim :=
  match r.claimsByKey.get canonicalKey with
  | none => []
  | some claims => claims.entries.map Prod.snd

def poisonIfOverlapping (r : Registry) (canonicalKey : String) : Registry :=
  if (r.claimsAt canonicalKey).length < 2 then r
  else if seesTwoOrigins [] (r.claimsAt canonicalKey) then r.poisonKey canonicalKey
  else r

def insertClaim (r : Registry) (claim : Claim) : Registry :=
  let claims := (r.claimsByKey.get claim.canonicalKey).getD .empty
  poisonIfOverlapping
    { r with claimsByKey :=
        r.claimsByKey.set claim.canonicalKey (claims.set claim.claimId claim) }
    claim.canonicalKey

def deleteClaim (r : Registry) (canonicalKey : String) (claimId : Nat) : Registry :=
  match r.claimsByKey.get canonicalKey with
  | none => r
  | some claims =>
    let rest := claims.delete claimId
    if rest.size = 0 then { r with claimsByKey := r.claimsByKey.delete canonicalKey }
    else { r with claimsByKey := r.claimsByKey.set canonicalKey rest }

def rotateEpoch (r : Registry) (reading : Reading) : Registry :=
  let cleared := establishBarrier
    { r with epoch := r.epoch + 1, poisonedKeys := [], epochGloballyPoisoned := false } reading
  cleared.claimsByKey.keys.foldl poisonIfOverlapping cleared

/-- The loop of `resolve` over the claims of the key. -/
def selectPeer (rawAccountId : String) (requestCreatedAtMs : ℚ) (onlyPeerId : Option String) :
    List Claim → Resolution
  | [] => match onlyPeerId with
    | none => .noMatch
    | some peerId => .resolved peerId
  | claim :: rest =>
    if claim.rawAccountId ≠ rawAccountId then
      selectPeer rawAccountId requestCreatedAtMs onlyPeerId rest
    else if claim.activatedAtMs.all fun at_ => ¬ at_ < requestCreatedAtMs then
      selectPeer rawAccountId requestCreatedAtMs onlyPeerId rest
    else match onlyPeerId with
      | none => selectPeer rawAccountId requestCreatedAtMs (some claim.peerId) rest
      | some peerId =>
        if peerId ≠ claim.peerId then .ambiguous
        else selectPeer rawAccountId requestCreatedAtMs onlyPeerId rest

/-- The clock has been read; what remains of `resolve` changes nothing. -/
def resolveAt (r : Registry) (canonicalKey rawAccountId : String) (requestCreatedAtMs : Reading)
    (nowMs : ℚ) : Resolution :=
  match requestCreatedAtMs with
  | .nonFinite => .invalidRequestTime
  | .finite t =>
    if t ≤ r.barrierMs then .invalidRequestTime
    else if t > nowMs then .invalidRequestTime
    else if r.epochGloballyPoisoned then .epochPoisoned
    else if r.poisonedKeys.contains canonicalKey then .ambiguous
    else selectPeer rawAccountId t none (r.claimsAt canonicalKey)

def resolve (r : Registry) (canonicalKey rawAccountId : String) (requestCreatedAtMs : Reading)
    (reading : Reading) : Resolution × Registry :=
  if r.clockTrusted = false then (.invalidRequestTime, r)
  else match r.readClock reading with
    | (none, r') => (.invalidRequestTime, r')
    | (some nowMs, r') => (r'.resolveAt canonicalKey rawAccountId requestCreatedAtMs nowMs, r')

end Registry

/-- The variables of one handle's closure. `activatedWhen` is a history variable: the time
the clock showed when `activate()` took effect. -/
structure Lease where
  rawAccountId : String
  sessionKey : String
  peerId : String
  evidence : Evidence
  canonicalKey : String
  claimId : Nat
  createdEpoch : Nat
  activated : Bool
  released : Bool
  activatedWhen : ℚ
  deriving DecidableEq

structure World where
  registry : Registry
  leases : List Lease
  clock : ℚ

/-- A read of the clock; `glitch` makes this one read non-finite. -/
def World.read (w : World) (glitch : Bool) : Reading :=
  if glitch then .nonFinite else .finite w.clock

def World.create (maxPoisonedKeys : Option Int) (clock : ℚ) (glitch : Bool) : World where
  registry := .create maxPoisonedKeys (if glitch then .nonFinite else .finite clock)
  leases := []
  clock := clock

variable (normalizeAccountId : String → String)

def World.createLease (w : World) (rawAccountId sessionKey peerId : String)
    (evidence : Option Evidence) : World :=
  { w with
    registry := { w.registry with nextClaimId := w.registry.nextClaimId + 1 }
    leases := w.leases ++
      [{ rawAccountId, sessionKey, peerId, evidence := evidence.getD .origin
         canonicalKey := composeCanonicalKey normalizeAccountId rawAccountId sessionKey
         claimId := w.registry.nextClaimId, createdEpoch := w.registry.epoch
         activated := false, released := false, activatedWhen := 0 }] }

/-- `activate()` on lease `l`, at position `i` of the table. -/
def World.activate (w : World) (i : Nat) (l : Lease) (glitch : Bool) : World :=
  if l.activated || l.released then w
  else
    let provable := l.evidence = .origin ∧ l.createdEpoch = w.registry.epoch
    let (readMs, registry) := if provable then w.registry.readClock (w.read glitch)
      else (none, w.registry)
    { w with
      registry := registry.insertClaim
        { claimId := l.claimId, rawAccountId := l.rawAccountId, canonicalKey := l.canonicalKey
          peerId := l.peerId, activatedAtMs := readMs }
      leases := w.leases.set i { l with activated := true, activatedWhen := w.clock } }

def World.release (w : World) (i : Nat) (l : Lease) : World :=
  if l.released then w
  else { w with
    registry := w.registry.deleteClaim l.canonicalKey l.claimId
    leases := w.leases.set i { l with released := true } }

def World.resolve (w : World) (rawAccountId sessionKey : String) (requestCreatedAtMs : Reading)
    (glitch : Bool) : Resolution × World :=
  let (resolution, registry) := w.registry.resolve
    (composeCanonicalKey normalizeAccountId rawAccountId sessionKey) rawAccountId
    requestCreatedAtMs (w.read glitch)
  (resolution, { w with registry })

inductive Action where
  | tick (ms : ℚ)
  | createLease (rawAccountId sessionKey peerId : String) (evidence : Option Evidence)
  | activate (i : Nat) (glitch : Bool)
  | release (i : Nat)
  | rotateEpoch (glitch : Bool)
  | resolve (rawAccountId sessionKey : String) (requestCreatedAtMs : Reading) (glitch : Bool)

def step (w : World) : Action → Option World
  | .tick ms => if w.clock ≤ ms then some { w with clock := ms } else none
  | .createLease rawAccountId sessionKey peerId evidence =>
    some (w.createLease normalizeAccountId rawAccountId sessionKey peerId evidence)
  | .activate i glitch => (w.leases[i]?).map fun l => w.activate i l glitch
  | .release i => (w.leases[i]?).map fun l => w.release i l
  | .rotateEpoch glitch => some { w with registry := w.registry.rotateEpoch (w.read glitch) }
  | .resolve rawAccountId sessionKey requestCreatedAtMs glitch =>
    some (w.resolve normalizeAccountId rawAccountId sessionKey requestCreatedAtMs glitch).2

end Webchannel.Approval
