import Webchannel.Lib.Program
import Webchannel.Rotation.Digest

/-!
# The offline rotator

`OfflineConversationKeyRotator` over the texts of the two documents. Whatever lies outside is a call: the migration, which
leaves a key document that is there as it is, the reads, the clock, the generator and the atomic writes with the hooks in
front of them. Between two calls another writer may have replaced either document, so nothing relates the answers.
-/

namespace Webchannel.Rotation

open Program Storage
open JsonIntegers (safeInteger)

abbrev Keys := OrderedMap JsString Bytes

abbrev Generation := ConversationKeyGeneration Double

abbrev Generations := OrderedMap JsString Generation

/-! ## The calls -/

inductive AmbiguousConversationKeyPolicy where
  | quarantine | preserve
  deriving DecidableEq, Repr

inductive Call where
  | migrateLegacyTupleState (policy : AmbiguousConversationKeyPolicy)
  | readKeys
  | readGenerations
  | nowSec
  | randomBytes
  | persistGenerations (serialized : JsString)
  | persistKeys (serialized : JsString)
  | beforeCachePublish
  deriving DecidableEq

/-- A read answers `none` for ENOENT. A clock that answers NaN is one that throws. -/
abbrev Reply : Call → Type
  | .readKeys | .readGenerations => Option JsString
  | .nowSec => Double
  | .randomBytes => Bytes
  | _ => Unit

/-- The variable is `migrationPrepared`. -/
abbrev Op (α : Type) := Code Call Reply Bool α

abbrev History := Trace Call Reply

def ask (c : Call) : Op (Reply c) := Code.call c

def orThrow {α : Type} : Option α → Op α
  | some a => pure a
  | none => Code.throw

/-! ## Reading -/

section

variable (scope : StorageScope)

/-- What `readKeysOrEmpty` makes of an answer. -/
def keysOrEmpty : Option JsString → Option Keys
  | none => some .empty
  | some serialized => (parseConversationKeyDocument JsonText.doubles scope serialized).toOption

/-- A missing sidecar is an error of its own. -/
def generationsOf : Option JsString → Option Generations
  | none => none
  | some serialized => (parseConversationKeyGenerationsDocument JsonText.doubles scope serialized).toOption

def readKeysOrEmpty : Op Keys := do
  let answer : Option JsString ← ask .readKeys
  orThrow (keysOrEmpty scope answer)

def readGenerations : Op Generations := do
  let answer : Option JsString ← ask .readGenerations
  orThrow (generationsOf scope answer)

/-- The generations of an answer for which every failure is an empty sidecar. -/
def auditOnly (answer : Option (Option JsString)) : Generations := (answer.bind (generationsOf scope)).getD .empty

def readGenerationsAuditOnly : Op Generations := do
  let generations ← Code.attempt (readGenerations scope)
  pure (generations.getD .empty)

/-- The store lets one failure through: the sidecar of a newer release. -/
def storeAuditOnly : Option (Option JsString) → Option Generations
  | some (some serialized) =>
    match parseConversationKeyGenerationsDocument JsonText.doubles scope serialized with
    | .ok generations => some generations
    | .error (.document .versionTooNew _) => none
    | .error _ => some .empty
  | _ => some .empty

def storeReadGenerationsAuditOnly : Op Generations := do
  let answer : Option (Option JsString) ← Code.attempt (ask .readGenerations)
  orThrow (storeAuditOnly scope answer)

end

/-! ## The steps -/

def prepareMigration : Op Unit := do
  if ← Code.get then pure ()
  else
    ask (.migrateLegacyTupleState .preserve)
    Code.modify fun _ => true

def assertPeerId (peerId : JsString) : Op Unit := if peerId = [] then Code.throw else pure ()

def compactStaleGenerations (generations : Generations) (keys : Keys) : Generations where
  entries := generations.entries.filter fun e => keys.has e.1
  nodup := generations.nodup.sublist (List.filter_sublist.map _)

def makeRandomKey : Op Bytes := do
  let bytes : Bytes ← ask .randomBytes
  if bytes.length ≠ conversationKeyBytes then Code.throw else pure bytes

def readNowSec : Op Double := do
  let value : Double ← ask .nowSec
  if isPositiveSafeInteger value then pure value else Code.throw

/-- `none` where it throws. -/
def nextEpoch (epoch : Double) : Option Double :=
  match safeInteger epoch with
  | none => none
  | some n => if n ≤ 0 ∨ 2 ^ 53 - 1 ≤ n then none else epoch.add (toDouble 1)

def epochAfter : Option Generation → Option Double
  | none => some (toDouble 1)
  | some current => nextEpoch current.epoch

/-- Every expected entry is stored as expected. -/
def matchesKeys (expected stored : Keys) : Bool := expected.entries.all fun e => decide (stored.get e.1 = some e.2)

def matchesGenerations (expected stored : Generations) : Bool :=
  expected.entries.all fun e => (stored.get e.1).any fun generation =>
    decide (generation.epoch = e.2.epoch ∧ generation.rotatedAtSec = e.2.rotatedAtSec)

def verifyCompleteReadback (scope : StorageScope) (expectedKeys : Keys) (expectedGenerations : Generations) : Op Unit := do
  let keys ← readKeysOrEmpty scope
  let generations ← readGenerations scope
  if keys.size ≠ expectedKeys.size then Code.throw
  else if generations.size ≠ expectedGenerations.size then Code.throw
  else if matchesKeys expectedKeys keys = false then Code.throw
  else if matchesGenerations expectedGenerations generations = false then Code.throw
  else pure ()

/-! ## One peer -/

structure ConversationKeyRotationResult where
  key : Bytes
  epoch : Double
  rotatedAtSec : Double

/-- Both documents, the sidecar first. -/
def publish (serializedGenerations serializedKeys : JsString) : Op Unit := do
  ask (.persistGenerations serializedGenerations)
  ask (.persistKeys serializedKeys)
  ask .beforeCachePublish

/-- `new ConversationKeyStore(this.options).rotate(peerId)`; a new store has yet to migrate. -/
def rotate (scope : StorageScope) (maxKeys : Nat) (peerId : JsString) : Op ConversationKeyRotationResult := do
  assertPeerId peerId
  ask (.migrateLegacyTupleState .quarantine)
  let freshKeys ← readKeysOrEmpty scope
  if freshKeys.has peerId = false then Code.throw
  else
    let generations ← storeReadGenerationsAuditOnly scope
    let freshGenerations := compactStaleGenerations generations freshKeys
    let currentGeneration := freshGenerations.get peerId
    if (if currentGeneration.isSome then maxKeys < freshGenerations.size else maxKeys ≤ freshGenerations.size) then Code.throw
    else
      let epoch ← orThrow (epochAfter currentGeneration)
      let rotatedAtSec ← readNowSec
      let key ← makeRandomKey
      let nextGenerations := freshGenerations.set peerId { epoch, rotatedAtSec }
      let nextKeys := freshKeys.set peerId key
      let serializedGenerations ←
        orThrow (serializeConversationKeyGenerationsDocument JsonText.doubles scope nextGenerations).toOption
      let serializedKeys ← orThrow (serializeConversationKeyDocument JsonText.doubles scope nextKeys).toOption
      publish serializedGenerations serializedKeys
      pure { key, epoch, rotatedAtSec }

structure PeerRotationSummary where
  peerId : JsString
  epoch : Double
  rotatedAtSec : Double

def rotatePeerVerified (scope : StorageScope) (maxKeys : Nat) (peerId : JsString) : Op PeerRotationSummary := do
  assertPeerId peerId
  prepareMigration
  let expectedKeys ← readKeysOrEmpty scope
  if expectedKeys.has peerId = false then Code.throw
  else
    let generations ← readGenerationsAuditOnly scope
    let expectedGenerations := compactStaleGenerations generations expectedKeys
    let result ← rotate scope maxKeys peerId
    verifyCompleteReadback scope (expectedKeys.set peerId result.key)
      (expectedGenerations.set peerId ⟨result.epoch, result.rotatedAtSec⟩)
    pure ⟨peerId, result.epoch, result.rotatedAtSec⟩

/-! ## The account -/

structure AccountRotationSummary where
  peerCount : Nat
  targetDigest : JsString
  rotatedAtSec : Double

/-- The loop over the peers. -/
def rotateEach (freshGenerations : Generations) (rotatedAtSec : Double) :
    List JsString → Keys → Generations → Op (Keys × Generations)
  | [], nextKeys, nextGenerations => pure (nextKeys, nextGenerations)
  | peerId :: rest, nextKeys, nextGenerations => do
    let key ← makeRandomKey
    let epoch ← orThrow (epochAfter (freshGenerations.get peerId))
    rotateEach freshGenerations rotatedAtSec rest (nextKeys.set peerId key) (nextGenerations.set peerId ⟨epoch, rotatedAtSec⟩)

def rotateAccountVerified (sha256Hex : Bytes → JsString) (scope : StorageScope) (maxKeys : Nat)
    (reviewedTargetDigest : JsString) : Op AccountRotationSummary := do
  prepareMigration
  let freshKeys ← readKeysOrEmpty scope
  if freshKeys.size = 0 then Code.throw
  else
    let freshTargetDigest ← orThrow (rotationTargetDigest sha256Hex scope freshKeys.keys)
    if freshTargetDigest ≠ reviewedTargetDigest then Code.throw
    else
      let generations ← readGenerationsAuditOnly scope
      let freshGenerations := compactStaleGenerations generations freshKeys
      if maxKeys < freshKeys.size then Code.throw
      else
        let rotatedAtSec ← readNowSec
        let next ← rotateEach freshGenerations rotatedAtSec freshKeys.keys .empty .empty
        let serializedGenerations ← orThrow (serializeConversationKeyGenerationsDocument JsonText.doubles scope next.2).toOption
        let serializedKeys ← orThrow (serializeConversationKeyDocument JsonText.doubles scope next.1).toOption
        publish serializedGenerations serializedKeys
        verifyCompleteReadback scope next.1 next.2
        pure ⟨next.1.size, freshTargetDigest, rotatedAtSec⟩

end Webchannel.Rotation
