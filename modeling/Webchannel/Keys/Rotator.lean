import Webchannel.Keys.Store

/-!
# The offline rotator

`OfflineConversationKeyRotator` over the files of a tuple. It has its own migration flag, no
cache and its own copies of the store's helpers; `targetDigest` stands for the digest over the
tuple and the sorted peers.
-/

namespace Webchannel.Keys.Rotator

open Webchannel.Effect

variable {Key : Type}

/-- An error of `readFileSync` other than ENOENT is not wrapped here. -/
def readKeysOrEmpty : Op Key (OrderedMap String Key) := do
  match (← get).disk.keys.read keyVersion with
  | none => pure .empty
  | some (.ok keys) => pure keys
  | some (.error .storageIoFailed) => throw .io
  | some (.error code) => throw (.document code)

def readGenerations : Op Key (OrderedMap String ConversationKeyGeneration) := do
  match (← get).disk.generations.read generationVersion with
  | none => throw .io
  | some (.ok generations) => pure generations
  | some (.error .storageIoFailed) => throw .io
  | some (.error code) => throw (.document code)

/-- Every failure is an empty sidecar here, a document of a newer release included. -/
def readGenerationsAuditOnly : Op Key (OrderedMap String ConversationKeyGeneration) :=
  catching readGenerations fun _ => pure .empty

structure PeerRotationPreview where
  peerId : String
  present : Bool
  generation : Option ConversationKeyGeneration
  deriving DecidableEq, Repr

def previewPeerRotation (peerId : String) : Op Key PeerRotationPreview := do
  assertPeerId peerId
  prepareMigration
  let keys ← readKeysOrEmpty
  if keys.has peerId = false then pure ⟨peerId, false, none⟩
  else
    let generations ← readGenerationsAuditOnly
    pure ⟨peerId, true, generations.get peerId⟩

structure AccountRotationPreview where
  peerCount : Nat
  targetDigest : String
  deriving DecidableEq, Repr

def previewAccountRotation (targetDigest : List String → String) : Op Key AccountRotationPreview := do
  prepareMigration
  let keys ← readKeysOrEmpty
  pure ⟨keys.size, targetDigest keys.keys⟩

def verifyCompleteReadback [DecidableEq Key] (expectedKeys : OrderedMap String Key)
    (expectedGenerations : OrderedMap String ConversationKeyGeneration) : Op Key Unit := do
  let keys ← catching readKeysOrEmpty fun _ => throw .readback
  let generations ← catching readGenerations fun _ => throw .readback
  if keys.size ≠ expectedKeys.size then throw .readback
  if generations.size ≠ expectedGenerations.size then throw .readback
  if ¬ ∀ e ∈ expectedKeys.entries, keys.get e.1 = some e.2 then throw .readback
  if ¬ ∀ e ∈ expectedGenerations.entries, generations.get e.1 = some e.2 then throw .readback

/-- `new ConversationKeyStore(this.options)` for one call. -/
def onNewStore {α : Type} (m : Op Key α) : Op Key α := do
  let own ← get
  let restore : Op Key Unit :=
    modify ({ · with cache := own.cache, migrationPrepared := own.migrationPrepared })
  modify ({ · with cache := none, migrationPrepared := false })
  let result ← tryCatch m fun e => do
    restore
    throw e
  restore
  pure result

structure PeerRotationSummary where
  peerId : String
  epoch : Nat
  rotatedAtSec : Nat
  deriving DecidableEq, Repr

def rotatePeerVerified [DecidableEq Key] (maxKeys : Nat) (peerId : String) : Op Key PeerRotationSummary := do
  assertPeerId peerId
  prepareMigration
  let expectedKeys ← readKeysOrEmpty
  if expectedKeys.has peerId = false then throw .noTarget
  let generations ← readGenerationsAuditOnly
  let expectedGenerations := compactStaleGenerations generations expectedKeys
  let result ← onNewStore (rotate maxKeys peerId)
  verifyCompleteReadback (expectedKeys.set peerId result.key)
    (expectedGenerations.set peerId ⟨result.epoch, result.rotatedAtSec⟩)
  pure ⟨peerId, result.epoch, result.rotatedAtSec⟩

structure AccountRotationSummary where
  peerCount : Nat
  targetDigest : String
  rotatedAtSec : Nat
  deriving DecidableEq, Repr

/-- The loop over the peers builds both candidates. -/
def rotateEach (freshGenerations : OrderedMap String ConversationKeyGeneration) (rotatedAtSec : Nat) :
    List String → OrderedMap String Key → OrderedMap String ConversationKeyGeneration →
      Op Key (OrderedMap String Key × OrderedMap String ConversationKeyGeneration)
  | [], nextKeys, nextGenerations => pure (nextKeys, nextGenerations)
  | peerId :: rest, nextKeys, nextGenerations => do
    let key ← randomKey
    let epoch ← epochAfter (freshGenerations.get peerId)
    rotateEach freshGenerations rotatedAtSec rest (nextKeys.set peerId key)
      (nextGenerations.set peerId ⟨epoch, rotatedAtSec⟩)

def rotateAccountVerified [DecidableEq Key] (targetDigest : List String → String) (maxKeys : Nat)
    (reviewedTargetDigest : String) : Op Key AccountRotationSummary := do
  prepareMigration
  let freshKeys ← readKeysOrEmpty
  if freshKeys.size = 0 then throw .noTarget
  let freshTargetDigest := targetDigest freshKeys.keys
  if freshTargetDigest ≠ reviewedTargetDigest then throw .digestMismatch
  let generations ← readGenerationsAuditOnly
  let freshGenerations := compactStaleGenerations generations freshKeys
  if maxKeys < freshKeys.size then throw .generationCapacity
  let rotatedAtSec ← readNowSec
  let (nextKeys, nextGenerations) ← rotateEach freshGenerations rotatedAtSec freshKeys.keys .empty .empty
  persistGenerations nextGenerations
  persistSerializedKeys .replacedAll nextKeys
  verifyCompleteReadback nextKeys nextGenerations
  pure ⟨nextKeys.size, freshTargetDigest, rotatedAtSec⟩

end Webchannel.Keys.Rotator
