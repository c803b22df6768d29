import Webchannel.Lib.Effect
import Webchannel.Lib.OrderedMap
import Webchannel.Lib.Runs

/-!
# The conversation key store

The two documents of a tuple as `storage-document.ts` and the two document modules read them,
and `ConversationKeyStore` over them. An atomic write either installs the new content or
throws, and the process may stop before it or after it; what the environment decides comes
from lists that an operation consumes. A stopped process runs no handler.
-/

namespace Webchannel.Keys

open Webchannel.Effect

/-! ## Documents -/

inductive StorageDocumentErrorCode where
  | identityUnbound
  | identityIncomplete
  | identityInvalid
  | identityMismatch
  | invalidDocument
  | versionTooNew
  | storageIoFailed
  | legacyMigrationFailed
  deriving DecidableEq, Repr

/-- What the inspection of a storage identity says about the tuple's own. -/
inductive IdentityInspection where
  | agrees
  | unbound
  | incomplete
  | invalid
  | versionTooNew
  | mismatch
  deriving DecidableEq, Repr

/-- A JSON record. The version is `none` unless it is a safe integer, the identity is `none`
when the field is absent, and the body is `none` when it is malformed. -/
structure Document (α : Type) where
  version : Option Int
  identity : Option IdentityInspection
  body : Option α

inductive FileContent (α : Type) where
  | absent
  /-- reading fails with another error than ENOENT -/
  | unreadable
  /-- not a JSON record -/
  | garbage
  | document (d : Document α)

def assertDocumentVersionNotFromFuture (supported : Int) (version : Option Int) :
    Except StorageDocumentErrorCode Unit :=
  if version.any (supported < ·) then .error .versionTooNew else .ok ()

def assertSupportedDocumentVersion (supported : Int) (version : Option Int) :
    Except StorageDocumentErrorCode Unit :=
  if version = some supported then .ok ()
  else do
    assertDocumentVersionNotFromFuture supported version
    .error .invalidDocument

/-- An absent marker is inspected as an empty record. -/
def assertDocumentStorageIdentity : Option IdentityInspection → Except StorageDocumentErrorCode Unit
  | some .agrees => .ok ()
  | none | some .unbound => .error .identityUnbound
  | some .incomplete => .error .identityIncomplete
  | some .invalid => .error .identityInvalid
  | some .versionTooNew => .error .versionTooNew
  | some .mismatch => .error .identityMismatch

/-- `parseConversationKeyDocument` and `parseConversationKeyGenerationsDocument`. -/
def Document.parse {α : Type} (supported : Int) (d : Document α) : Except StorageDocumentErrorCode α := do
  assertDocumentVersionNotFromFuture supported d.version
  if d.identity.isSome then assertDocumentStorageIdentity d.identity
  assertSupportedDocumentVersion supported d.version
  if d.identity.isNone then assertDocumentStorageIdentity none
  match d.body with
  | some body => .ok body
  | none => .error .invalidDocument

/-- What this release writes. -/
def FileContent.serialize {α : Type} (supported : Int) (body : α) : FileContent α :=
  .document ⟨some supported, some .agrees, some body⟩

/-- `none` is ENOENT. -/
def FileContent.read {α : Type} (supported : Int) : FileContent α → Option (Except StorageDocumentErrorCode α)
  | .absent => none
  | .unreadable => some (.error .storageIoFailed)
  | .garbage => some (.error .invalidDocument)
  | .document d => some (d.parse supported)

/-- A well-formed version above the supported one. -/
def FileContent.isNewer {α : Type} (supported : Int) : FileContent α → Bool
  | .document d => d.version.any (supported < ·)
  | _ => false

def keyVersion : Int := 2

def generationVersion : Int := 1

structure ConversationKeyGeneration where
  epoch : Nat
  rotatedAtSec : Nat
  deriving DecidableEq, Repr

/-- The files of the tuple. -/
structure Disk (Key : Type) where
  keys : FileContent (OrderedMap String Key)
  generations : FileContent (OrderedMap String ConversationKeyGeneration)
  /-- set aside by a quarantine -/
  archives : List (FileContent (OrderedMap String Key))

/-! ## The process -/

inductive WriteOutcome where
  | written
  | failed
  | stoppedBefore
  | stoppedAfter
  deriving DecidableEq, Repr

/-- How `migrateLegacyTupleState` ends; what it publishes is the legacy keys, and only where
there is no key document. -/
inductive Migration (Key : Type) where
  | done (published : Option (OrderedMap String Key))
  | failed
  | stopped

/-- What an operation has written. -/
inductive Write where
  | migrated
  | linked
  | archived
  | reset
  | created (peerId : String)
  | replaced (peerId : String) (epoch : Nat)
  | replacedAll
  | generations
  deriving DecidableEq, Repr

inductive Failure where
  /-- the process is gone -/
  | stopped
  | document (code : StorageDocumentErrorCode)
  /-- a read error that is not wrapped -/
  | io
  | peerId
  | capacity
  | generationCapacity
  | noTarget
  | clock
  | epoch
  | digestMismatch
  | readback
  deriving DecidableEq, Repr

structure Machine (Key : Type) where
  disk : Disk Key
  /-- `this.keys` -/
  cache : Option (OrderedMap String Key)
  migrationPrepared : Bool
  writes : List WriteOutcome
  random : List Key
  clock : List Nat
  migrations : List (Migration Key)
  /-- every durable state since the start with the write that led to it, the latest one first -/
  history : List (Write × Disk Key)

variable {Key : Type}

abbrev Op (Key α : Type) := Eff Failure (Machine Key) α

namespace Machine

def commit (m : Machine Key) (w : Write) (f : Disk Key → Disk Key) : Machine Key :=
  { m with disk := f m.disk, history := (w, f m.disk) :: m.history }

end Machine

/-- One atomic change of a file. -/
def change (w : Write) (f : Disk Key → Disk Key) : Op Key Unit := do
  match (← get).writes with
  | [] => throw .stopped
  | outcome :: rest =>
    modify ({ · with writes := rest })
    match outcome with
    | .written => modify (·.commit w f)
    | .failed => throw (.document .storageIoFailed)
    | .stoppedBefore => throw .stopped
    | .stoppedAfter =>
      modify (·.commit w f)
      throw .stopped

/-- `catch`: a stopped process runs no handler. -/
def catching {α : Type} (m : Op Key α) (handler : Failure → Op Key α) : Op Key α :=
  tryCatch m fun e => if e = .stopped then throw .stopped else handler e

def randomKey : Op Key Key := do
  match (← get).random with
  | [] => throw .stopped
  | key :: rest =>
    modify ({ · with random := rest })
    pure key

def readNowSec : Op Key Nat := do
  match (← get).clock with
  | [] => throw .stopped
  | value :: rest =>
    modify ({ · with clock := rest })
    if value = 0 then throw .clock else pure value

def maxSafeInteger : Nat := 2 ^ 53 - 1

def nextEpoch (epoch : Nat) : Op Key Nat :=
  if epoch = 0 ∨ maxSafeInteger ≤ epoch then throw .epoch else pure (epoch + 1)

/-- The first label of a peer carries epoch 1. -/
def epochAfter : Option ConversationKeyGeneration → Op Key Nat
  | some current => nextEpoch current.epoch
  | none => pure 1

def compactStaleGenerations (generations : OrderedMap String ConversationKeyGeneration)
    (keys : OrderedMap String Key) : OrderedMap String ConversationKeyGeneration where
  entries := generations.entries.filter fun e => keys.has e.1
  nodup := generations.nodup.sublist (List.filter_sublist.map _)

def assertPeerId (peerId : String) : Op Key Unit := if peerId = "" then throw .peerId else pure ()

/-! ## The store -/

def prepareMigration : Op Key Unit := do
  if (← get).migrationPrepared then pure ()
  else
    match (← get).migrations with
    | [] => throw .stopped
    | migration :: rest =>
      modify ({ · with migrations := rest })
      match migration with
      | .stopped => throw .stopped
      | .failed => throw (.document .legacyMigrationFailed)
      | .done published =>
        match published, (← get).disk.keys with
        | some keys, .absent => modify (·.commit .migrated ({ · with keys := .serialize keyVersion keys }))
        | _, _ => pure ()
        modify ({ · with migrationPrepared := true })

/-- `none` is ENOENT. -/
def readStoreFile : Op Key (Option (OrderedMap String Key)) := do
  match (← get).disk.keys.read keyVersion with
  | none => pure none
  | some (.ok keys) => pure (some keys)
  | some (.error code) => throw (.document code)

def readFresh : Op Key (OrderedMap String Key) := do
  match ← readStoreFile with
  | some keys => pure keys
  | none => pure .empty

def readGenerationFile : Op Key (Option (OrderedMap String ConversationKeyGeneration)) := do
  match (← get).disk.generations.read generationVersion with
  | none => pure none
  | some (.ok generations) => pure (some generations)
  | some (.error code) => throw (.document code)

def persistSerializedKeys (w : Write) (keys : OrderedMap String Key) : Op Key Unit :=
  change w ({ · with keys := .serialize keyVersion keys })

def persistGenerations (generations : OrderedMap String ConversationKeyGeneration) : Op Key Unit :=
  change .generations ({ · with generations := .serialize generationVersion generations })

def assertGenerationsNotFromFuture : Op Key Unit :=
  catching (do let _ ← readGenerationFile) fun e =>
    if e = .document .versionTooNew then throw e else pure ()

def readGenerationsAuditOnly : Op Key (OrderedMap String ConversationKeyGeneration) :=
  catching
    (do
      match ← readGenerationFile with
      | some generations => pure generations
      | none => pure .empty)
    fun e => if e = .document .versionTooNew then throw e else pure .empty

/-- `archiveFileNoReplace`: link the file aside, then unlink it. -/
def archiveKeys : Op Key Unit := do
  change .linked fun d => { d with archives := d.keys :: d.archives }
  change .archived fun d => { d with keys := .absent }

def resetGenerationsAfterKeyQuarantine : Op Key Unit :=
  catching (persistGenerations .empty) fun _ => pure ()

def load : Op Key (OrderedMap String Key) := do
  match (← get).cache with
  | some keys => pure keys
  | none =>
    prepareMigration
    assertGenerationsNotFromFuture
    catching
      (do
        let keys := (← readStoreFile).getD .empty
        modify ({ · with cache := some keys })
        pure keys)
      fun e =>
        if e ≠ .document .invalidDocument then throw e
        else do
          catching archiveKeys fun _ => throw (.document .legacyMigrationFailed)
          modify ({ · with cache := some .empty })
          persistSerializedKeys .reset .empty
          resetGenerationsAfterKeyQuarantine
          pure .empty

def recordInitialGenerationBestEffort (maxKeys : Nat) (peerId : String) : Op Key Unit :=
  catching
    (do
      let generations ← readGenerationsAuditOnly
      if generations.has peerId then pure ()
      else
        let freshKeys ← readFresh
        let generations := compactStaleGenerations generations freshKeys
        if maxKeys ≤ generations.size then pure ()
        else
          let rotatedAtSec ← readNowSec
          persistGenerations (generations.set peerId ⟨1, rotatedAtSec⟩))
    fun _ => pure ()

def getOrCreate (maxKeys : Nat) (peerId : String) : Op Key Key := do
  assertPeerId peerId
  let keys ← load
  match keys.get peerId with
  | some existing => pure existing
  | none =>
    if maxKeys ≤ keys.size then throw .capacity
    let fresh ← readFresh
    match fresh.get peerId with
    | some freshExisting =>
      modify ({ · with cache := some fresh })
      pure freshExisting
    | none =>
      if maxKeys ≤ fresh.size then
        modify ({ · with cache := some fresh })
        throw .capacity
      let key ← randomKey
      let next := fresh.set peerId key
      persistSerializedKeys (.created peerId) next
      modify ({ · with cache := some next })
      recordInitialGenerationBestEffort maxKeys peerId
      pure key

def get? (peerId : String) : Op Key (Option Key) := do
  let keys ← load
  pure (keys.get peerId)

def generationOf (peerId : String) : Op Key (Option ConversationKeyGeneration) := do
  assertPeerId peerId
  prepareMigration
  let generations ← readGenerationsAuditOnly
  pure (generations.get peerId)

structure ConversationKeyRotationResult (Key : Type) where
  key : Key
  epoch : Nat
  rotatedAtSec : Nat

def rotate (maxKeys : Nat) (peerId : String) : Op Key (ConversationKeyRotationResult Key) := do
  assertPeerId peerId
  prepareMigration
  let freshKeys ← readFresh
  if freshKeys.has peerId = false then throw .noTarget
  let generations ← readGenerationsAuditOnly
  let freshGenerations := compactStaleGenerations generations freshKeys
  let currentGeneration := freshGenerations.get peerId
  if (if currentGeneration.isSome then maxKeys < freshGenerations.size
      else maxKeys ≤ freshGenerations.size) then throw .generationCapacity
  let epoch ← epochAfter currentGeneration
  let rotatedAtSec ← readNowSec
  let key ← randomKey
  -- The sidecar goes first: it may be ahead of the keys, never behind them.
  persistGenerations (freshGenerations.set peerId ⟨epoch, rotatedAtSec⟩)
  persistSerializedKeys (.replaced peerId epoch) (freshKeys.set peerId key)
  modify ({ · with cache := some (freshKeys.set peerId key) })
  pure ⟨key, epoch, rotatedAtSec⟩

end Webchannel.Keys
