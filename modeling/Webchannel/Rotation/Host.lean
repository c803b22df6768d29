import Webchannel.Lib.Effect
import Webchannel.Rotation.Invocation
import Webchannel.Rotation.Rotator

/-!
# The machine that the rotation command runs on

The directories of the tuples with their two documents and the rotation lock, and what the operating system answers to each
call: every read, write, link and unlink, the generator, the clock and the two fault seams may fail, a write also after its
effect or by leaving other bytes than it was given. Nothing else writes while the command runs. What a temporary file leaves
behind is not looked at again.
-/

namespace Webchannel.Rotation.Command

open Effect Storage
open JsonIntegers (safeInteger)

/-! ## What the world does -/

/-- A read returns what is there, finds nothing, or throws. -/
inductive Reading where
  | returns | missing | fails
  deriving DecidableEq, Repr

/-- A write: what it makes of the bytes it is given, if it gets so far, and whether it returns. -/
structure Writing where
  leaves : Option (Bytes → Bytes)
  returns : Bool

/-- A call works, or throws with `EEXIST` or another code. -/
inductive Attempt where
  | works | eexist | fails
  deriving DecidableEq, Repr

/-- An unlink works, or throws without its effect or with it. -/
inductive Unlinking where
  | works | fails | failsLate
  deriving DecidableEq, Repr

/-- A key document is published where there is none. -/
structure Migration where
  publishes : Option Bytes
  returns : Bool

/-- The two documents of a tuple. -/
structure Documents where
  keys : Option Bytes
  generations : Option Bytes
  deriving DecidableEq

/-- What the command takes from its surroundings, with the outcome of every call. The reads are numbered from the start of
the run, the keys by the place of their peer; the other calls are made once. -/
structure World where
  isAbsolute : JsString → Bool
  join : JsString → JsString → JsString
  home : JsString
  deriveStorageNamespaceId : StorageScope → JsString
  sha256Hex : Bytes → JsString
  pid : Nat
  processIsAlive : Nat → Bool
  readdir : Reading
  read : Nat → Reading
  migrate : AmbiguousConversationKeyPolicy → Migration
  /-- `randomBytes(16)` -/
  token : Option Bytes
  /-- The temporary file of the lock, up to its `closeSync`. -/
  lockFile : Attempt
  linkLock : Writing
  unlinkTemporary : Bool
  /-- `randomBytes(CONVERSATION_KEY_BYTES)` -/
  randomKey : Nat → Option Bytes
  nowSec : Double
  persistGenerations : Writing
  persistKeys : Writing
  beforeVerifiedReadback : (Documents → Documents) × Bool
  beforeLockRelease : (Option Bytes → Option Bytes) × Bool
  unlinkLock : Unlinking

/-! ## What is thrown -/

/-- A possible writer that the probe reports. -/
inductive Finding where
  | invalidPid
  | locallyLive (pid : Nat)
  | notObservable (pid : Nat)
  deriving DecidableEq, Repr

inductive PreflightReason where
  | unreadableDirectory
  | artifacts (findings : List Finding)
  | lockNotTaken
  | lockUnreadable
  | lockHeld (ownerPid : Nat) (alive : Bool)
  | lockNotOurs
  | lockNotReleased
  deriving DecidableEq

inductive ReadbackDetail where
  | notReread
  | keyCount
  | sidecarCardinality
  | keyMaterial
  | generationLabel
  deriving DecidableEq, Repr

inductive ApplyFailureState where
  | noVerifiedCommit
  | committedUnverified
  | committedVerifiedReviewMismatch
  | committedVerifiedCleanupFailed
  deriving DecidableEq, Repr

/-- The errors without a class of their own. -/
inductive Cause where
  | system
  | scope (error : ContractError)
  | storageRoot
  | legacyMigration
  | document (error : Thrown)
  | storageIo
  | emptyPeerId
  | noSuchPeer (peerId : JsString)
  | emptyAccount
  | digestRange
  | capacity (current maxKeys : Nat)
  | clock
  | epoch
  | keyLength
  | reviewMismatch (targetDigest : JsString)
  deriving DecidableEq

/-- What the command may throw, by its class. -/
inductive Failure where
  | preflight (reason : PreflightReason)
  | digestMismatch (peerCount : Nat) (targetDigest : JsString)
  | readback (detail : ReadbackDetail)
  | outcome (state : ApplyFailureState) (error : Failure) (cleanupError : Option Failure)
  | error (cause : Cause)

/-! ## The machine -/

/-- `others` are the names of the other files. -/
structure Directory where
  documents : Documents
  lock : Option Bytes
  others : List JsString

/-- A line for the operator. -/
inductive ErrorLine where
  | text (line : String)
  | usage (message : JsString)
  | artifact (finding : Finding)
  | described (failure : Failure)

inductive OutputLine where
  | usage
  | text (line : JsString)
  deriving DecidableEq

structure Host where
  tuples : JsString → Directory
  reads : Nat
  migrationPrepared : Bool
  out : List OutputLine
  err : List ErrorLine

abbrev Action (α : Type) := Eff Failure Host α

def raise {α : Type} (cause : Cause) : Action α := throw (.error cause)

def okOr {α : Type} (cause : Cause) : Option α → Action α
  | some a => pure a
  | none => raise cause

def orRaise {ε α : Type} (cause : ε → Cause) : Except ε α → Action α
  | .ok a => pure a
  | .error error => raise (cause error)

def Host.print (host : Host) (line : OutputLine) : Host := { host with out := host.out ++ [line] }

def Host.complain (host : Host) (line : ErrorLine) : Host := { host with err := host.err ++ [line] }

def Host.update (host : Host) (directory : JsString) (f : Directory → Directory) : Host :=
  { host with tuples := Function.update host.tuples directory (f (host.tuples directory)) }

@[simp] theorem Host.update_self (host : Host) (directory : JsString) (f : Directory → Directory) :
    (host.update directory f).tuples directory = f (host.tuples directory) := Function.update_self ..

theorem Host.update_of_ne (host : Host) {directory other : JsString} (h : other ≠ directory) (f : Directory → Directory) :
    (host.update directory f).tuples other = host.tuples other := Function.update_of_ne h ..

variable (w : World)

/-- `readFileSync(path, "utf8")`; `none` is `ENOENT`. -/
def readFile (directory : JsString) (file : Directory → Option Bytes) : Action (Option JsString) := do
  let host ← get
  modify fun host => { host with reads := host.reads + 1 }
  match w.read host.reads with
  | .returns => pure ((file (host.tuples directory)).map stringOfUtf8)
  | .missing => pure none
  | .fails => raise .system

/-- What a write leaves of `serialized` where `before` was. -/
def Writing.apply (writing : Writing) (serialized : JsString) (before : Option Bytes) : Option Bytes :=
  match writing.leaves with
  | some leaves => some (leaves (encodeUtf8 serialized))
  | none => before

/-- What a migration leaves of the documents. -/
def Migration.apply (migration : Migration) (documents : Documents) : Documents :=
  { documents with keys := documents.keys.or migration.publishes }

def migrateLegacyTupleState (directory : JsString) (policy : AmbiguousConversationKeyPolicy) : Action Unit := do
  modify (·.update directory fun d => { d with documents := (w.migrate policy).apply d.documents })
  if (w.migrate policy).returns then pure () else raise .legacyMigration

/-! ## The paths -/

structure TupleStoragePaths where
  scope : StorageScope
  directory : JsString

def validateStorageRoot (value : JsString) : Except Cause JsString :=
  if value = [] ∨ 0 ∈ value ∨ w.isAbsolute value = false then .error .storageRoot else .ok value

def resolveStorageRoot : Option JsString → Except Cause JsString
  | none => .ok (w.join w.home (js ".openclaw-webchannel-v2"))
  | some storageRoot => validateStorageRoot w storageRoot

def tupleStoragePaths (tenant accountId : JsString) (storageRoot : Option JsString) : Except Cause TupleStoragePaths :=
  match createStorageIdentityV2 ⟨tenant, accountId⟩ with
  | .error error => .error (.scope error)
  | .ok scope => (resolveStorageRoot w storageRoot).map fun storageRoot =>
    ⟨scope, w.join storageRoot (w.deriveStorageNamespaceId scope)⟩

/-! ## The preflight -/

def isDigit (u : UInt16) : Bool := 48 ≤ u ∧ u ≤ 57

def isLowerHex (u : UInt16) : Bool := isDigit u ∨ 97 ≤ u ∧ u ≤ 102

/-- The digits of `.tmp-<digits>-<hex>`, where this is the whole string. -/
def artifactPid (s : JsString) : Option JsString :=
  let rest := s.drop 5
  let digits := rest.takeWhile isDigit
  let hex := rest.drop (digits.length + 1)
  if s.take 5 = js ".tmp-" ∧ digits ≠ [] ∧ rest[digits.length]? = some hyphen ∧ hex ≠ [] ∧ hex.all isLowerHex then some digits
  else none

/-- The number that digits stand for. -/
def decimal (digits : JsString) : Nat := digits.foldl (fun n u => 10 * n + (u.toNat - 48)) 0

/-- `TEMP_ARTIFACT_PATTERN`, which matches at the end of a name, and what is said about a match. -/
def findingOf (entry : JsString) : Option Finding :=
  (entry.tails.findSome? artifactPid).map fun digits =>
    let pid := decimal digits
    if pid = 0 ∨ 2 ^ 53 ≤ pid then .invalidPid
    else if w.processIsAlive pid then .locallyLive pid
    else .notObservable pid

/-- The documents and the lock match no temporary name. -/
def probeLiveTupleWriters (directory : JsString) : Action (List Finding) := do
  match w.readdir with
  | .fails => throw (.preflight .unreadableDirectory)
  | .missing => pure []
  | .returns =>
    let host ← get
    pure ((host.tuples directory).others.filterMap (findingOf w))

structure RotationLockFile where
  ownerPid : Int
  token : JsString
  deriving DecidableEq

/-- `toString("hex")` -/
def hexOf (bytes : Bytes) : JsString :=
  bytes.flatMap fun b => [JsonText.hexDigit (b.toNat / 16), JsonText.hexDigit (b.toNat % 16)]

def serializeLock (token : JsString) : JsString :=
  JsonText.stringify JsonText.doubles
    (.obj [(js "version", .num (toDouble 1)), (js "ownerPid", .num (toDouble w.pid)), (js "token", .str token)])

def parseLock (serialized : JsString) : Option RotationLockFile :=
  match JsonText.parse JsonText.doubles serialized with
  | none => none
  | some candidate =>
    if (candidate.member "version").any (isInteger 1) = false then none
    else
      match candidate.member "ownerPid", candidate.member "token" with
      | some (.num ownerPid), some (.str token) =>
        match safeInteger ownerPid with
        | some ownerPid => if ownerPid ≤ 0 ∨ ¬ (token.all isLowerHex ∧ token.length = 32) then none else some ⟨ownerPid, token⟩
        | none => none
      | _, _ => none

/-- Whatever goes wrong is a lock that cannot be read. -/
def readRotationLock (directory : JsString) : Action (Option RotationLockFile) := do
  let serialized ← tryCatch (readFile w directory Directory.lock) fun _ => pure none
  pure (serialized.bind parseLock)

/-- `atomicWritePrivateFile` with `replace: false`: a link, which fails where something is there. -/
def publishLock (directory serialized : JsString) : Action Attempt := do
  match w.lockFile with
  | .works =>
    let host ← get
    if (host.tuples directory).lock.isSome then pure .eexist
    else
      modify (·.update directory fun d => { d with lock := w.linkLock.apply serialized d.lock })
      pure (if w.linkLock.returns ∧ w.unlinkTemporary then .works else .fails)
  | refused => pure refused

/-- The token of the lock that is taken. -/
def acquireRotationLock (directory : JsString) : Action JsString := do
  let bytes ← okOr .system w.token
  let token := hexOf bytes
  match ← publishLock w directory (serializeLock w token) with
  | .works => pure token
  | .fails => throw (.preflight .lockNotTaken)
  | .eexist =>
    match ← readRotationLock w directory with
    | none => throw (.preflight .lockUnreadable)
    | some owner => throw (.preflight (.lockHeld owner.ownerPid.toNat (w.processIsAlive owner.ownerPid.toNat)))

def releaseRotationLock (directory token : JsString) : Action Unit := do
  let owner ← readRotationLock w directory
  if owner ≠ some ⟨w.pid, token⟩ then throw (.preflight .lockNotOurs)
  else
    match w.unlinkLock with
    | .works => modify (·.update directory fun d => { d with lock := none })
    | .failsLate =>
      modify (·.update directory fun d => { d with lock := none })
      throw (.preflight .lockNotReleased)
    | .fails => throw (.preflight .lockNotReleased)

/-! ## The rotator -/

variable (paths : TupleStoragePaths)

def defaultMaxKeys : Nat := 10000

def prepareMigration : Action Unit := do
  let host ← get
  if host.migrationPrepared then pure ()
  else
    migrateLegacyTupleState w paths.directory .preserve
    modify fun host => { host with migrationPrepared := true }

def readKeysOrEmpty : Action Keys := do
  match ← readFile w paths.directory (·.documents.keys) with
  | none => pure .empty
  | some serialized => orRaise .document (parseConversationKeyDocument JsonText.doubles paths.scope serialized)

def readGenerations : Action Generations := do
  match ← readFile w paths.directory (·.documents.generations) with
  | none => raise .system
  | some serialized => orRaise .document (parseConversationKeyGenerationsDocument JsonText.doubles paths.scope serialized)

def readGenerationsAuditOnly : Action Generations := tryCatch (readGenerations w paths) fun _ => pure .empty

/-- The store lets one failure through: the sidecar of a newer release. -/
def storeReadGenerationsAuditOnly : Action Generations :=
  tryCatch (readGenerations w paths) fun
    | .error (.document (.document .versionTooNew fields)) => raise (.document (.document .versionTooNew fields))
    | _ => pure .empty

def assertPeerId (peerId : JsString) : Action Unit := if peerId = [] then raise .emptyPeerId else pure ()

structure PeerRotationPreview where
  present : Bool
  generation : Option Generation

def previewPeerRotation (peerId : JsString) : Action PeerRotationPreview := do
  assertPeerId peerId
  prepareMigration w paths
  let keys ← readKeysOrEmpty w paths
  if keys.has peerId = false then pure ⟨false, none⟩
  else
    let generations ← readGenerationsAuditOnly w paths
    pure ⟨true, generations.get peerId⟩

structure AccountRotationPreview where
  peerCount : Nat
  targetDigest : JsString

def previewAccountRotation : Action AccountRotationPreview := do
  prepareMigration w paths
  let keys ← readKeysOrEmpty w paths
  let targetDigest ← okOr .digestRange (rotationTargetDigest w.sha256Hex paths.scope keys.keys)
  pure ⟨keys.size, targetDigest⟩

def persistGenerations (serialized : JsString) : Action Unit := do
  modify (·.update paths.directory fun d =>
    { d with documents := { d.documents with generations := w.persistGenerations.apply serialized d.documents.generations } })
  if w.persistGenerations.returns then pure () else raise .storageIo

def persistKeys (serialized : JsString) : Action Unit := do
  modify (·.update paths.directory fun d =>
    { d with documents := { d.documents with keys := w.persistKeys.apply serialized d.documents.keys } })
  if w.persistKeys.returns then pure () else raise .storageIo

def runBeforeVerifiedReadback : Action Unit := do
  modify (·.update paths.directory fun d => { d with documents := w.beforeVerifiedReadback.1 d.documents })
  if w.beforeVerifiedReadback.2 then pure () else raise .system

/-- Both documents, the sidecar first. -/
def publishDocuments (serializedGenerations serializedKeys : JsString) : Action Unit := do
  persistGenerations w paths serializedGenerations
  persistKeys w paths serializedKeys
  runBeforeVerifiedReadback w paths

/-- The key of the peer at a place. -/
def makeRandomKey (place : Nat) : Action Bytes := do
  let bytes ← okOr .system (w.randomKey place)
  if bytes.length ≠ conversationKeyBytes then raise .keyLength else pure bytes

def readNowSec : Action Double := if isPositiveSafeInteger w.nowSec then pure w.nowSec else raise .clock

def serializeBoth (generations : Generations) (keys : Keys) : Action (JsString × JsString) := do
  let serializedGenerations ←
    orRaise .document (serializeConversationKeyGenerationsDocument JsonText.doubles paths.scope generations)
  let serializedKeys ← orRaise .document (serializeConversationKeyDocument JsonText.doubles paths.scope keys)
  pure (serializedGenerations, serializedKeys)

/-- Whatever goes wrong with the reads is a failed readback. -/
def verifyCompleteReadback (expectedKeys : Keys) (expectedGenerations : Generations) : Action Unit := do
  let read := do
    let keys ← readKeysOrEmpty w paths
    let generations ← readGenerations w paths
    pure (keys, generations)
  let stored ← tryCatch read fun _ => throw (.readback .notReread)
  if stored.1.size ≠ expectedKeys.size then throw (.readback .keyCount)
  else if stored.2.size ≠ expectedGenerations.size then throw (.readback .sidecarCardinality)
  else if matchesKeys expectedKeys stored.1 = false then throw (.readback .keyMaterial)
  else if matchesGenerations expectedGenerations stored.2 = false then throw (.readback .generationLabel)
  else pure ()

/-- `new ConversationKeyStore(this.options).rotate(peerId)` -/
def rotate (peerId : JsString) : Action ConversationKeyRotationResult := do
  assertPeerId peerId
  migrateLegacyTupleState w paths.directory .quarantine
  let freshKeys ← readKeysOrEmpty w paths
  if freshKeys.has peerId = false then raise (.noSuchPeer peerId)
  else
    let generations ← storeReadGenerationsAuditOnly w paths
    let freshGenerations := compactStaleGenerations generations freshKeys
    let currentGeneration := freshGenerations.get peerId
    if (if currentGeneration.isSome then defaultMaxKeys < freshGenerations.size else defaultMaxKeys ≤ freshGenerations.size) then
      raise (.capacity freshGenerations.size defaultMaxKeys)
    else
      let epoch ← okOr .epoch (epochAfter currentGeneration)
      let rotatedAtSec ← readNowSec w
      let key ← makeRandomKey w 0
      let serialized ← serializeBoth paths (freshGenerations.set peerId { epoch, rotatedAtSec }) (freshKeys.set peerId key)
      publishDocuments w paths serialized.1 serialized.2
      pure { key, epoch, rotatedAtSec }

def rotatePeerVerified (peerId : JsString) : Action PeerRotationSummary := do
  assertPeerId peerId
  prepareMigration w paths
  let expectedKeys ← readKeysOrEmpty w paths
  if expectedKeys.has peerId = false then raise (.noSuchPeer peerId)
  else
    let generations ← readGenerationsAuditOnly w paths
    let expectedGenerations := compactStaleGenerations generations expectedKeys
    let result ← rotate w paths peerId
    verifyCompleteReadback w paths (expectedKeys.set peerId result.key)
      (expectedGenerations.set peerId ⟨result.epoch, result.rotatedAtSec⟩)
    pure ⟨peerId, result.epoch, result.rotatedAtSec⟩

/-- The loop over the peers, from a place on. -/
def rotateEach (freshGenerations : Generations) (rotatedAtSec : Double) :
    List JsString → Nat → Keys → Generations → Action (Keys × Generations)
  | [], _, nextKeys, nextGenerations => pure (nextKeys, nextGenerations)
  | peerId :: rest, place, nextKeys, nextGenerations => do
    let key ← makeRandomKey w place
    let epoch ← okOr .epoch (epochAfter (freshGenerations.get peerId))
    rotateEach freshGenerations rotatedAtSec rest (place + 1) (nextKeys.set peerId key)
      (nextGenerations.set peerId ⟨epoch, rotatedAtSec⟩)

def rotateAccountVerified (reviewedTargetDigest : JsString) : Action AccountRotationSummary := do
  prepareMigration w paths
  let freshKeys ← readKeysOrEmpty w paths
  if freshKeys.size = 0 then raise .emptyAccount
  else
    let freshTargetDigest ← okOr .digestRange (rotationTargetDigest w.sha256Hex paths.scope freshKeys.keys)
    if freshTargetDigest ≠ reviewedTargetDigest then throw (.digestMismatch freshKeys.size freshTargetDigest)
    else
      let generations ← readGenerationsAuditOnly w paths
      let freshGenerations := compactStaleGenerations generations freshKeys
      if defaultMaxKeys < freshKeys.size then raise (.capacity freshKeys.size defaultMaxKeys)
      else
        let rotatedAtSec ← readNowSec w
        let next ← rotateEach w freshGenerations rotatedAtSec freshKeys.keys 0 .empty .empty
        let serialized ← serializeBoth paths next.2 next.1
        publishDocuments w paths serialized.1 serialized.2
        verifyCompleteReadback w paths next.1 next.2
        pure ⟨next.1.size, freshTargetDigest, rotatedAtSec⟩

end Webchannel.Rotation.Command
