import Webchannel.Rotation.Host

/-!
# The rotation command

`rotate-conversation-key-cli.ts`. The exit code is the result; the lines that name an outcome have their texts, the line
in front of them the error that it describes.
-/

namespace Webchannel.Rotation.Command

open Effect

variable (w : World)

def exitOk : Nat := 0

def exitFailed : Nat := 1

def exitUsage : Nat := 2

def print (line : JsString) : Action Unit := modify (·.print (.text line))

def decimalText (n : Nat) : JsString := js (toString n)

def doubleText (d : Double) : JsString := JsonText.doubles.format d

/-! ## The outcome lines -/

def dryRunOutcome : String :=
  "DRY-RUN OUTCOME: no K was rotated; the one-time legacy migration may have completed. Resolve the reported cause before another dry run."

def applyOutcome : ApplyFailureState → String
  | .committedUnverified =>
    "APPLY OUTCOME: the rotation commit path completed, but complete durable readback did not verify. Treat tuple state as changed and unverified; keep every replica stopped, inspect both documents, and escalate. Do not rerun blindly."
  | .committedVerifiedReviewMismatch =>
    "APPLY OUTCOME: rotation committed and complete durable readback verified, but the committed tuple+target set did not match the reviewed digest. K is rotated; keep every replica stopped and treat the tuple as unquiesced. Do not rerun blindly."
  | .committedVerifiedCleanupFailed =>
    "APPLY OUTCOME: K rotation committed; complete durable readback verified, but rotation-lock cleanup failed. K is rotated; leave the lock untouched, keep every replica stopped, and inspect or escalate. Do not rerun."
  | .noVerifiedCommit =>
    "APPLY OUTCOME: no verified commit was established and durable tuple state may have changed. Keep every replica stopped, inspect both documents and the lock, and escalate. Do not rerun blindly."

def usageHint : String := "Run \"openclaw-webchannel-rotate-key --help\" for usage."

def cleanupAlsoFailed : String :=
  "Rotation-lock cleanup also failed. Leave the lock untouched until its ownership and the durable tuple state have been inspected."

def noCommitAttempted : String :=
  "APPLY OUTCOME: no rotation commit was attempted. K was not changed by this invocation; legacy migration may have completed. Keep every replica stopped and inspect the reported lock, artifact, or target before deciding whether a new dry run is safe."

/-- The lines behind the description of the error. -/
def outcomeLines (apply : Bool) (failure : Failure) : List String :=
  if apply = false then [dryRunOutcome]
  else
    match failure with
    | .outcome state _ cleanupError => applyOutcome state :: if cleanupError.isSome then [cleanupAlsoFailed] else []
    | .preflight _ | .digestMismatch _ _ => [noCommitAttempted]
    | _ => [applyOutcome .noVerifiedCommit]

def reportFailureOutcome (invocation : Invocation) (failure : Failure) (host : Host) : Host :=
  (outcomeLines invocation.apply failure).foldl (fun host line => host.complain (.text line)) host

/-! ## The rotation -/

variable (invocation : Invocation) (paths : TupleStoragePaths)

def assertApplyTargetExists : Action Unit :=
  match invocation.target with
  | .peer peerId => do
    let preview ← previewPeerRotation w paths peerId
    if preview.present = false then raise (.noSuchPeer peerId) else pure ()
  | .account => do
    let preview ← previewAccountRotation w paths
    if preview.peerCount = 0 then raise .emptyAccount else pure ()

def currentText : Option Generation → JsString
  | some generation =>
    js "generation epoch=" ++ doubleText generation.epoch ++ js " rotatedAtSec=" ++ doubleText generation.rotatedAtSec
  | none => js "no generation label recorded (audit-only sidecar entry is missing)"

def previewRotation : Action Nat := do
  print (js "  mode:      DRY RUN — no key is rotated (legacy migration may complete)")
  match invocation.target with
  | .peer peerId =>
    let preview ← previewPeerRotation w paths peerId
    print (js "  target:    peer " ++ peerId)
    if preview.present = false then raise (.noSuchPeer peerId)
    else
      print (js "  current:   " ++ currentText preview.generation)
      print (js "  note:      the generation label is an audit diagnostic. It is not a lock and not evidence about who is running.")
      print (js "")
      print (js "Re-run with --apply to commit.")
      pure exitOk
  | .account =>
    let preview ← previewAccountRotation w paths
    print (js "  target:    ALL peers in this account")
    if preview.peerCount = 0 then raise .emptyAccount
    else
      print (js "  peers:     " ++ decimalText preview.peerCount)
      print (js "  digest:    " ++ preview.targetDigest)
      print (js "  note:      peer identifiers are deliberately not listed. The digest commits to this exact tuple and target set.")
      print (js "")
      print (js "Re-run with --apply --confirm-digest " ++ preview.targetDigest ++ js " to commit.")
      pure exitOk

inductive Summary where
  | peer (summary : PeerRotationSummary)
  | account (summary : AccountRotationSummary)

/-- What is done while the lock is held. -/
def rotateTarget : Action Summary :=
  match invocation.target with
  | .peer peerId => do
    print (js "  target:    peer " ++ peerId)
    let summary ← rotatePeerVerified w paths peerId
    pure (.peer summary)
  | .account => do
    let preview ← previewAccountRotation w paths
    if some preview.targetDigest ≠ invocation.confirmDigest then
      throw (.digestMismatch preview.peerCount preview.targetDigest)
    else
      print (js "  target:    ALL peers in this account")
      let summary ← rotateAccountVerified w paths (invocation.confirmDigest.getD [])
      if some summary.targetDigest ≠ invocation.confirmDigest then
        throw (.outcome .committedVerifiedReviewMismatch (.error (.reviewMismatch summary.targetDigest)) none)
      else pure (.account summary)

/-- What a failed rotation is called. -/
def classify : Failure → Failure
  | .readback detail => .outcome .committedUnverified (.readback detail) none
  | failure => failure

/-- A failed cleanup keeps the state of the rotation in front of it. -/
def withCleanupFailure (cleanupError : Failure) : Option Failure → Failure
  | some (.outcome state error _) => .outcome state error (some cleanupError)
  | some failure => .outcome .noVerifiedCommit failure (some cleanupError)
  | none => .outcome .committedVerifiedCleanupFailed cleanupError none

def cleanUp (directory token : JsString) : Action Unit := do
  modify (·.update directory fun d => { d with lock := w.beforeLockRelease.1 d.lock })
  if w.beforeLockRelease.2 then releaseRotationLock w directory token else raise .system

def printSummary : Summary → Action Unit
  | .peer summary => do
    print (js "  committed: epoch=" ++ doubleText summary.epoch)
    print (js "  rotatedAt: " ++ doubleText summary.rotatedAtSec ++ js " (unix seconds)")
  | .account summary => do
    print (js "  committed: " ++ decimalText summary.peerCount ++ js " peers")
    print (js "  digest:    " ++ summary.targetDigest)
    print (js "  rotatedAt: " ++ doubleText summary.rotatedAtSec ++ js " (unix seconds)")

def readbackVerified : JsString := js "  readback:  verified from disk"

def applyRotation : Action Nat := do
  print (js "  mode:      APPLY")
  let token ← acquireRotationLock w paths.directory
  let rotated ← attempt (rotateTarget w invocation paths)
  let cleaned ← attempt (cleanUp w paths.directory token)
  match rotated, cleaned with
  | .error failure, .ok _ => throw (classify failure)
  | .error failure, .error cleanupError => throw (withCleanupFailure cleanupError (some (classify failure)))
  | .ok _, .error cleanupError => throw (withCleanupFailure cleanupError none)
  | .ok summary, .ok _ =>
    printSummary summary
    print readbackVerified
    print (js "")
    print (js
      "Rotation committed. It revoked nothing and disconnected nobody: every affected browser must be forced through a fresh bootstrap to receive the new key. See docs/CREDENTIAL_CONTAINMENT_RUNBOOK.md.")
    pure exitOk

def runIf (condition : Bool) (action : Action Unit) : Action Unit := if condition then action else pure ()

/-- The refusal of a tuple that may have a writer. -/
def refuseLiveWriters (directory : JsString) : Action Unit := do
  let findings ← probeLiveTupleWriters w directory
  if findings = [] then pure ()
  else
    modify fun host => findings.foldl (fun host finding => host.complain (.artifact finding)) host
    throw (.preflight (.artifacts findings))

def execute : Action Nat := do
  let paths ← orRaise id (tupleStoragePaths w invocation.tenant invocation.accountId invocation.storageRoot)
  runIf (!invocation.ignoreLiveWriters) (refuseLiveWriters w paths.directory)
  -- The rotator is made here, and has yet to migrate.
  modify fun host => { host with migrationPrepared := false }
  runIf invocation.apply (assertApplyTargetExists w invocation paths)
  print (js "openclaw-webchannel-rotate-key")
  print (js "  tenant:    " ++ invocation.tenant)
  print (js "  account:   " ++ invocation.accountId)
  print (js "  directory: " ++ paths.directory)
  if invocation.apply then applyRotation w invocation paths else previewRotation w invocation paths

/-- The machine at the start: its directories, and nothing read or printed. -/
def Host.start (tuples : JsString → Directory) : Host := ⟨tuples, 0, false, [], []⟩

/-- The exit code, and the machine afterwards. -/
def runRotateConversationKeyCli (argv : List JsString) (host : Host) : Nat × Host :=
  match parseInvocation w.isAbsolute argv with
  | .help => (exitOk, host.print .usage)
  | .usageError message => (exitUsage, (host.complain (.usage message)).complain (.text usageHint))
  | .run invocation =>
    match exec (execute w invocation) host with
    | (.ok code, host) => (code, host)
    | (.error failure, host) => (exitFailed, reportFailureOutcome invocation failure (host.complain (.described failure)))

end Webchannel.Rotation.Command
