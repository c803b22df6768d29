import Webchannel.Lib.LengthPrefix
import Webchannel.Lib.OrderedMap

/-!
# The enrolment repository

`MemoryEnrollmentRepository` of `enrollment-repository.ts` and the registry key of
`agent-key-registry.ts`. Every operation is one synchronous read-modify-write. The clock
reads and the random activation id that an operation uses are its arguments; an operation
that reads the clock twice takes both reads.
-/

namespace Webchannel.Enrollment

inductive KeyStatus where
  | active | superseded | revoked
  deriving DecidableEq, Repr

structure AgentKeyRecord where
  tenant : String
  accountId : String
  publicKey : String
  keyId : String
  activationId : String
  status : KeyStatus
  enrolledAt : Int
  endedAt : Option Int
  supersededBy : Option String
  deriving DecidableEq, Repr

inductive EnrollmentStatus where
  | pending | approving | approved | expired | denied
  deriving DecidableEq, Repr

structure Permissions where
  pub : Option (List String)
  sub : Option (List String)
  deriving DecidableEq, Repr

structure NatsUserCredentials where
  userJwt : String
  userSeed : String
  userPubkey : String
  permissions : Option Permissions
  deriving DecidableEq, Repr

structure Claim where
  opId : String
  leaseUntil : Int
  deriving DecidableEq, Repr

structure EnrollmentRecord where
  deviceCode : String
  userCode : String
  agentPublicKey : String
  accountId : String
  tenant : String
  createdAt : Int
  expiresAt : Int
  status : EnrollmentStatus
  claim : Option Claim
  approvedAt : Option Int
  committedBy : Option String
  commitDigest : Option String
  committedRecord : Option AgentKeyRecord
  natsCreds : Option NatsUserCredentials
  peerId : Option String
  deriving DecidableEq, Repr

structure CommitApprovalPayload where
  creds : NatsUserCredentials
  peerId : String
  agentPublicKey : String
  expect : Option String
  deriving DecidableEq, Repr

/-- What the repository takes from its runtime: `Buffer.from(key, "base64url")`, SHA-256 and
the digest of a commit's canonical text. -/
structure Hashing where
  decode : String → List UInt8
  sha256 : List UInt8 → String
  digest : CommitApprovalPayload → String

def Hashing.keyId (hash : Hashing) (publicKey : String) : String := hash.sha256 (hash.decode publicKey)

inductive ClaimApprovalOutcome where
  | claimed (enrollment : EnrollmentRecord)
  | alreadyApproved (enrollment : EnrollmentRecord)
  | inProgress (leaseUntil : Int)
  | denied | expired | notFound
  deriving DecidableEq, Repr

inductive CommitApprovalOutcome where
  | committed (record : AgentKeyRecord) (idempotent : Bool)
  | claimLost | expired
  | conflict (current : Option AgentKeyRecord)
  | revoked
  deriving DecidableEq, Repr

inductive NoopReason where
  | notFound | notApproved | activePresent | historyPresent | commitSnapshotPresent
  deriving DecidableEq, Repr

inductive ReconcileOutcome where
  | registered (record : AgentKeyRecord)
  | noop (reason : NoopReason)
  deriving DecidableEq, Repr

inductive RegisterAgentKeyResult where
  | ok (record : AgentKeyRecord) (idempotent : Bool)
  | conflict (current : Option AgentKeyRecord)
  | revoked
  deriving DecidableEq, Repr

inductive Failure where
  | deviceCodeCollision (deviceCode : String)
  | userCodeCollision (userCode : String)
  | opIdReused
  | commitPayloadMismatch
  | commitKeyMismatch
  | impossibleReconciliation
  deriving DecidableEq, Repr

/-- The length prefixes keep the boundary between tenant and account. -/
def agentKeyRegistryKey (tenant accountId : String) : String :=
  toString (utf16Length tenant) ++ ":" ++ tenant ++ "/" ++
    toString (utf16Length accountId) ++ ":" ++ accountId

structure Repository where
  retentionMs : Int
  enrollments : OrderedMap String EnrollmentRecord
  userCodes : OrderedMap String String
  histories : OrderedMap String (List AgentKeyRecord)

def EnrollmentRecord.claimedBy (record : EnrollmentRecord) (opId : String) : Bool :=
  record.claim.any (·.opId = opId)

namespace Repository

def create (retentionMs : Int) : Repository := ⟨retentionMs, .empty, .empty, .empty⟩

/-- An empty code counts as absent, as `code ? … : undefined` has it. -/
def byUserCode (r : Repository) (userCode : String) : Option EnrollmentRecord :=
  match r.userCodes.get userCode with
  | some code => if code = "" then none else r.enrollments.get code
  | none => none

/-- Writing to a stored record. -/
def put (r : Repository) (record : EnrollmentRecord) : Repository :=
  { r with enrollments := r.enrollments.set record.deviceCode record }

def createEnrollment (r : Repository) (enrollment : EnrollmentRecord) : Except Failure Repository :=
  if r.enrollments.has enrollment.deviceCode then
    .error (.deviceCodeCollision enrollment.deviceCode)
  else if (r.byUserCode enrollment.userCode).isSome then
    .error (.userCodeCollision enrollment.userCode)
  else
    .ok { r.put enrollment with
      userCodes := r.userCodes.set enrollment.userCode enrollment.deviceCode }

def listHistory (r : Repository) (tenant accountId : String) : List AgentKeyRecord :=
  (r.histories.get (agentKeyRegistryKey tenant accountId)).getD []

def getActive (r : Repository) (tenant accountId : String) : Option AgentKeyRecord :=
  (r.listHistory tenant accountId).find? (·.status = .active)

/-- The operation id names a second enrolment. -/
def opIdReused (r : Repository) (record : EnrollmentRecord) (opId : String) : Bool :=
  r.enrollments.values.any fun candidate => candidate.deviceCode ≠ record.deviceCode ∧
    (candidate.claimedBy opId ∨ candidate.committedBy = some opId)

/-- Take, or take over, the right to approve. -/
def grantClaim (r : Repository) (record : EnrollmentRecord) (now : Int) (opId : String)
    (leaseMs : Int) : ClaimApprovalOutcome × Repository :=
  let claimed := { record with
    status := EnrollmentStatus.approving, claim := some ⟨opId, now + leaseMs⟩ }
  (.claimed claimed, r.put claimed)

def claimApproval (r : Repository) (now : Int) (userCode opId : String) (leaseMs : Int) :
    Except Failure (ClaimApprovalOutcome × Repository) :=
  match r.byUserCode userCode with
  | none => .ok (.notFound, r)
  | some record =>
    if r.opIdReused record opId then .error .opIdReused
    else match record.status with
      | .approved => .ok (.alreadyApproved record, r)
      | .denied => .ok (.denied, r)
      | .expired => .ok (.expired, r)
      | .pending =>
        if record.expiresAt < now then .ok (.expired, r.put { record with status := .expired })
        else .ok (r.grantClaim record now opId leaseMs)
      | .approving =>
        match record.claim.filter (now ≤ ·.leaseUntil) with
        | some claim => .ok (.inProgress claim.leaseUntil, r)
        | none =>
          if record.expiresAt < now then
            .ok (.expired, r.put { record with status := .expired, claim := none })
          else .ok (r.grantClaim record now opId leaseMs)

/-- The record an activation leaves behind when a newer one takes its place. -/
def supersede (record : AgentKeyRecord) (now : Int) (activationId : String) : AgentKeyRecord :=
  { record with status := .superseded, endedAt := some now, supersededBy := some activationId }

def revoke (record : AgentKeyRecord) (now : Int) : AgentKeyRecord :=
  { record with status := .revoked, endedAt := some now }

/-- `history.map` with a change at the first active record. -/
def endActive (f : AgentKeyRecord → AgentKeyRecord) (history : List AgentKeyRecord) :
    List AgentKeyRecord :=
  match history.findIdx? (·.status = .active) with
  | some index => history.modify index f
  | none => history

def registerSync (hash : Hashing) (r : Repository) (now : Int) (activationId : String)
    (tenant accountId publicKey : String) (expect : Option String) :
    RegisterAgentKeyResult × Repository :=
  let history := r.listHistory tenant accountId
  let incoming := hash.keyId publicKey
  if history.any fun record => record.status = .revoked ∧ record.keyId = incoming then (.revoked, r)
  else
    let active := r.getActive tenant accountId
    match active.filter (·.publicKey = publicKey) with
    | some record => (.ok record true, r)
    | none =>
      if active.map (·.activationId) = expect then
        let record : AgentKeyRecord :=
          { tenant, accountId, publicKey, keyId := incoming, activationId, status := .active
            enrolledAt := now, endedAt := none, supersededBy := none }
        let next := record :: endActive (supersede · now activationId) history
        (.ok record false,
          { r with histories := r.histories.set (agentKeyRegistryKey tenant accountId) next })
      else (.conflict active, r)

/-- What a commit writes into its enrolment. -/
def approve (record : EnrollmentRecord) (now : Int) (opId commitDigest : String)
    (commit : CommitApprovalPayload) (registered : AgentKeyRecord) : EnrollmentRecord :=
  { record with
    status := .approved, natsCreds := some commit.creds, peerId := some commit.peerId
    approvedAt := some now, committedBy := some opId, commitDigest := some commitDigest
    committedRecord := some registered, claim := none }

/-- The enrolment a commit is about: the one it has claimed or has approved. -/
def byOperation (r : Repository) (opId : String) : Option EnrollmentRecord :=
  r.enrollments.values.find? fun record => record.claimedBy opId ∨
    (record.status = .approved ∧ record.committedBy = some opId)

/-- `later` is the second read of the clock, for the activation. -/
def commitApproval (hash : Hashing) (r : Repository) (now later : Int) (activationId : String)
    (opId : String) (commit : CommitApprovalPayload) :
    Except Failure (CommitApprovalOutcome × Repository) :=
  match r.byOperation opId with
  | none => .ok (.claimLost, r)
  | some record =>
    if record.status = .approved ∧ record.committedBy = some opId then
      match record.committedRecord with
      | some snapshot =>
        if record.commitDigest = some (hash.digest commit) then .ok (.committed snapshot true, r)
        else .error .commitPayloadMismatch
      | none => .error .commitPayloadMismatch
    else if record.status ≠ .approving ∨
        ¬ record.claim.any (fun claim => claim.opId = opId ∧ now ≤ claim.leaseUntil) then
      .ok (.claimLost, r)
    else if record.expiresAt < now then
      .ok (.expired, r.put { record with status := .expired, claim := none })
    else if commit.agentPublicKey ≠ record.agentPublicKey then .error .commitKeyMismatch
    else
      match r.registerSync hash later activationId record.tenant record.accountId
          commit.agentPublicKey commit.expect with
      | (.revoked, r) => .ok (.revoked, r.put { record with status := .pending, claim := none })
      | (.conflict current, r) =>
        .ok (.conflict current, r.put { record with status := .pending, claim := none })
      | (.ok registered _, r) =>
        .ok (.committed registered false,
          r.put (approve record now opId (hash.digest commit) commit registered))

def releaseClaim (r : Repository) (opId : String) : Bool × Repository :=
  match r.enrollments.values.find? fun record =>
      record.status = .approving ∧ record.claimedBy opId with
  | none => (false, r)
  | some record => (true, r.put { record with status := .pending, claim := none })

def tryDeny (r : Repository) (now : Int) (userCode : String) : Bool × Repository :=
  match r.byUserCode userCode with
  | none => (false, r)
  | some record =>
    if record.status ≠ .pending ∧ record.status ≠ .approving then (false, r)
    else if record.expiresAt < now then
      (false, r.put { record with status := .expired, claim := none })
    else (true, r.put { record with status := .denied, claim := none })

structure TryExpireOutcome where
  transitioned : Bool
  enrollment : Option EnrollmentRecord
  deriving DecidableEq, Repr

def tryExpire (r : Repository) (now : Int) (deviceCode : String) : TryExpireOutcome × Repository :=
  match r.enrollments.get deviceCode with
  | none => (⟨false, none⟩, r)
  | some record =>
    if record.status = .pending ∧ record.expiresAt < now then
      let expired := { record with status := .expired }
      (⟨true, some expired⟩, r.put expired)
    else if record.status = .approving ∧ record.claim.any (·.leaseUntil < now) ∧
        record.expiresAt < now then
      let expired := { record with status := .expired, claim := none }
      (⟨true, some expired⟩, r.put expired)
    else (⟨false, some record⟩, r)

def reconcileApprovedRegistration (hash : Hashing) (r : Repository) (now : Int)
    (activationId : String) (deviceCode : String) : Except Failure (ReconcileOutcome × Repository) :=
  match r.enrollments.get deviceCode with
  | none => .ok (.noop .notFound, r)
  | some enrollment =>
    let history := r.listHistory enrollment.tenant enrollment.accountId
    if enrollment.status ≠ .approved then .ok (.noop .notApproved, r)
    else if history.any (·.status = .active) then .ok (.noop .activePresent, r)
    else if history ≠ [] then .ok (.noop .historyPresent, r)
    else if enrollment.committedBy.any (· ≠ "") ∨ enrollment.committedRecord.isSome then
      .ok (.noop .commitSnapshotPresent, r)
    else
      match r.registerSync hash now activationId enrollment.tenant enrollment.accountId
          enrollment.agentPublicKey none with
      | (.ok record _, r) => .ok (.registered record, r)
      | _ => .error .impossibleReconciliation

/-- Retention of an approval starts when it was approved, of the rest at the deadline. -/
def swept (r : Repository) (now : Int) (record : EnrollmentRecord) : Bool :=
  let leased := record.status = .approving ∧ record.claim.any (now ≤ ·.leaseUntil)
  let base := if record.status = .approved then record.approvedAt.getD record.expiresAt
    else record.expiresAt
  ¬ leased ∧ base + r.retentionMs < now

def remove (r : Repository) (record : EnrollmentRecord) : Repository :=
  { r with
    enrollments := r.enrollments.delete record.deviceCode
    userCodes := r.userCodes.delete record.userCode }

def sweep (r : Repository) (now : Int) : Nat × Repository :=
  let old := r.enrollments.values.filter (r.swept now)
  (old.length, old.foldl remove r)

def revokeActive (r : Repository) (now : Int) (tenant accountId : String) : Bool × Repository :=
  if (r.getActive tenant accountId).isSome then
    let next := endActive (revoke · now) (r.listHistory tenant accountId)
    (true, { r with histories := r.histories.set (agentKeyRegistryKey tenant accountId) next })
  else (false, r)

end Repository

end Webchannel.Enrollment
