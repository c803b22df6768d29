import Webchannel.Enrollment.Registry

/-!
# The device flow

`DeviceFlowEnrollment` of `device-flow-enrollment.ts`: `enroll`, `poll`, `approve` and `deny`
over one repository. A call is the stage it waits in; one step of it is one repository
operation, with what follows up to the next one. Calls of any number of instances
interleave, each with the options of its instance. The queue of an instance over its own
approvals only forbids interleavings that two instances can have, so it is not part of the
state. What the outside learns is recorded as events.
-/

namespace Webchannel.Enrollment

open Webchannel.Runs

structure EnrollmentRequest where
  agentPublicKey : String
  accountId : String
  tenant : String
  deriving DecidableEq, Repr

structure EnrollmentResponse where
  deviceCode : String
  userCode : String
  verificationUri : String
  verificationUriComplete : String
  expiresIn : Int
  interval : Int
  deriving DecidableEq, Repr

structure DeviceFlowOptions where
  expirationSeconds : Int := 600
  pollIntervalSeconds : Int := 5
  approvalLeaseMs : Int := 30000
  saasBaseUrl : String
  jwksUrl : String
  bootstrapUrl : String
  natsUrl : String
  issuer : String
  deriving DecidableEq, Repr

structure EnrollmentResult where
  creds : NatsUserCredentials
  peerId : String
  jwksUrl : String
  bootstrapUrl : String
  natsUrl : String
  issuer : String
  deriving DecidableEq, Repr

structure ExistingActivation where
  activationId : String
  keyIdFingerprint : String
  enrolledAt : Int
  deriving DecidableEq, Repr

inductive ApproveOutcome where
  | approved (result : EnrollmentResult)
  | inProgress
  | conflict (existing : Option ExistingActivation) (incoming : String)
  | revokedKey
  | rejected
  /-- The call rejects its promise. -/
  | threw
  deriving DecidableEq, Repr

/-- How `approve` ends after it has given its claim back. -/
inductive Refusal where
  | conflict (existing : Option ExistingActivation) (incoming : String)
  | revokedKey
  | threw
  deriving DecidableEq, Repr

def Refusal.outcome : Refusal → ApproveOutcome
  | .conflict existing incoming => .conflict existing incoming
  | .revokedKey => .revokedKey
  | .threw => .threw

structure DeviceFlowError where
  error : String
  description : String
  deriving DecidableEq, Repr

def maxEnrollAttempts : Nat := 5

def isSafeTokenChar (c : Char) : Bool := c.isAlphanum || c = '_' || c = '-'

/-- `assertValidSubjectToken`, with the message of the error it throws. -/
def subjectTokenError (token label : String) : Option String :=
  if token = "" then some ("webchannel: " ++ label ++ " must be a non-empty string")
  else if token.toList.length ≤ 128 ∧ token.toList.all isSafeTokenChar then none
  else some ("webchannel: " ++ label ++
    " contains characters not allowed in a NATS subject token " ++
    "(allowed: A-Za-z0-9_-; rejected \".\", \"*\", \">\", whitespace, control chars)")

def agentPublicKeyError (key : String) : Option String :=
  if key.toList.length = 43 ∧ key.toList.all isSafeTokenChar then none
  else some "webchannel: agentPublicKey must be base64url of a 32-byte X25519 public key"

/-- The first validation error of a request. -/
def EnrollmentRequest.invalid (request : EnrollmentRequest) : Option String :=
  subjectTokenError request.tenant "tenant" <|> subjectTokenError request.accountId "accountId" <|>
    agentPublicKeyError request.agentPublicKey

/-- The record `enroll` persists. -/
def EnrollmentRequest.pending (request : EnrollmentRequest) (options : DeviceFlowOptions) (now : Int)
    (deviceCode userCode : String) : EnrollmentRecord where
  deviceCode := deviceCode
  userCode := userCode
  agentPublicKey := request.agentPublicKey
  accountId := request.accountId
  tenant := request.tenant
  createdAt := now
  expiresAt := now + options.expirationSeconds * 1000
  status := .pending
  claim := none
  approvedAt := none
  committedBy := none
  commitDigest := none
  committedRecord := none
  natsCreds := none
  peerId := none

def DeviceFlowOptions.response (options : DeviceFlowOptions) (deviceCode userCode : String) :
    EnrollmentResponse where
  deviceCode := deviceCode
  userCode := userCode
  verificationUri := options.saasBaseUrl ++ "/enroll"
  verificationUriComplete := options.saasBaseUrl ++ "/enroll?user_code=" ++ userCode
  expiresIn := options.expirationSeconds
  interval := options.pollIntervalSeconds

def DeviceFlowOptions.result (options : DeviceFlowOptions) (creds : NatsUserCredentials)
    (peerId : String) : EnrollmentResult where
  creds := creds
  peerId := peerId
  jwksUrl := options.jwksUrl
  bootstrapUrl := options.bootstrapUrl
  natsUrl := options.natsUrl
  issuer := options.issuer

/-- What an approved record has to hand out; an empty peer id counts as none. -/
def EnrollmentRecord.credentials (e : EnrollmentRecord) : Option (NatsUserCredentials × String) :=
  match e.natsCreds, e.peerId with
  | some creds, some peerId => if peerId = "" then none else some (creds, peerId)
  | _, _ => none

def fingerprint (keyId : String) : String := String.ofList (keyId.toList.take 12)

def conflict (active : Option AgentKeyRecord) (incomingKeyId : String) : Refusal :=
  .conflict (active.map fun record =>
    ⟨record.activationId, fingerprint record.keyId, record.enrolledAt⟩) (fingerprint incomingKeyId)

def poll (options : DeviceFlowOptions) (r : Repository) (now : Int) (deviceCode : String) :
    (EnrollmentResult ⊕ DeviceFlowError) × Repository :=
  let (outcome, r) := r.tryExpire now deviceCode
  let answer := match outcome.enrollment with
    | none => .inr ⟨"invalid_device_code", "Device code not found"⟩
    | some enrollment =>
      match enrollment.status with
      | .denied => .inr ⟨"access_denied", "Enrollment was denied by operator"⟩
      | .expired => .inr ⟨"expired_token", "Device code has expired"⟩
      | .pending | .approving =>
        .inr ⟨"authorization_pending", "Enrollment is pending operator approval"⟩
      | .approved =>
        match enrollment.credentials with
        | some (creds, peerId) => .inl (options.result creds peerId)
        | none => .inr ⟨"invalid_device_code", "Invalid enrollment state"⟩
  (answer, r)

/-- Where a call waits. -/
inductive Stage where
  | persisting (options : DeviceFlowOptions) (request : EnrollmentRequest) (now : Int) (attempt : Nat)
  | claiming (options : DeviceFlowOptions) (userCode : String) (replaceActivationId : Option String)
  | reconciling (options : DeviceFlowOptions) (enrollment : EnrollmentRecord)
  /-- `getActive` after a reconciliation, for the warnings only. -/
  | comparing (options : DeviceFlowOptions) (enrollment : EnrollmentRecord)
  | checking (options : DeviceFlowOptions) (replaceActivationId : Option String) (opId : String)
      (enrollment : EnrollmentRecord)
  | choosing (options : DeviceFlowOptions) (replaceActivationId : Option String) (opId : String)
      (enrollment : EnrollmentRecord)
  | releasing (opId : String) (refusal : Refusal)
  | minting (options : DeviceFlowOptions) (opId : String) (enrollment : EnrollmentRecord)
      (expect : Option String)
  | committing (options : DeviceFlowOptions) (opId : String) (enrollment : EnrollmentRecord)
      (payload : CommitApprovalPayload) (retry : Bool)
  | returned
  deriving DecidableEq, Repr

/-- What becomes of a commit besides its own outcome: it answers, it takes effect and the
answer is lost, or it is lost itself. -/
inductive Delivery where
  | answered | lost | unreached
  deriving DecidableEq, Repr

/-- What a step meets: random values, the second read of the clock, the minted credentials
(`none` when minting throws) and the fate of a commit. -/
structure Draw where
  deviceCode : String
  userCode : String
  opId : String
  activationId : String
  peerId : String
  later : Int
  minted : Option NatsUserCredentials
  delivery : Delivery
  deriving DecidableEq, Repr

/-- What happened, by device code. `credentials` is an answer of `approve` or `poll`. -/
inductive Event where
  | approved (deviceCode : String) (creds : NatsUserCredentials) (peerId : String)
  | denied (deviceCode : String)
  | credentials (deviceCode : String) (creds : NatsUserCredentials) (peerId : String)
  | enrolled (response : EnrollmentResponse)
  | enrollInvalid (message : String)
  | enrollFailed (lastCollision : Failure)
  | outcome (outcome : ApproveOutcome)
  deriving DecidableEq, Repr

/-- An outcome of `approve`, with the credentials it hands out for a device code. -/
def outcomeEvents (deviceCode : String) (outcome : ApproveOutcome) : List Event :=
  match outcome with
  | .approved result => [.credentials deviceCode result.creds result.peerId, .outcome outcome]
  | _ => [.outcome outcome]

structure Progress where
  stage : Stage
  repository : Repository
  events : List Event

def Progress.return (deviceCode : String) (outcome : ApproveOutcome) (r : Repository) : Progress :=
  ⟨.returned, r, outcomeEvents deviceCode outcome⟩

/-- What `approve` makes of the outcome of its commit. -/
def commitOutcome (options : DeviceFlowOptions) (payload : CommitApprovalPayload)
    (incomingKeyId : String) : CommitApprovalOutcome → ApproveOutcome
  | .committed _ _ => .approved (options.result payload.creds payload.peerId)
  | .revoked => .revokedKey
  | .conflict current => (conflict current incomingKeyId).outcome
  | .claimLost | .expired => .rejected

/-- The commit that takes effect approves its enrolment. -/
def approvedEvents (r : Repository) (opId : String) (payload : CommitApprovalPayload) :
    CommitApprovalOutcome → List Event
  | .committed _ false => match r.byOperation opId with
    | some enrollment => [.approved enrollment.deviceCode payload.creds payload.peerId]
    | none => []
  | _ => []

/-- One step of a call. -/
def Stage.next (hash : Hashing) (r : Repository) (now : Int) (draw : Draw) :
    Stage → Option Progress
  | .returned => none
  | .persisting options request createdAt attempt =>
    match r.createEnrollment
        (request.pending options createdAt draw.deviceCode draw.userCode) with
    | .ok r => some ⟨.returned, r, [.enrolled (options.response draw.deviceCode draw.userCode)]⟩
    | .error collision =>
      if attempt + 1 < maxEnrollAttempts then
        some ⟨.persisting options request createdAt (attempt + 1), r, []⟩
      else some ⟨.returned, r, [.enrollFailed collision]⟩
  | .claiming options userCode replaceActivationId =>
    match r.claimApproval now userCode draw.opId options.approvalLeaseMs with
    | .error _ => some (.return "" .threw r)
    | .ok (.inProgress _, r) => some (.return "" .inProgress r)
    | .ok (.alreadyApproved enrollment, r) => some ⟨.reconciling options enrollment, r, []⟩
    | .ok (.claimed enrollment, r) =>
      some ⟨.checking options replaceActivationId draw.opId enrollment, r, []⟩
    | .ok (_, r) => some (.return "" .rejected r)
  | .reconciling options enrollment =>
    match r.reconcileApprovedRegistration hash now draw.activationId enrollment.deviceCode with
    | .error _ => some (.return enrollment.deviceCode .threw r)
    | .ok (_, r) => some ⟨.comparing options enrollment, r, []⟩
  | .comparing options enrollment =>
    match enrollment.credentials with
    | none => some (.return enrollment.deviceCode .rejected r)
    | some (creds, peerId) =>
      some (.return enrollment.deviceCode (.approved (options.result creds peerId)) r)
  | .checking options replaceActivationId opId enrollment =>
    if (r.listHistory enrollment.tenant enrollment.accountId).any fun record =>
        record.status = .revoked ∧ record.keyId = hash.keyId enrollment.agentPublicKey then
      some ⟨.releasing opId .revokedKey, r, []⟩
    else some ⟨.choosing options replaceActivationId opId enrollment, r, []⟩
  | .choosing options replaceActivationId opId enrollment =>
    let active := r.getActive enrollment.tenant enrollment.accountId
    match active with
    | none =>
      if replaceActivationId = none then some ⟨.minting options opId enrollment none, r, []⟩
      else some ⟨.releasing opId (conflict active (hash.keyId enrollment.agentPublicKey)), r, []⟩
    | some record =>
      if record.publicKey = enrollment.agentPublicKey ∨
          replaceActivationId = some record.activationId then
        some ⟨.minting options opId enrollment (some record.activationId), r, []⟩
      else some ⟨.releasing opId (conflict active (hash.keyId enrollment.agentPublicKey)), r, []⟩
  | .releasing opId refusal => some (.return "" refusal.outcome (r.releaseClaim opId).2)
  | .minting options opId enrollment expect =>
    match draw.minted with
    | none => some ⟨.releasing opId .threw, r, []⟩
    | some creds =>
      some ⟨.committing options opId enrollment
        ⟨creds, draw.peerId, enrollment.agentPublicKey, expect⟩ false, r, []⟩
  | .committing options opId enrollment payload retry =>
    if draw.delivery = .unreached then
      if retry then some (.return enrollment.deviceCode .threw r)
      else some ⟨.committing options opId enrollment payload true, r, []⟩
    else match r.commitApproval hash now draw.later draw.activationId opId payload with
      -- A mismatch is rethrown at once; it is the only error of the repository itself.
      | .error _ => some (.return enrollment.deviceCode .threw r)
      | .ok (outcome, r') =>
        let approved := approvedEvents r opId payload outcome
        match draw.delivery, retry with
        | .lost, false => some ⟨.committing options opId enrollment payload true, r', approved⟩
        | .lost, true => some ⟨.returned, r', approved ++ [.outcome .threw]⟩
        | _, _ => some ⟨.returned, r', approved ++ outcomeEvents enrollment.deviceCode
            (commitOutcome options payload (hash.keyId enrollment.agentPublicKey) outcome)⟩

/-- The repository, its clock, the calls in the order in which they were made, and what has
happened. `opIds` and `deviceCodes` are the random values met so far. -/
structure System where
  repository : Repository
  clock : Int
  calls : List Stage
  events : List Event
  opIds : List String
  deviceCodes : List String

def System.init (retentionMs clock : Int) : System :=
  ⟨.create retentionMs, clock, [], [], [], []⟩

inductive Action where
  | tick (now : Int)
  | enroll (options : DeviceFlowOptions) (request : EnrollmentRequest)
  | approve (options : DeviceFlowOptions) (userCode : String) (replaceActivationId : Option String)
  | proceed (call : Nat) (draw : Draw)
  | deny (userCode : String)
  | poll (options : DeviceFlowOptions) (deviceCode : String)
  | releaseClaim (opId : String)
  | sweep
  | register (activationId tenant accountId publicKey : String) (expect : Option String)
  | revokeActive (tenant accountId : String)
  deriving DecidableEq, Repr

def System.step (hash : Hashing) (s : System) : Action → Option System
  | .tick now => if s.clock ≤ now then some { s with clock := now } else none
  | .enroll options request =>
    match request.invalid with
    | some message => some { s with events := s.events ++ [.enrollInvalid message] }
    | none => some { s with calls := s.calls ++ [.persisting options request s.clock 0] }
  | .approve options userCode replaceActivationId =>
    some { s with calls := s.calls ++ [.claiming options userCode replaceActivationId] }
  | .proceed call draw => do
    let stage ← s.calls[call]?
    let progress ← stage.next hash s.repository s.clock draw
    if s.clock ≤ draw.later then
      some
        { repository := progress.repository, clock := draw.later
          calls := s.calls.set call progress.stage, events := s.events ++ progress.events
          opIds := draw.opId :: s.opIds, deviceCodes := draw.deviceCode :: s.deviceCodes }
    else none
  | .deny userCode =>
    let (denied, repository) := s.repository.tryDeny s.clock userCode
    let events := match denied, s.repository.byUserCode userCode with
      | true, some enrollment => [Event.denied enrollment.deviceCode]
      | _, _ => []
    some { s with repository, events := s.events ++ events }
  | .poll options deviceCode =>
    let (answer, repository) := Enrollment.poll options s.repository s.clock deviceCode
    let events := match answer with
      | .inl result => [Event.credentials deviceCode result.creds result.peerId]
      | .inr _ => []
    some { s with repository, events := s.events ++ events }
  | .releaseClaim opId => some { s with repository := (s.repository.releaseClaim opId).2 }
  | .sweep => some { s with repository := (s.repository.sweep s.clock).2 }
  | .register activationId tenant accountId publicKey expect =>
    some { s with repository :=
      (s.repository.registerSync hash s.clock activationId tenant accountId publicKey expect).2 }
  | .revokeActive tenant accountId =>
    some { s with repository := (s.repository.revokeActive s.clock tenant accountId).2 }

def Action.draw : Action → Option Draw
  | .proceed _ draw => some draw
  | _ => none

/-- Operation ids and device codes are random: none is drawn twice. -/
def Fresh (s : System) (action : Action) : Prop :=
  ∀ draw ∈ action.draw, draw.opId ∉ s.opIds ∧ draw.deviceCode ∉ s.deviceCodes

instance (s : System) (action : Action) : Decidable (Fresh s action) :=
  inferInstanceAs (Decidable (∀ draw ∈ action.draw, draw.opId ∉ s.opIds ∧ draw.deviceCode ∉ s.deviceCodes))

end Webchannel.Enrollment
