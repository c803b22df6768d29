import Webchannel.Storage.Identity

/-!
# Credential documents

`credential-document.ts`: the payload checks, the binding gate and the upgrade of a legacy document.
-/

namespace Webchannel.Storage

variable {ν : Type}

structure BindingExpectation where
  tenant : JsString
  accountId : JsString
  saasBaseUrl : JsString
  deriving DecidableEq

inductive PayloadField where
  | document
  | tenant
  | accountId
  | saasEnrollUrl
  | saasPollUrl
  | identityKeyPublicKey
  | identityKeyPrivateKey
  | enrollment
  | enrollmentPeerId
  | enrollmentJwksUrl
  | enrollmentBootstrapUrl
  | enrollmentCredsUserJwt
  | enrollmentCredsUserSeed
  | enrollmentCredsPermissions
  | enrollmentCredsPermissionsPub
  | enrollmentCredsPermissionsSub
  | enrollmentIssuer
  | enrollmentNatsUrl
  deriving DecidableEq, Repr

inductive DocumentField where
  | binding (field : BindingField)
  | payload (field : PayloadField)
  deriving DecidableEq

inductive InvalidCode where
  | identity (code : IdentityCode)
  | invalidDocument
  deriving DecidableEq

/-- `CredentialDocumentInspection` of a document that is there. -/
inductive DocumentInspection where
  | match
  | mismatch (fields : List DocumentField)
  | unbound
  | incomplete (fields : List DocumentField)
  | invalid (code : InvalidCode) (fields : List DocumentField)
  deriving DecidableEq

/-- `PersistedEnrolledCreds`: the secrets. -/
structure EnrolledCreds where
  userJwt : JsString
  userSeed : JsString
  natsUrl : JsString
  issuer : Option JsString
  publicKey : Bytes
  privateKey : Bytes
  deriving DecidableEq

structure ParsedPayload (ν : Type) where
  document : Json ν
  deliveredIssuer : Option JsString
  relayUrl : JsString
  agentPublicKey : JsString
  credentials : EnrolledCreds

inductive Evaluation (ν : Type) where
  | matched (payload : ParsedPayload ν) (identity : BindingIdentity)
  | refused (inspection : DocumentInspection)

inductive LoadResult (ν : Type) where
  | matched (document : Json ν) (credentials : EnrolledCreds)
  | refused (inspection : DocumentInspection)

/-- `EXPECTATION_VALIDATION_PUBLIC_KEY` -/
def expectationValidationPublicKey : JsString := List.replicate 43 65

def assertValidCredentialBindingExpectation (runtime : Runtime) (expected : BindingExpectation) :
    Except ContractError BindingIdentity :=
  createCredentialBindingIdentityV2 runtime ⟨expected.tenant, expected.accountId⟩
    { saasBaseUrl := expected.saasBaseUrl, deliveredIssuer := none, relayUrl := none,
      agentPublicKey := expectationValidationPublicKey }

/-! ## The payload -/

/-- `isRecord(value) ? value : undefined` -/
def asRecord (value : Option (Json ν)) : Option (Json ν) := value.filter isRecord

/-- `value?.name` -/
def memberOf (value : Option (Json ν)) (name : String) : Option (Json ν) := value.bind (·.member name)

def stringOf : Option (Json ν) → Option JsString
  | some (.str s) => some s
  | _ => none

def isNonEmptyString (value : Option (Json ν)) : Bool := (stringOf value).any (· ≠ [])

def isKeyString (value : Option (Json ν)) : Bool := (stringOf value).any isBase64Url32

def isStringArray : Json ν → Bool
  | .arr l => l.all fun item => (stringOf (some item)).isSome
  | _ => false

/-- The fields that `parsePayload` refuses. -/
def payloadFields (candidate : Json ν) : List PayloadField :=
  let identityKey := asRecord (candidate.member "identityKey")
  let enrollment := asRecord (candidate.member "enrollment")
  let creds := asRecord (memberOf enrollment "creds")
  let permissions := asRecord (memberOf creds "permissions")
  fieldUnless (isNonEmptyString (candidate.member "tenant")) .tenant ++
    fieldUnless (isNonEmptyString (candidate.member "accountId")) .accountId ++
    fieldUnless (isNonEmptyString (candidate.member "saasEnrollUrl")) .saasEnrollUrl ++
    fieldUnless (isNonEmptyString (candidate.member "saasPollUrl")) .saasPollUrl ++
    fieldUnless (isKeyString (memberOf identityKey "publicKey")) .identityKeyPublicKey ++
    fieldUnless (isKeyString (memberOf identityKey "privateKey")) .identityKeyPrivateKey ++
    fieldUnless enrollment.isSome .enrollment ++
    fieldUnless (isNonEmptyString (memberOf enrollment "peerId")) .enrollmentPeerId ++
    fieldUnless (isNonEmptyString (memberOf enrollment "jwksUrl")) .enrollmentJwksUrl ++
    fieldUnless (isNonEmptyString (memberOf enrollment "bootstrapUrl")) .enrollmentBootstrapUrl ++
    fieldUnless (isNonEmptyString (memberOf creds "userJwt")) .enrollmentCredsUserJwt ++
    fieldUnless (isNonEmptyString (memberOf creds "userSeed")) .enrollmentCredsUserSeed ++
    fieldUnless ((memberOf creds "permissions").isNone || permissions.isSome) .enrollmentCredsPermissions ++
    fieldUnless ((memberOf permissions "pub").all isStringArray) .enrollmentCredsPermissionsPub ++
    fieldUnless ((memberOf permissions "sub").all isStringArray) .enrollmentCredsPermissionsSub ++
    fieldUnless ((memberOf enrollment "issuer").isNone || isNonEmptyString (memberOf enrollment "issuer")) .enrollmentIssuer ++
    fieldUnless (isNonEmptyString (memberOf enrollment "natsUrl")) .enrollmentNatsUrl

def publicKeyOf (candidate : Json ν) : JsString :=
  (stringOf (memberOf (asRecord (candidate.member "identityKey")) "publicKey")).getD []

def privateKeyOf (candidate : Json ν) : JsString :=
  (stringOf (memberOf (asRecord (candidate.member "identityKey")) "privateKey")).getD []

def enrollmentOf (candidate : Json ν) : Option (Json ν) := asRecord (candidate.member "enrollment")

def issuerOf (candidate : Json ν) : Option JsString := stringOf (memberOf (enrollmentOf candidate) "issuer")

def natsUrlOf (candidate : Json ν) : JsString := (stringOf (memberOf (enrollmentOf candidate) "natsUrl")).getD []

/-- `parsePayload`; an error carries the fields of `InvalidCredentialPayload`. -/
def parsePayload (runtime : Runtime) (candidate : Json ν) : Except (List PayloadField) (ParsedPayload ν) :=
  if isRecord candidate = false then .error [.document]
  else if payloadFields candidate ≠ [] then .error (payloadFields candidate)
  else
    let decodedPublicKey := Base64.bufferFrom (publicKeyOf candidate)
    let decodedPrivateKey := Base64.bufferFrom (privateKeyOf candidate)
    match runtime.derivePublicKey decodedPrivateKey with
    | none => .error [.identityKeyPrivateKey]
    | some derivedPublicKey =>
      if derivedPublicKey ≠ decodedPublicKey then .error [.identityKeyPublicKey, .identityKeyPrivateKey]
      else
        let creds := memberOf (enrollmentOf candidate) "creds"
        .ok
          { document := candidate
            deliveredIssuer := issuerOf candidate
            relayUrl := natsUrlOf candidate
            agentPublicKey := publicKeyOf candidate
            credentials :=
              { userJwt := (stringOf (memberOf creds "userJwt")).getD []
                userSeed := (stringOf (memberOf creds "userSeed")).getD []
                natsUrl := natsUrlOf candidate
                issuer := issuerOf candidate
                publicKey := decodedPublicKey
                privateKey := decodedPrivateKey } }

/-! ## The gate -/

def fromIdentityInspection : IdentityInspection → DocumentInspection
  | .match => .match
  | .unbound => .unbound
  | .incomplete fields => .incomplete (fields.map .binding)
  | .mismatch fields => .mismatch (fields.map .binding)
  | .invalid code fields => .invalid (.identity code) (fields.map .binding)

/-- What the payload itself says against the expectation. -/
def payloadMismatches (expected : BindingExpectation) (endpoints : EnrollmentEndpoints) (document : Json ν) :
    List DocumentField :=
  fieldUnless (stringOf (document.member "tenant") = some expected.tenant) (.payload .tenant) ++
    fieldUnless (stringOf (document.member "accountId") = some expected.accountId) (.payload .accountId) ++
    fieldUnless (stringOf (document.member "saasEnrollUrl") = some endpoints.saasEnrollUrl) (.payload .saasEnrollUrl) ++
    fieldUnless (stringOf (document.member "saasPollUrl") = some endpoints.saasPollUrl) (.payload .saasPollUrl)

/-- The facts that the payload and the expectation bind. -/
def expectedFacts (expected : BindingExpectation) (payload : ParsedPayload ν) : BindingFacts :=
  { saasBaseUrl := expected.saasBaseUrl, deliveredIssuer := payload.deliveredIssuer, relayUrl := some payload.relayUrl,
    agentPublicKey := payload.agentPublicKey }

def BindingExpectation.scope (expected : BindingExpectation) : StorageScope := ⟨expected.tenant, expected.accountId⟩

section gate

variable [JsonIntegers ν]

def hasFutureCredentialIdentityVersion (candidate : Json ν) : Bool :=
  isFutureVersion storageIdentityVersion (memberOf (asRecord (candidate.member "credentialIdentity")) "identityVersion")

/-- The error of an identity that cannot be created is not caught. -/
def uncaught {α : Type} : Except ContractError α → Except Thrown α
  | .error error => .error (.contract error)
  | .ok value => .ok value

def evaluateCredentialDocument (runtime : Runtime) (expected : BindingExpectation) (candidate : Json ν) :
    Except Thrown (Evaluation ν) :=
  if hasFutureCredentialIdentityVersion candidate then
    .ok (.refused (.invalid (.identity .versionTooNew) [.binding .identityVersion]))
  else
    match parsePayload runtime candidate with
    | .error fields => .ok (.refused (.invalid .invalidDocument (fields.map .payload)))
    | .ok payload => do
      let expectedIdentity ← uncaught (createCredentialBindingIdentityV2 runtime expected.scope (expectedFacts expected payload))
      let rawIdentity := (candidate.member "credentialIdentity").getD (.obj [])
      match ← uncaught (inspectCredentialBindingIdentityV2 runtime expectedIdentity rawIdentity) with
      | .match =>
        let endpoints ← deriveEnrollmentEndpoints runtime expected.saasBaseUrl
        match payloadMismatches expected endpoints payload.document with
        | [] => return .matched payload expectedIdentity
        | fields => return .refused (.mismatch fields)
      | inspection => return .refused (fromIdentityInspection inspection)

def Evaluation.inspection : Evaluation ν → DocumentInspection
  | .matched _ _ => .match
  | .refused inspection => inspection

def inspectCredentialDocument (runtime : Runtime) (expected : BindingExpectation) (candidate : Json ν) :
    Except Thrown DocumentInspection :=
  (evaluateCredentialDocument runtime expected candidate).map Evaluation.inspection

def textMember (name : String) (s : JsString) : JsString × Json ν := (js name, .str s)

/-- The value that is persisted for an identity. -/
def identityValue (identity : BindingIdentity) : Json ν :=
  .obj
    [(js "identityVersion", .num (JsonIntegers.ofNat storageIdentityVersion)),
      (js "storage", .obj [textMember "tenant" identity.storage.tenant, textMember "accountId" identity.storage.accountId]),
      (js "binding", .obj
        [textMember "saasBaseUrl" identity.binding.saasBaseUrl,
          (js "deliveredIssuer", nullable identity.binding.deliveredIssuer),
          (js "relayUrl", nullable identity.binding.relayUrl),
          textMember "agentPublicKey" identity.binding.agentPublicKey])]

def loadBoundCredentialDocument (runtime : Runtime) (expected : BindingExpectation) (candidate : Json ν) :
    Except Thrown (LoadResult ν) := do
  match ← evaluateCredentialDocument runtime expected candidate with
  | .refused (.invalid (.identity .versionTooNew) _) => .error (.document .versionTooNew [])
  | .refused inspection => return .refused inspection
  | .matched payload identity =>
    let enrollment := (payload.document.member "enrollment").getD .null
    let document := (payload.document.setMember "enrollment" enrollment).setMember "credentialIdentity" (identityValue identity)
    return .matched document payload.credentials

/-! ## Legacy documents -/

def assertCredentialDocumentStorage (scope : StorageScope) (candidate : Json ν) : Except Thrown Unit :=
  if isRecord candidate = false then .error (.document .invalidDocument [])
  else if hasFutureCredentialIdentityVersion candidate then .error (.document .versionTooNew [])
  else assertDocumentStorageIdentity scope (candidate.member "credentialIdentity")

def legacyCredentialProvesScope (scope : StorageScope) (candidate : Json ν) : Bool :=
  isRecord candidate ∧ stringOf (candidate.member "tenant") = some scope.tenant ∧
    stringOf (candidate.member "accountId") = some scope.accountId

def enrollmentBaseUrl (saasEnrollUrl : JsString) : JsString :=
  let withoutTrailing := stripTrailingSlashes saasEnrollUrl
  if (js "/api/enroll").isSuffixOf withoutTrailing then
    withoutTrailing.take (withoutTrailing.length - (js "/api/enroll").length)
  else withoutTrailing

/-- What the upgrade expects of a document with that enrol URL. -/
def upgradeExpectation (scope : StorageScope) (saasEnrollUrl : JsString) : BindingExpectation :=
  { tenant := scope.tenant, accountId := scope.accountId, saasBaseUrl := enrollmentBaseUrl saasEnrollUrl }

/-- The document that the upgrade loads: an explicit identity stays, a missing one is created. -/
def upgradeCandidate (runtime : Runtime) (scope : StorageScope) (saasEnrollUrl : JsString) (candidate : Json ν) :
    Except Thrown (Json ν) :=
  match candidate.member "credentialIdentity" with
  | some _ => do
    assertCredentialDocumentStorage scope candidate
    return candidate
  | none =>
    match stringOf (memberOf (asRecord (candidate.member "identityKey")) "publicKey"),
      stringOf (memberOf (enrollmentOf candidate) "natsUrl") with
    | some publicKey, some natsUrl => do
      let identity ← uncaught (createCredentialBindingIdentityV2 runtime scope
        { saasBaseUrl := enrollmentBaseUrl saasEnrollUrl, deliveredIssuer := issuerOf candidate, relayUrl := some natsUrl,
          agentPublicKey := publicKey })
      return candidate.setMember "credentialIdentity" (identityValue identity)
    | _, _ => .error (.document .invalidDocument [])

def upgradeLegacyCredentialDocument (runtime : Runtime) (scope : StorageScope) (candidate : Json ν) :
    Except Thrown (Json ν) :=
  if isRecord candidate = false then .error (.document .invalidDocument [])
  else if hasFutureCredentialIdentityVersion candidate then .error (.document .versionTooNew [])
  else if legacyCredentialProvesScope scope candidate = false then
    .error (.document .identityMismatch [.storageTenant, .storageAccountId])
  else
    match (stringOf (candidate.member "saasEnrollUrl")).filter (· ≠ []) with
    | none => .error (.document .invalidDocument [])
    | some saasEnrollUrl => do
      let document ← upgradeCandidate runtime scope saasEnrollUrl candidate
      match ← loadBoundCredentialDocument runtime (upgradeExpectation scope saasEnrollUrl) document with
      | .matched loaded _ => return if (candidate.member "credentialIdentity").isSome then document else loaded
      | .refused _ => .error (.document .invalidDocument [])

end gate

end Webchannel.Storage
