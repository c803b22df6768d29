import Mathlib.Data.List.DropRight
import Webchannel.Lib.Base64
import Webchannel.Register.Handler

/-!
# Storage identity

The identity that a secret-bearing document carries (`storage-identity.ts`), with the checks of
`account-id.ts` and `saas-authority.ts` and the document errors of `storage-document.ts`. The URL parser of
the platform is a parameter.
-/

namespace Webchannel.Storage

open Register (isTokenUnit isValidSubjectToken)

/-- Numbers of which some are safe integers. -/
class JsonIntegers (ν : Type) where
  safeInteger : ν → Option Int
  ofNat : Nat → ν
  safeInteger_ofNat : ∀ n, n ≤ 2 ^ 53 - 1 → safeInteger (ofNat n) = some (n : Int)

instance : JsonIntegers JsonNumber where
  safeInteger
    | .finite q => if (JsonNumber.finite q).isSafeInteger then some q.num else none
    | .infinite _ => none
  ofNat n := .finite n
  safeInteger_ofNat n hn := by
    have hsafe : (JsonNumber.finite (n : Rat)).isSafeInteger = true := by
      unfold JsonNumber.isSafeInteger
      exact decide_eq_true ⟨Rat.den_natCast n, by rw [Rat.num_natCast]; exact hn⟩
    exact (if_pos hsafe).trans (congrArg some (Rat.num_natCast n))

variable {ν : Type}

/-! ## Untyped values -/

def isRecord : Json ν → Bool
  | .obj _ => true
  | _ => false

/-- `value as string` -/
def asString : Json ν → JsString
  | .str s => s
  | _ => []

/-- `value as string | null` -/
def asNullableString : Json ν → Option JsString
  | .str s => some s
  | _ => none

def nullable : Option JsString → Json ν
  | some s => .str s
  | none => .null

/-! ## Checks -/

def stripTrailingSlashes (s : JsString) : JsString := s.rdropWhile (· = 47)

def nonEmptyAfterTrailingSlash (s : JsString) : Bool := s ≠ [] ∧ stripTrailingSlashes s ≠ []

def nullableTrailingSlashEqual (left right : Option JsString) : Bool :=
  left.map stripTrailingSlashes = right.map stripTrailingSlashes

def toLowerCase (s : JsString) : JsString := s.map fun u => if 65 ≤ u ∧ u ≤ 90 then u + 32 else u

def blockedAccountIds : List JsString := [js "__proto__", js "prototype", js "constructor"]

def isValidAccountId (id : JsString) : Bool :=
  (id.all isTokenUnit ∧ 1 ≤ id.length ∧ id.length ≤ 64) ∧ toLowerCase id ∉ blockedAccountIds

def isBase64Url32 (s : JsString) : Bool :=
  (s.all isTokenUnit ∧ s.length = 43) ∧
    (Base64.bufferFrom s).length = 32 ∧ Base64.base64url (Base64.bufferFrom s) = s

/-- What `new URL` parses to, where it does not throw. -/
structure Url where
  protocol : JsString
  hostname : JsString
  username : JsString
  password : JsString
  search : JsString
  hash : JsString

/-- What the code takes from the platform. -/
structure Runtime where
  parseUrl : JsString → Option Url
  /-- `derivePublicKey`; `none` where it throws -/
  derivePublicKey : Bytes → Option Bytes

/-- The units that `trim` removes. -/
def isTrimmed (u : UInt16) : Bool :=
  (9 ≤ u ∧ u ≤ 13) ∨ u = 32 ∨ u = 160 ∨ u = 0x1680 ∨ (0x2000 ≤ u ∧ u ≤ 0x200A) ∨ u = 0x2028 ∨ u = 0x2029 ∨ u = 0x202F ∨
    u = 0x205F ∨ u = 0x3000 ∨ u = 0xFEFF

def trim (s : JsString) : JsString := (s.dropWhile isTrimmed).rdropWhile isTrimmed

def isAbsoluteHttpUrl (runtime : Runtime) (value : JsString) : Bool :=
  value = trim value ∧
    ((js "http://").isPrefixOf (toLowerCase value) ∨ (js "https://").isPrefixOf (toLowerCase value)) ∧
    (runtime.parseUrl value).any fun parsed =>
      (parsed.protocol = js "http:" ∨ parsed.protocol = js "https:") ∧ parsed.hostname ≠ [] ∧ parsed.username = [] ∧
        parsed.password = [] ∧ parsed.search = [] ∧ parsed.hash = []

structure EnrollmentEndpoints where
  saasEnrollUrl : JsString
  saasPollUrl : JsString

/-! ## Errors -/

inductive BindingField where
  | identityVersion
  | storageTenant
  | storageAccountId
  | saasBaseUrl
  | deliveredIssuer
  | relayUrl
  | agentPublicKey
  deriving DecidableEq, Repr

inductive IdentityCode where
  | invalidShape
  | versionTooNew
  | unsupportedVersion
  | invalidField
  | unbound
  | incomplete
  deriving DecidableEq, Repr

/-- `StorageIdentityContractError` -/
structure ContractError where
  code : IdentityCode
  fields : List BindingField := []
  deriving DecidableEq

inductive IdentityInspection where
  | match
  | mismatch (fields : List BindingField)
  | unbound
  | incomplete (fields : List BindingField)
  | invalid (code : IdentityCode) (fields : List BindingField)
  deriving DecidableEq

/-- The codes of `StorageDocumentError` that reading a document has. -/
inductive DocumentCode where
  | identityUnbound
  | identityIncomplete
  | identityInvalid
  | identityMismatch
  | invalidDocument
  | versionTooNew
  deriving DecidableEq, Repr

/-- `StorageDocumentError`; `assertDocumentStorageIdentity` also lets the error of an invalid scope out, and
`deriveEnrollmentEndpoints` throws one of its own. -/
inductive Thrown where
  | document (code : DocumentCode) (fields : List BindingField)
  | contract (error : ContractError)
  | authority
  deriving DecidableEq

/-! ## Identities -/

structure StorageScope where
  tenant : JsString
  accountId : JsString
  deriving DecidableEq

structure BindingFacts where
  saasBaseUrl : JsString
  deliveredIssuer : Option JsString
  relayUrl : Option JsString
  agentPublicKey : JsString
  deriving DecidableEq

/-- `CredentialBindingIdentityV2`; its version is always 2. -/
structure BindingIdentity where
  storage : StorageScope
  binding : BindingFacts
  deriving DecidableEq

def storageIdentityVersion : Nat := 2

/-- The field, where its check fails. -/
def fieldUnless {α : Type} (ok : Bool) (field : α) : List α := if ok then [] else [field]

@[simp] theorem fieldUnless_eq_nil {α : Type} {ok : Bool} {field : α} : fieldUnless ok field = [] ↔ ok = true := by
  unfold fieldUnless
  cases ok
  · exact iff_of_false (List.cons_ne_nil _ _) Bool.false_ne_true
  · exact iff_of_true rfl rfl

def isSubjectToken : Json ν → Bool
  | .str s => isValidSubjectToken s
  | _ => false

def isAccountId : Json ν → Bool
  | .str s => isValidAccountId s
  | _ => false

def validateStorageScope (tenant accountId : Json ν) : Except ContractError StorageScope :=
  let invalid := fieldUnless (isSubjectToken tenant) .storageTenant ++ fieldUnless (isAccountId accountId) .storageAccountId
  if invalid ≠ [] then .error { code := .invalidField, fields := invalid }
  else .ok { tenant := asString tenant, accountId := asString accountId }

def isSaasBaseUrl (runtime : Runtime) : Json ν → Bool
  | .str s => isAbsoluteHttpUrl runtime s
  | _ => false

def isDeliveredIssuer : Json ν → Bool
  | .null => true
  | .str s => nonEmptyAfterTrailingSlash s
  | _ => false

def isRelayUrl : Json ν → Bool
  | .null => true
  | .str s => s ≠ []
  | _ => false

def isAgentPublicKey : Json ν → Bool
  | .str s => isBase64Url32 s
  | _ => false

def validateBindingFacts (runtime : Runtime) (saasBaseUrl deliveredIssuer relayUrl agentPublicKey : Json ν) :
    Except ContractError BindingFacts :=
  let invalid :=
    fieldUnless (isSaasBaseUrl runtime saasBaseUrl) .saasBaseUrl ++
      fieldUnless (isDeliveredIssuer deliveredIssuer) .deliveredIssuer ++ fieldUnless (isRelayUrl relayUrl) .relayUrl ++
      fieldUnless (isAgentPublicKey agentPublicKey) .agentPublicKey
  if invalid ≠ [] then .error { code := .invalidField, fields := invalid }
  else .ok
    { saasBaseUrl := asString saasBaseUrl, deliveredIssuer := asNullableString deliveredIssuer,
      relayUrl := asNullableString relayUrl, agentPublicKey := asString agentPublicKey }

def createStorageIdentityV2 (scope : StorageScope) : Except ContractError StorageScope :=
  validateStorageScope (.str scope.tenant : Json Unit) (.str scope.accountId)

def createCredentialBindingIdentityV2 (runtime : Runtime) (scope : StorageScope) (binding : BindingFacts) :
    Except ContractError BindingIdentity := do
  let storage ← createStorageIdentityV2 scope
  let binding ← validateBindingFacts runtime (.str binding.saasBaseUrl : Json Unit) (nullable binding.deliveredIssuer)
    (nullable binding.relayUrl) (.str binding.agentPublicKey)
  return { storage, binding }

/-! ## Parsing -/

section parsing

variable [JsonIntegers ν]

open JsonIntegers (safeInteger)

/-- `value === expected` -/
def isInteger (expected : Int) : Json ν → Bool
  | .num n => safeInteger n = some expected
  | _ => false

/-- A safe integer above `supported`. -/
def isFutureVersion (supported : Int) : Option (Json ν) → Bool
  | some (.num n) => (safeInteger n).any (supported < ·)
  | _ => false

def requireRecord (value : Json ν) : Except ContractError Unit :=
  if isRecord value = false then .error { code := .invalidShape }
  else if (value.member "identityVersion").isNone then .error { code := .unbound }
  else .ok ()

def requireVersion (value : Json ν) : Except ContractError Unit :=
  if (value.member "identityVersion").any (isInteger storageIdentityVersion) then .ok ()
  else if isFutureVersion storageIdentityVersion (value.member "identityVersion") then
    .error { code := .versionTooNew, fields := [.identityVersion] }
  else .error { code := .unsupportedVersion, fields := [.identityVersion] }

def parseStorageScope (value : Option (Json ν)) : Except ContractError StorageScope :=
  match value with
  | none => .error { code := .incomplete, fields := [.storageTenant, .storageAccountId] }
  | some value =>
    if isRecord value = false then .error { code := .invalidShape, fields := [.storageTenant, .storageAccountId] }
    else
      match value.member "tenant", value.member "accountId" with
      | some tenant, some accountId => validateStorageScope tenant accountId
      | tenant, accountId =>
        .error
          { code := .incomplete
            fields := fieldUnless tenant.isSome .storageTenant ++ fieldUnless accountId.isSome .storageAccountId }

def bindingFields : List BindingField := [.saasBaseUrl, .deliveredIssuer, .relayUrl, .agentPublicKey]

def parseBindingFacts (runtime : Runtime) (value : Option (Json ν)) : Except ContractError BindingFacts :=
  match value with
  | none => .error { code := .incomplete, fields := bindingFields }
  | some value =>
    if isRecord value = false then .error { code := .invalidShape, fields := bindingFields }
    else
      match value.member "saasBaseUrl", value.member "deliveredIssuer", value.member "relayUrl",
        value.member "agentPublicKey" with
      | some saasBaseUrl, some deliveredIssuer, some relayUrl, some agentPublicKey =>
        validateBindingFacts runtime saasBaseUrl deliveredIssuer relayUrl agentPublicKey
      | saasBaseUrl, deliveredIssuer, relayUrl, agentPublicKey =>
        .error
          { code := .incomplete
            fields := fieldUnless saasBaseUrl.isSome .saasBaseUrl ++ fieldUnless deliveredIssuer.isSome .deliveredIssuer ++
              fieldUnless relayUrl.isSome .relayUrl ++ fieldUnless agentPublicKey.isSome .agentPublicKey }

def parseStorageIdentityV2 (value : Json ν) : Except ContractError StorageScope := do
  requireRecord value
  requireVersion value
  parseStorageScope (value.member "storage")

def parseCredentialBindingIdentityV2 (runtime : Runtime) (value : Json ν) : Except ContractError BindingIdentity := do
  requireRecord value
  requireVersion value
  let storage ← parseStorageScope (value.member "storage")
  let binding ← parseBindingFacts runtime (value.member "binding")
  return { storage, binding }

/-- The inspection that `parseForInspection` makes of a refused identity. -/
def ContractError.inspection (error : ContractError) : IdentityInspection :=
  match error.code with
  | .unbound => .unbound
  | .incomplete => .incomplete error.fields
  | code => .invalid code error.fields

def mismatchOrMatch (fields : List BindingField) : IdentityInspection :=
  if fields = [] then .match else .mismatch fields

def storageMismatches (expected persisted : StorageScope) : List BindingField :=
  fieldUnless (expected.tenant = persisted.tenant) .storageTenant ++
    fieldUnless (expected.accountId = persisted.accountId) .storageAccountId

def bindingMismatches (expected persisted : BindingFacts) : List BindingField :=
  fieldUnless (stripTrailingSlashes expected.saasBaseUrl = stripTrailingSlashes persisted.saasBaseUrl) .saasBaseUrl ++
    fieldUnless (nullableTrailingSlashEqual expected.deliveredIssuer persisted.deliveredIssuer) .deliveredIssuer ++
    fieldUnless (expected.relayUrl = persisted.relayUrl) .relayUrl ++
    fieldUnless (expected.agentPublicKey = persisted.agentPublicKey) .agentPublicKey

/-- The expected identity is parsed as well; of a value with all its members that is to validate it again. -/
def inspectStorageIdentityV2 (expected : StorageScope) (persisted : Json ν) : Except ContractError IdentityInspection := do
  let expected ← createStorageIdentityV2 expected
  match parseStorageIdentityV2 persisted with
  | .error error => return error.inspection
  | .ok persisted => return mismatchOrMatch (storageMismatches expected persisted)

def inspectCredentialBindingIdentityV2 (runtime : Runtime) (expected : BindingIdentity) (persisted : Json ν) :
    Except ContractError IdentityInspection := do
  let expected ← createCredentialBindingIdentityV2 runtime expected.storage expected.binding
  match parseCredentialBindingIdentityV2 runtime persisted with
  | .error error => return error.inspection
  | .ok persisted =>
    return mismatchOrMatch
      (storageMismatches expected.storage persisted.storage ++ bindingMismatches expected.binding persisted.binding)

def inspectionError (inspection : IdentityInspection) : Thrown :=
  match inspection with
  | .match => .document .identityInvalid []
  | .unbound => .document .identityUnbound []
  | .incomplete fields => .document .identityIncomplete fields
  | .invalid code fields => .document (if code = .versionTooNew then .versionTooNew else .identityInvalid) fields
  | .mismatch fields => .document .identityMismatch fields

def assertDocumentStorageIdentity (scope : StorageScope) (persistedIdentity : Option (Json ν)) : Except Thrown Unit :=
  match (do inspectStorageIdentityV2 (← createStorageIdentityV2 scope) (persistedIdentity.getD (.obj []))) with
  | .error error => .error (.contract error)
  | .ok .match => .ok ()
  | .ok inspection => .error (inspectionError inspection)

def assertDocumentVersionNotFromFuture (supported : Int) (value : Option (Json ν)) : Except Thrown Unit :=
  if isFutureVersion supported value then .error (.document .versionTooNew []) else .ok ()

def assertSupportedDocumentVersion (supported : Int) (value : Option (Json ν)) : Except Thrown Unit :=
  if value.any (isInteger supported) then .ok ()
  else do
    assertDocumentVersionNotFromFuture supported value
    .error (.document .invalidDocument [])

end parsing

def deriveEnrollmentEndpoints (runtime : Runtime) (saasBaseUrl : JsString) : Except Thrown EnrollmentEndpoints :=
  if isAbsoluteHttpUrl runtime saasBaseUrl = false then .error .authority
  else .ok
    { saasEnrollUrl := stripTrailingSlashes saasBaseUrl ++ js "/api/enroll"
      saasPollUrl := stripTrailingSlashes saasBaseUrl ++ js "/api/poll" }

end Webchannel.Storage
