import Webchannel.Lib.Effect
import Webchannel.Lib.Json
import Webchannel.Register.PopChallenge

/-!
# The register hop

`handleRegisterRequest` of `nats-register.ts`, cut at its only `await`: `startRequest` runs when a
request is delivered, `resumeRequest` when `verifyIdentity` has settled. The log lines are left
out, and so is what `unregisterPeer` may throw.
-/

namespace Webchannel.Register

open Webchannel.Effect

abbrev JsonValue := Json JsonNumber

/-! ## Thrown values -/

inductive Property where
  | name
  | accountId
  | currentKeys
  | maxKeys
  deriving DecidableEq, Repr

/-- What a property holds. -/
inductive Value where
  | string (s : JsString)
  | number (n : JsonNumber)
  | other
  deriving DecidableEq, Repr

/-- Anything may be thrown. `none` stands for a test or a property access that throws in turn, as
with a proxy or a getter. -/
structure Thrown where
  isTransientVerifyError : Option Bool
  isObject : Bool
  get : Property → Option Value

/-- What the language throws where a property of `null` is read. -/
def typeError : Thrown := ⟨some false, true, fun p => some (if p = .name then .string (js "TypeError") else .other)⟩

/-- `left && rest`, where `left` is a test of a property. -/
def Thrown.check (err : Thrown) (p : Property) (test : Value → Bool) (rest : Option Bool) : Option Bool :=
  match err.get p with
  | none => none
  | some v => if test v then rest else some false

def Value.isNonEmptyString : Value → Bool
  | .string s => s ≠ []
  | _ => false

/-- `Number.isSafeInteger(v) && v >= least` -/
def Value.isSafeIntegerFrom (least : Rat) : Value → Bool
  | .number (.finite q) => (JsonNumber.finite q).isSafeInteger ∧ least ≤ q
  | _ => false

def isConversationKeyCapacityError (err : Thrown) : Option Bool :=
  if err.isObject = false then some false
  else
    err.check .name (· = .string (js "ConversationKeyCapacityError")) <|
    err.check .accountId Value.isNonEmptyString <|
    err.check .currentKeys (Value.isSafeIntegerFrom 0) <|
    err.check .maxKeys (Value.isSafeIntegerFrom 1) (some true)

def hasCapacityErrorName (err : Thrown) : Option Bool :=
  if err.isObject = false then some false
  else err.check .name (· = .string (js "ConversationKeyCapacityError")) (some true)

structure CapacityStatus where
  accountId : Value
  currentKeys : Value
  maxKeys : Value
  deriving DecidableEq, Repr

def capacityStatus (err : Thrown) : Option CapacityStatus := do
  let accountId ← err.get .accountId
  let currentKeys ← err.get .currentKeys
  let maxKeys ← err.get .maxKeys
  return ⟨accountId, currentKeys, maxKeys⟩

/-! ## What the handler is given -/

structure JwtIdentity where
  peerId : JsString
  tenant : Option JsString
  devicePublicKey : Option JsString
  popPublicJwk : Option PopPublicJwk
  deriving DecidableEq, Repr

structure WrappedConversationKey where
  ephemeralPublicKey : JsString
  nonce : JsString
  ciphertext : JsString
  tag : JsString
  deriving DecidableEq, Repr

/-- `JSON.parse` is `none` where it throws. -/
structure Runtime extends SignatureRuntime where
  parse : JsString → Option JsonValue
  pluginVersion : Option JsString

/-- A callback is what it throws, if it does. -/
structure RegisterHandlerDeps where
  tenant : JsString
  subjectPeerId : JsString
  payload : JsString
  requirePoP : Bool
  registerPeer : JsString → Option Thrown
  wrapConversationKeyForDevice : JsString → Bytes → JsString → Except Thrown (Option WrappedConversationKey)
  sendHistorySnapshot : JsString → Option Thrown
  sendApprovalSnapshot : JsString → Option Thrown
  onCapacityReject : Option (CapacityStatus → Option Thrown)

/-- What a section of the handler finds on the clock and in the random source. -/
structure Moment where
  first : Int
  second : Int
  random : JsString

/-! ## What the handler does -/

inductive Effect where
  | reply (response : JsonValue)
  | registerPeer (peerId : JsString)
  | wrapConversationKey (peerId : JsString) (devicePublicKey : Bytes) (clientNonce : JsString)
  | unregisterPeer (peerId : JsString)
  | sendHistorySnapshot (peerId : JsString)
  | sendApprovalSnapshot (peerId : JsString)
  | capacityReject (status : CapacityStatus)

structure State where
  store : PopChallengeStore
  effects : List Effect

abbrev Handler := Eff Thrown State

def perform (e : Effect) : Handler Unit := modify fun s => { s with effects := s.effects ++ [e] }

def reply (response : JsonValue) : Handler Unit := perform (.reply response)

/-- A call that may throw. -/
def call (e : Effect) (outcome : Option Thrown) : Handler Unit := do
  perform e
  match outcome with
  | none => return ()
  | some err => throw err

/-- An inspection of a thrown value. -/
def inspect {α : Type} (result : Option α) : Handler α :=
  match result with
  | some a => pure a
  | none => throw typeError

def WEBCHANNEL_PROTOCOL_VERSION : JsonNumber := .finite 3

def errorResponse (error : String) (code : Rat) (rest : List (JsString × JsonValue)) : JsonValue :=
  .obj ((js "error", .str (js error)) :: (js "code", .num (.finite code)) :: rest)

def REGISTER_UNAUTHORIZED : JsonValue := errorResponse "unauthorized" 401 []

def REGISTER_FAILED : JsonValue := errorResponse "registration_failed" 500 []

def REGISTER_CAPACITY_EXCEEDED : JsonValue := errorResponse "capacity_exceeded" 507 []

def REGISTER_UNAVAILABLE : JsonValue := errorResponse "unavailable" 503 []

def REGISTER_PROTOCOL_MISMATCH : JsonValue :=
  errorResponse "protocol_mismatch" 426 [(js "protocolVersion", .num WEBCHANNEL_PROTOCOL_VERSION)]

def challengeResponse (nonce : JsString) : JsonValue := .obj [(js "nonce", .str nonce)]

def WrappedConversationKey.json (wrapped : WrappedConversationKey) : JsonValue :=
  .obj [(js "ephemeralPublicKey", .str wrapped.ephemeralPublicKey), (js "nonce", .str wrapped.nonce),
    (js "ciphertext", .str wrapped.ciphertext), (js "tag", .str wrapped.tag)]

def registeredResponse (peerId : JsString) (wrapped : WrappedConversationKey) (pluginVersion : Option JsString) :
    JsonValue :=
  .obj ([(js "peerId", .str peerId), (js "registered", .bool true), (js "wrappedConversationKey", wrapped.json),
      (js "protocolVersion", .num WEBCHANNEL_PROTOCOL_VERSION)] ++
    (pluginVersion.map fun version => (js "pluginVersion", .str version)).toList)

/-! ## Guards -/

/-- The letters, the digits, `-` and `_`. -/
def isTokenUnit (u : UInt16) : Bool :=
  (48 ≤ u ∧ u ≤ 57) ∨ (65 ≤ u ∧ u ≤ 90) ∨ (97 ≤ u ∧ u ≤ 122) ∨ u = 45 ∨ u = 95

/-- What `assertValidSubjectToken` lets pass. -/
def isValidSubjectToken (token : JsString) : Bool := token.all isTokenUnit ∧ 1 ≤ token.length ∧ token.length ≤ 128

def isValidClientNonce (value : JsString) : Bool := value.all isTokenUnit ∧ 22 ≤ value.length ∧ value.length ≤ 128

/-- The nonce, where the member is a string and well-formed. -/
def readClientNonce (parsed : JsonValue) : Option JsString :=
  match parsed.member "clientNonce" with
  | some (.str s) => if isValidClientNonce s then some s else none
  | _ => none

def speaksProtocol (parsed : JsonValue) : Bool :=
  match parsed.member "protocolVersion" with
  | some (.num n) => n.isSafeInteger ∧ n = WEBCHANNEL_PROTOCOL_VERSION
  | _ => false

def identityMatchesTenantScope (identity : JwtIdentity) (tenant : JsString) : Bool :=
  match identity.tenant with
  | some t => t ≠ [] ∧ t = tenant
  | none => false

def popRequirementUnmet (requirePoP hasPopJwk : Bool) : Bool := requirePoP && !hasPopJwk

/-! ## The handler -/

inductive Op where
  | challenge
  | register
  | unregister
  deriving DecidableEq, Repr

/-- A request that waits for `verifyIdentity(token)`. -/
structure Request where
  op : Op
  token : JsString
  parsed : JsonValue

/-- `typeof parsed.op === "string" ? parsed.op : ""` on a value that may be `null`. -/
def readOp (parsed : JsonValue) : Handler JsString :=
  match parsed with
  | .null => throw typeError
  | _ => pure (parsed.readString "op")

/-- The end of a request that is answered at once. -/
def answer {α : Type} (response : JsonValue) : Handler (Option α) := do
  reply response
  return none

def startRequest (runtime : Runtime) (payload : JsString) : Handler (Option Request) :=
  match runtime.parse payload with
  | none => answer REGISTER_UNAUTHORIZED
  | some parsed => do
    let op ← readOp parsed
    let token := parsed.readString "token"
    if op = js "unregister" then
      return if token = [] then none else some ⟨.unregister, token, parsed⟩
    else if op = js "challenge" then
      if token = [] then answer REGISTER_UNAUTHORIZED else return some ⟨.challenge, token, parsed⟩
    else if op = js "register" then
      if token = [] then answer REGISTER_UNAUTHORIZED else return some ⟨.register, token, parsed⟩
    else answer REGISTER_UNAUTHORIZED

/-- Consumes the nonce of the request. -/
def verifyProof (runtime : Runtime) (op : PopOp) (peerId : JsString) (parsed : JsonValue) (jwk : PopPublicJwk)
    (now : Int) : Handler Bool := do
  let nonce := parsed.readString "nonce"
  let signature := parsed.readString "signature"
  if nonce = [] ∨ signature = [] then return false
  else do
    let s ← get
    let result := s.store.verify runtime.toSignatureRuntime op peerId nonce signature jwk now
    modify fun s => { s with store := result.2 }
    return result.1.ok

/-- The gate and the proof; without a key there is nothing to verify. -/
def provePossession (runtime : Runtime) (deps : RegisterHandlerDeps) (op : PopOp) (identity : JwtIdentity)
    (parsed : JsonValue) (now : Int) : Handler Bool :=
  if popRequirementUnmet deps.requirePoP identity.popPublicJwk.isSome then pure false
  else
    match identity.popPublicJwk with
    | none => pure true
    | some jwk => verifyProof runtime op identity.peerId parsed jwk now

/-- The checks that every operation makes on a verified identity. -/
def admits (deps : RegisterHandlerDeps) (identity : JwtIdentity) : Bool :=
  identityMatchesTenantScope identity deps.tenant ∧ deps.subjectPeerId = identity.peerId ∧
    isValidSubjectToken identity.peerId

def resumeUnregister (runtime : Runtime) (deps : RegisterHandlerDeps) (parsed : JsonValue)
    (verified : Except Thrown (Option JwtIdentity)) (now : Int) : Handler Unit :=
  match verified with
  | .error _ => pure ()
  | .ok none => pure ()
  | .ok (some identity) =>
    if admits deps identity then do
      if ← provePossession runtime deps .unregister identity parsed now then
        perform (.unregisterPeer identity.peerId)
      else return ()
    else pure ()

/-- The body of the last `try`. -/
def admitPeer (runtime : Runtime) (deps : RegisterHandlerDeps) (peerId : JsString) (devicePublicKey : Bytes)
    (clientNonce : JsString) : Handler Unit := do
  call (.registerPeer peerId) (deps.registerPeer peerId)
  perform (.wrapConversationKey peerId devicePublicKey clientNonce)
  match deps.wrapConversationKeyForDevice peerId devicePublicKey clientNonce with
  | .error err => throw err
  | .ok none => reply REGISTER_FAILED
  | .ok (some wrapped) => do
    call (.sendHistorySnapshot peerId) (deps.sendHistorySnapshot peerId)
    call (.sendApprovalSnapshot peerId) (deps.sendApprovalSnapshot peerId)
    reply (registeredResponse peerId wrapped runtime.pluginVersion)

def reportCapacity (deps : RegisterHandlerDeps) (status : CapacityStatus) : Handler Unit :=
  match deps.onCapacityReject with
  | none => pure ()
  | some onCapacityReject => tryCatch (call (.capacityReject status) (onCapacityReject status)) fun _ => pure ()

/-- The handler of the last `try`. -/
def admissionFailed (deps : RegisterHandlerDeps) (err : Thrown) : Handler Unit := do
  if ← inspect (isConversationKeyCapacityError err) then
    let status ← inspect (capacityStatus err)
    reply REGISTER_CAPACITY_EXCEEDED
    reportCapacity deps status
  else
    let _ ← inspect (hasCapacityErrorName err)
    reply REGISTER_FAILED

def resumeRegister (runtime : Runtime) (deps : RegisterHandlerDeps) (identity : JwtIdentity) (parsed : JsonValue)
    (now : Int) : Handler Unit :=
  if speaksProtocol parsed = false then reply REGISTER_PROTOCOL_MISMATCH
  else
    match readClientNonce parsed with
    | none => reply REGISTER_UNAUTHORIZED
    | some clientNonce => do
      if ← provePossession runtime deps .register identity parsed now then
        match identity.devicePublicKey.filter (· ≠ []) with
        | none => reply REGISTER_UNAUTHORIZED
        | some key =>
          let devicePublicKey := runtime.fromBase64Url key
          if devicePublicKey.length ≠ 32 then reply REGISTER_UNAUTHORIZED
          else tryCatch (admitPeer runtime deps identity.peerId devicePublicKey clientNonce) (admissionFailed deps)
      else reply REGISTER_UNAUTHORIZED

def issueChallenge (peerId : JsString) (moment : Moment) : Handler Unit := do
  modify fun s => { s with store := s.store.issue peerId moment.random moment.first moment.second }
  reply (challengeResponse moment.random)

/-- The rest of the request, once `verifyIdentity` has settled. -/
def resumeRequest (runtime : Runtime) (deps : RegisterHandlerDeps) (request : Request)
    (verified : Except Thrown (Option JwtIdentity)) (moment : Moment) : Handler Unit :=
  if request.op = .unregister then resumeUnregister runtime deps request.parsed verified moment.first
  else
    match verified with
    | .error err => do
      if ← inspect err.isTransientVerifyError then reply REGISTER_UNAVAILABLE else reply REGISTER_UNAUTHORIZED
    | .ok none => reply REGISTER_UNAUTHORIZED
    | .ok (some identity) =>
      if admits deps identity = false then reply REGISTER_UNAUTHORIZED
      else if request.op = .challenge then issueChallenge identity.peerId moment
      else resumeRegister runtime deps identity request.parsed moment.first

/-- A request from its delivery to its end. -/
def handleRegisterRequest (runtime : Runtime) (deps : RegisterHandlerDeps)
    (verifyIdentity : JsString → Except Thrown (Option JwtIdentity)) (moment : Moment) : Handler Unit := do
  match ← startRequest runtime deps.payload with
  | none => return ()
  | some request => resumeRequest runtime deps request (verifyIdentity request.token) moment

end Webchannel.Register
