import Webchannel.Lib.Base64
import Webchannel.Lib.JsonDouble
import Webchannel.Register.Handler

/-!
# Bootstrap claims

The claims that the SaaS mints for a device (`bootstrap-claims.ts`) and the token it signs them into
(`bootstrap-issuer.ts`). The RS256 signature is a parameter.
-/

namespace Webchannel.Bootstrap

open Base64 (bufferFrom base64url)
open Register (isValidSubjectToken)

/-- A single account, or an array of them. -/
inductive Audience where
  | one (value : JsString)
  | many (values : List JsString)

structure BootstrapClaimsInput where
  iss : JsString
  peerId : JsString
  accountId : Audience
  tenant : JsString
  deviceX25519PublicKey : JsString
  devicePopPublicKey : Option JsString := none
  nowSeconds : Option Double := none
  ttlSeconds : Option Double := none

/-- `cnf` and `popJwk` hold the `x` of their keys; the rest of a key is the same in every token. -/
structure BootstrapClaims where
  iss : JsString
  sub : JsString
  aud : Audience
  exp : Option Double
  iat : Double
  tenant : JsString
  cnf : JsString
  popJwk : Option JsString

/-- What is thrown. -/
inductive ClaimsError where
  | subjectToken (label : String)
  | keyLength (label : String) (length : Nat)
  | emptyAccounts
  deriving DecidableEq, Repr

def DEFAULT_TTL_SECONDS : Rat := 300

def assertValidSubjectToken (token : JsString) (label : String) : Except ClaimsError Unit :=
  if isValidSubjectToken token then .ok () else .error (.subjectToken label)

def assert32Bytes (label : String) (b64url : JsString) : Except ClaimsError Unit :=
  if (bufferFrom b64url).length ≠ 32 then .error (.keyLength label (bufferFrom b64url).length) else .ok ()

def assertAccounts : Audience → Except ClaimsError Unit
  | .one value => assertValidSubjectToken value "accountId"
  | .many values => if values = [] then .error .emptyAccounts else values.forM fun value => assertValidSubjectToken value "accountId"

/-- `if (key)` -/
def presentKey (key : Option JsString) : Option JsString := key.filter (· ≠ [])

/-- `date` is `Math.floor(Date.now() / 1000)`. -/
def buildBootstrapClaims (date : Int) (input : BootstrapClaimsInput) : Except ClaimsError BootstrapClaims := do
  assertValidSubjectToken input.peerId "peerId"
  assertValidSubjectToken input.tenant "tenant"
  assert32Bytes "deviceX25519PublicKey" input.deviceX25519PublicKey
  match presentKey input.devicePopPublicKey with
  | none => pure ()
  | some key => assert32Bytes "devicePopPublicKey" key
  let now := input.nowSeconds.getD (toDouble date)
  let ttl := input.ttlSeconds.getD (toDouble DEFAULT_TTL_SECONDS)
  assertAccounts input.accountId
  return {
    iss := input.iss
    sub := input.peerId
    aud := input.accountId
    exp := now.add ttl
    iat := now
    tenant := input.tenant
    cnf := input.deviceX25519PublicKey
    popJwk := presentKey input.devicePopPublicKey }

/-! ## Signing -/

/-- `JSON.stringify` writes a number that is not finite as `null`. -/
def numberValue : Option Double → Json Double
  | some n => if n.isFinite then .num n else .null
  | none => .null

def Audience.value : Audience → Json Double
  | .one value => .str value
  | .many values => .arr (values.map .str)

def keyValue (crv x : JsString) : Json Double := .obj [(js "kty", .str (js "OKP")), (js "crv", .str crv), (js "x", .str x)]

def BootstrapClaims.value (claims : BootstrapClaims) : Json Double :=
  .obj
    ([(js "iss", .str claims.iss), (js "sub", .str claims.sub), (js "aud", claims.aud.value), (js "exp", numberValue claims.exp),
      (js "iat", numberValue (some claims.iat)), (js "tenant", .str claims.tenant),
      (js "cnf", .obj [(js "jwk", keyValue (js "X25519") claims.cnf)])] ++
      (claims.popJwk.map fun x => (js "pop_jwk", keyValue (js "Ed25519") x)).toList)

/-- `createBootstrapIssuer`, with the signature that its key makes. -/
structure BootstrapIssuer where
  kid : JsString
  signature : Bytes → Bytes

def b64urlJson (v : Json Double) : JsString := base64url (encodeUtf8 (JsonText.stringify JsonText.doubles v))

def BootstrapIssuer.header (issuer : BootstrapIssuer) : Json Double :=
  .obj [(js "alg", .str (js "RS256")), (js "typ", .str (js "JWT")), (js "kid", .str issuer.kid)]

def BootstrapIssuer.signingInput (issuer : BootstrapIssuer) (claims : BootstrapClaims) : JsString :=
  b64urlJson issuer.header ++ 46 :: b64urlJson claims.value

def BootstrapIssuer.sign (issuer : BootstrapIssuer) (claims : BootstrapClaims) : JsString :=
  issuer.signingInput claims ++ 46 :: base64url (issuer.signature (encodeUtf8 (issuer.signingInput claims)))

end Webchannel.Bootstrap
