import Webchannel.Bootstrap.Claims
import Webchannel.Bootstrap.Decoding
import Webchannel.Storage.Credentials

/-!
# Verifying a bootstrap token

`verifyJwt` of `jwt.ts`. The key lookup and the Web Crypto calls are parameters, `none` where they throw.
-/

namespace Webchannel.Bootstrap

open Base64 (bufferFrom)
open Register (PopPublicJwk)
open Storage (stripTrailingSlashes stringOf)

structure JwtIdentity extends Register.JwtIdentity where
  displayName : Option JsString
  deriving DecidableEq

structure VerifyJwtOptions where
  issuer : JsString
  audience : JsString
  clockSkewSec : Option Double := none

/-- `now` is `Math.floor(Date.now() / 1000)`. -/
structure Platform (κ : Type) where
  getKey : JsString → Option κ
  verify : κ → Bytes → Bytes → Option Bool
  now : Int

def constantTimeEqual (a b : JsString) : Bool :=
  if a.length ≠ b.length then false else (a.zip b).foldl (fun diff p => diff ||| p.1 ^^^ p.2) 0 = 0

def isObject : Json Double → Bool
  | .obj _ => true
  | .arr _ => true
  | _ => false

/-- The object or array that a segment holds. -/
def decodeSegment (segment : JsString) : Option (Json Double) := do
  let decoded ← base64UrlDecode segment
  (JsonText.parse JsonText.doubles (textDecode decoded)).filter isObject

/-! ## The signature -/

/-- Steps 1 to 4: the payload segment of a token whose signature holds; `none` where the token is refused. -/
def checkSignature {κ : Type} (platform : Platform κ) (token : Option JsString) : Except Unit (Option JsString) :=
  match (token.getD []).splitOn 46 with
  | [headerSegment, payloadSegment, signatureSegment] =>
    if headerSegment = [] ∨ payloadSegment = [] ∨ signatureSegment = [] then .ok none
    else
      match decodeSegment headerSegment with
      | none => .ok none
      | some header =>
        if stringOf (header.member "alg") ≠ some (js "RS256") then .ok none
        else
          match (stringOf (header.member "kid")).filter (· ≠ []), base64UrlDecode signatureSegment with
          | some kid, some signature =>
            match (platform.getKey kid).bind fun key =>
              platform.verify key signature (encodeUtf8 (headerSegment ++ 46 :: payloadSegment)) with
            | none => .error ()
            | some ok => .ok (if ok then some payloadSegment else none)
          | _, _ => .ok none
  | _ => .ok none

/-! ## The claims -/

def audienceMatches (audience : JsString) : Option (Json Double) → Bool
  | some (.str aud) => constantTimeEqual aud audience
  | some (.arr aud) =>
    aud ≠ [] ∧ (aud.all fun value => (stringOf (some value)).isSome) ∧
      aud.any fun value => (stringOf (some value)).any (constantTimeEqual · audience)
  | _ => false

def defaultClockSkewSec : Rat := 60

/-- `now >= exp + leeway` -/
def isExpired (now : Int) (exp leeway : Double) : Bool := (exp.add leeway).any (·.le now)

/-- The issuer, the audience and the expiry, and the peer they are checked for. -/
def checkClaims (opts : VerifyJwtOptions) (now : Int) (payload : Json Double) : Option JsString :=
  match stringOf (payload.member "iss") with
  | none => none
  | some iss =>
    if constantTimeEqual (stripTrailingSlashes iss) (stripTrailingSlashes opts.issuer) = false then none
    else if audienceMatches opts.audience (payload.member "aud") = false then none
    else
      match payload.member "exp" with
      | some (.num exp) =>
        if exp.isFinite = false then none
        else if isExpired now exp (opts.clockSkewSec.getD (toDouble defaultClockSkewSec)) then none
        else (stringOf (payload.member "sub")).filter (· ≠ [])
      | _ => none

/-- The `x` of a public key on this curve, without its private part. -/
def publicKey (crv : String) (jwk : Json Double) : Option JsString :=
  if stringOf (jwk.member "kty") = some (js "OKP") ∧ stringOf (jwk.member "crv") = some (js crv) ∧ jwk.member "d" = none then
    (stringOf (jwk.member "x")).filter fun x => x ≠ [] ∧ (base64UrlDecode x).any (·.length = 32)
  else none

/-- The device key; `none` where the token is refused. A `cnf` that is no object is passed over. -/
def deviceKey : Option (Json Double) → Option (Option JsString)
  | some (.obj cnf) => (((Json.obj cnf).member "jwk").bind (publicKey "X25519")).map some
  | _ => some none

def popKey : Option (Json Double) → Option (Option PopPublicJwk)
  | none => some none
  | some popJwk => (publicKey "Ed25519" popJwk).map fun x => some ⟨js "OKP", js "Ed25519", x⟩

/-- `a ?? b` -/
def orElse (a b : Option (Json Double)) : Option (Json Double) :=
  match a with
  | some .null => b
  | none => b
  | a => a

/-- Step 5 -/
def admitClaims (opts : VerifyJwtOptions) (now : Int) (payload : Json Double) : Option JwtIdentity :=
  match checkClaims opts now payload with
  | none => none
  | some peerId =>
    match deviceKey (payload.member "cnf") with
    | none => none
    | some devicePublicKey =>
      match popKey (payload.member "pop_jwk") with
      | none => none
      | some popPublicJwk =>
        some
          { peerId
            tenant := (stringOf (payload.member "tenant")).filter (· ≠ [])
            displayName := (stringOf (orElse (payload.member "name") (payload.member "preferred_username"))).filter (· ≠ [])
            devicePublicKey
            popPublicJwk }

/-- A token that is no string is `none`; so is the result for a token that is refused. -/
def verifyJwt {κ : Type} (platform : Platform κ) (token : Option JsString) (opts : VerifyJwtOptions) :
    Except Unit (Option JwtIdentity) :=
  match checkSignature platform token with
  | .error _ => .error ()
  | .ok none => .ok none
  | .ok (some payloadSegment) => .ok ((decodeSegment payloadSegment).bind (admitClaims opts platform.now))

end Webchannel.Bootstrap
