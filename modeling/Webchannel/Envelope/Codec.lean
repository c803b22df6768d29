import Webchannel.Lib.Base64
import Webchannel.Lib.JsonText

/-!
# The message envelope

The codec of the agent (`e2e-envelope.ts`, `e2e-session.ts`) and the one of the browser
(`e2e-crypto-browser.ts`). The cipher of each side, Node's base64url decoder and what a call
draws at random or reads from the clock come from outside.
-/

namespace Webchannel.Envelope

open JsonText Base64

variable {ν : Type} [DecidableEq ν]

/-- The first bytes as a fixed-size array, with zeros where there are none. -/
def vectorOf (n : Nat) (bs : Bytes) : Vector UInt8 n := Vector.ofFn fun i => bs.getD i 0

/-- The numbers of a JSON text, with the schema version among them. -/
structure Numbers (ν : Type) extends NumberFormat ν where
  ENVELOPE_VERSION : ν

/-- The AEAD of each side: from key, nonce, plaintext and additional data to ciphertext and tag, and
back. The agent's additional data may be left out. -/
structure Ciphers where
  encrypt : Bytes → Bytes → Bytes → Option Bytes → Bytes × Bytes
  decrypt : Bytes → Bytes → Bytes → Bytes → Option Bytes → Option Bytes
  chacha20poly1305Encrypt : Bytes → Bytes → Bytes → Bytes → Bytes × Bytes
  chacha20poly1305Decrypt : Bytes → Bytes → Bytes → Bytes → Bytes → Option Bytes

structure EnvelopeRouting (ν : Type) where
  accountId : JsString
  tenant : JsString
  sub : JsString
  messageId : JsString
  envelopeType : JsString
  ts : ν
  deriving DecidableEq

structure EncryptedContentBlock where
  nonce : JsString
  ciphertext : JsString
  tag : JsString
  deriving DecidableEq

/-- `v` is always the schema version. -/
structure MessageEnvelope (ν : Type) where
  routing : EnvelopeRouting ν
  content : EncryptedContentBlock

def EncryptedContentBlock.json (content : EncryptedContentBlock) : Json ν :=
  .obj [(js "nonce", .str content.nonce), (js "ciphertext", .str content.ciphertext), (js "tag", .str content.tag)]

def MessageEnvelope.json (numbers : Numbers ν) (env : MessageEnvelope ν) : Json ν :=
  .obj [(js "v", .num numbers.ENVELOPE_VERSION), (js "accountId", .str env.routing.accountId),
    (js "tenant", .str env.routing.tenant), (js "sub", .str env.routing.sub),
    (js "messageId", .str env.routing.messageId), (js "envelopeType", .str env.routing.envelopeType),
    (js "ts", .num env.routing.ts), (js "content", env.content.json)]

/-! ## The agent -/

namespace Agent

inductive EnvelopeError where
  | invalidJson
  | notAnObject
  | unsupportedVersion
  | missingField (field : String)
  | ts
  | content
  | contentField (field : String)
  | authentication
  | invalidMessage
  deriving DecidableEq, Repr

/-- The object under the additional data. -/
def aadJson (routing : EnvelopeRouting ν) : Json ν :=
  .obj [(js "tenant", .str routing.tenant), (js "accountId", .str routing.accountId), (js "sub", .str routing.sub),
    (js "messageId", .str routing.messageId), (js "envelopeType", .str routing.envelopeType),
    (js "ts", .num routing.ts)]

def canonicalAad (numbers : Numbers ν) (routing : EnvelopeRouting ν) : Bytes :=
  encodeUtf8 (stringify numbers.toNumberFormat (aadJson routing))

/-- The nonce is drawn by `encrypt`. -/
def encodeEnvelope (ciphers : Ciphers) (routing : EnvelopeRouting ν) (plaintext key : Bytes)
    (aad : Option Bytes) (nonce : Bytes) : MessageEnvelope ν :=
  let encrypted := ciphers.encrypt key nonce plaintext aad
  ⟨routing, ⟨base64url nonce, base64url encrypted.1, base64url encrypted.2⟩⟩

def decryptEnvelopeContent (ciphers : Ciphers) (fromBase64Url : JsString → Bytes) (env : MessageEnvelope ν)
    (key : Bytes) (aad : Option Bytes) : Except EnvelopeError Bytes :=
  let nonce := fromBase64Url env.content.nonce
  let ciphertext := fromBase64Url env.content.ciphertext
  let tag := fromBase64Url env.content.tag
  match ciphers.decrypt key nonce ciphertext tag aad with
  | some plaintext => .ok plaintext
  | none => .error .authentication

def serializeEnvelope (numbers : Numbers ν) (env : MessageEnvelope ν) : Bytes :=
  encodeUtf8 (stringify numbers.toNumberFormat (env.json numbers))

/-- A member that is a non-empty string. -/
def readField (raw : Json ν) (field : String) (error : EnvelopeError) : Except EnvelopeError JsString :=
  match raw.member field with
  | some (.str s) => if s = [] then .error error else .ok s
  | _ => .error error

def readContent (raw : Json ν) : Except EnvelopeError EncryptedContentBlock :=
  match raw.member "content" with
  | some (.obj l) => do
    let nonce ← readField (ν := ν) (.obj l) "nonce" (.contentField "nonce")
    let ciphertext ← readField (ν := ν) (.obj l) "ciphertext" (.contentField "ciphertext")
    let tag ← readField (ν := ν) (.obj l) "tag" (.contentField "tag")
    return ⟨nonce, ciphertext, tag⟩
  | _ => .error .content

def readTs (raw : Json ν) : Except EnvelopeError ν :=
  match raw.member "ts" with
  | some (.num n) => .ok n
  | _ => .error .ts

def checkVersion (numbers : Numbers ν) (raw : Json ν) : Except EnvelopeError Unit :=
  match raw.member "v" with
  | some (.num n) => if n = numbers.ENVELOPE_VERSION then .ok () else .error .unsupportedVersion
  | _ => .error .unsupportedVersion

def validateEnvelope (numbers : Numbers ν) (raw : Json ν) : Except EnvelopeError (MessageEnvelope ν) :=
  match raw with
  | .obj l => do
    checkVersion numbers (.obj l)
    let accountId ← readField (ν := ν) (.obj l) "accountId" (.missingField "accountId")
    let tenant ← readField (ν := ν) (.obj l) "tenant" (.missingField "tenant")
    let sub ← readField (ν := ν) (.obj l) "sub" (.missingField "sub")
    let messageId ← readField (ν := ν) (.obj l) "messageId" (.missingField "messageId")
    let envelopeType ← readField (ν := ν) (.obj l) "envelopeType" (.missingField "envelopeType")
    let ts ← readTs (.obj l)
    let content ← readContent (ν := ν) (.obj l)
    return ⟨⟨accountId, tenant, sub, messageId, envelopeType, ts⟩, content⟩
  | _ => .error .notAnObject

def deserializeEnvelope (numbers : Numbers ν) (payload : Bytes) : Except EnvelopeError (MessageEnvelope ν) :=
  match parse numbers.toNumberFormat (stringOfUtf8 payload) with
  | none => .error .invalidJson
  | some raw => validateEnvelope numbers raw

structure SessionRouting where
  accountId : JsString
  tenant : JsString
  sub : JsString
  deriving DecidableEq

/-- `randomBytes(8).toString("hex")` -/
def hex (bs : Bytes) : JsString := bs.flatMap fun b => [hexDigit (b.toNat / 16), hexDigit (b.toNat % 16)]

/-- The routing of one call. -/
def fullRouting (routing : SessionRouting) (envelopeType : JsString) (id : Bytes) (now : ν) : EnvelopeRouting ν :=
  ⟨routing.accountId, routing.tenant, routing.sub, hex id, envelopeType, now⟩

def sealEnvelope (numbers : Numbers ν) (ciphers : Ciphers) (routing : SessionRouting) (key : Bytes)
    (message : Json ν) (envelopeType : JsString) (id nonce : Bytes) (now : ν) : Bytes :=
  let full := fullRouting routing envelopeType id now
  let aad := canonicalAad numbers full
  let plaintext := encodeUtf8 (stringify numbers.toNumberFormat message)
  serializeEnvelope numbers (encodeEnvelope ciphers full plaintext key (some aad) nonce)

def openEnvelope (numbers : Numbers ν) (ciphers : Ciphers) (fromBase64Url : JsString → Bytes) (payload key : Bytes) :
    Except EnvelopeError (EnvelopeRouting ν × Json ν) := do
  let envelope ← deserializeEnvelope numbers payload
  let aad := canonicalAad numbers envelope.routing
  let plaintext ← decryptEnvelopeContent ciphers fromBase64Url envelope key (some aad)
  match parse numbers.toNumberFormat (stringOfUtf8 plaintext) with
  | some message => return (envelope.routing, message)
  | none => throw .invalidMessage

end Agent

/-! ## The browser -/

namespace Browser

def base64urlEncode (bytes : Bytes) : JsString := ((btoa bytes).map toUrl).filter (· ≠ 61)

def base64urlDecode (b64url : JsString) : Option Bytes :=
  let b64 := b64url.map ofUrl
  atob (b64 ++ List.replicate ((4 - b64.length % 4) % 4) 61)

/-- The object under the additional data; a member that is `undefined` is left out. -/
def aadJson (tenant accountId sub messageId envelopeType ts : Option (Json ν)) : Json ν :=
  .obj ([(js "tenant", tenant), (js "accountId", accountId), (js "sub", sub), (js "messageId", messageId),
    (js "envelopeType", envelopeType), (js "ts", ts)].filterMap fun e => e.2.map fun v => (e.1, v))

def canonicalAad (numbers : Numbers ν) (routing : EnvelopeRouting ν) : Bytes :=
  encodeUtf8 (stringify numbers.toNumberFormat
    (aadJson (some (.str routing.tenant)) (some (.str routing.accountId)) (some (.str routing.sub))
      (some (.str routing.messageId)) (some (.str routing.envelopeType)) (some (.num routing.ts))))

def encodeEnvelope (numbers : Numbers ν) (ciphers : Ciphers) (routing : EnvelopeRouting ν) (plaintext : JsString)
    (sessionKey nonce : Bytes) : MessageEnvelope ν :=
  let aad := canonicalAad numbers routing
  let encrypted := ciphers.chacha20poly1305Encrypt sessionKey nonce (encodeUtf8 plaintext) aad
  ⟨routing, ⟨base64urlEncode nonce, base64urlEncode encrypted.1, base64urlEncode encrypted.2⟩⟩

/-- `base64urlDecode(content[field])`, which throws on anything but a string. -/
def decodeField (content : Json ν) (field : String) : Option Bytes :=
  match content.member field with
  | some (.str s) => base64urlDecode s
  | _ => none

/-- The envelope is whatever the text was: its routing fields may be any value or missing. -/
def decodeEnvelope (numbers : Numbers ν) (ciphers : Ciphers) (env content : Json ν) (sessionKey : Bytes) :
    Option JsString := do
  let aad := encodeUtf8 (stringify numbers.toNumberFormat
    (aadJson (env.member "tenant") (env.member "accountId") (env.member "sub") (env.member "messageId")
      (env.member "envelopeType") (env.member "ts")))
  let nonce ← decodeField content "nonce"
  let ciphertext ← decodeField content "ciphertext"
  let tag ← decodeField content "tag"
  let plaintext ← ciphers.chacha20poly1305Decrypt sessionKey nonce ciphertext tag aad
  return textDecode plaintext

/-- `b.toString(16).padStart(2, "0")` for each byte. -/
def hex (bs : Bytes) : JsString :=
  bs.flatMap fun b =>
    if b.toNat < 16 then [48, hexDigit b.toNat] else [hexDigit (b.toNat / 16), hexDigit (b.toNat % 16)]

def fullRouting (routing : Agent.SessionRouting) (envelopeType : JsString) (id : Bytes) (now : ν) : EnvelopeRouting ν :=
  ⟨routing.accountId, routing.tenant, routing.sub, hex id, envelopeType, now⟩

def sealMessage (numbers : Numbers ν) (ciphers : Ciphers) (routing : Agent.SessionRouting) (sessionKey : Bytes)
    (message : Json ν) (envelopeType : JsString) (id nonce : Bytes) (now : ν) : JsString :=
  let full := fullRouting routing envelopeType id now
  stringify numbers.toNumberFormat
    ((encodeEnvelope numbers ciphers full (stringify numbers.toNumberFormat message) sessionKey nonce).json numbers)

/-- `!v` for a member that may be missing. Of the numbers only zero would be falsy, and a number has no
content to decode either. -/
def isFalsy : Option (Json ν) → Bool
  | none => true
  | some .null => true
  | some (.bool b) => !b
  | some (.str s) => s = []
  | _ => false

/-- `null` also where the payload is dropped. -/
def openMessage (numbers : Numbers ν) (ciphers : Ciphers) (payloadJson : JsString) (sessionKey : Bytes) : Json ν :=
  match parse numbers.toNumberFormat payloadJson with
  | none => .null
  | some env =>
    match env.member "v" with
    | some (.num n) =>
      if n = numbers.ENVELOPE_VERSION ∧ isFalsy (env.member "content") = false then
        match env.member "content" with
        | none => .null
        | some content =>
          match decodeEnvelope numbers ciphers env content sessionKey with
          | none => .null
          | some text => (parse numbers.toNumberFormat text).getD .null
      else .null
    | _ => .null

end Browser

end Webchannel.Envelope
