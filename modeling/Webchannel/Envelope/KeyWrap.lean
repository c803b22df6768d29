import Webchannel.Crypto.CipherAgreement
import Webchannel.Envelope.Codec
import Webchannel.Register.Handler

/-!
# The wrapped conversation key

What the agent sends in a register reply (`wrap-aad.ts`, `late-join-decryptor.ts`) and what the
browser makes of it (`e2e-crypto-browser.ts`). X25519, HKDF and the AEAD come from outside;
`none` stands for a thrown error.
-/

namespace Webchannel.KeyWrap

open Base64 Envelope Crypto

structure KeyPair where
  publicKey : Bytes
  privateKey : Bytes
  deriving DecidableEq

/-- What both platforms have. The browser holds its private key as a `CryptoKey` and imports a public
one from the `x` member of a JWK. -/
structure Platform where
  derivePublicKey : Bytes → Bytes
  deriveSharedSecret : Bytes → Bytes → Option Bytes
  importKey : JsString → Option Bytes
  deriveBits : Bytes → Bytes → Option Bytes
  hkdf : Bytes → Bytes → Bytes → Vector UInt8 32
  encrypt : Vector UInt8 32 → Vector UInt8 12 → Bytes → Bytes → Bytes × Bytes
  decrypt : Vector UInt8 32 → Vector UInt8 12 → Bytes → Bytes → Bytes → Option Bytes

structure WrappedConversationKey where
  ephemeralPublicKey : JsString
  nonce : JsString
  ciphertext : JsString
  tag : JsString
  deriving DecidableEq

/-! ## The agent -/

namespace Agent

def KEY_WRAP_INFO : JsString := js "webchannel-key-wrap-v1"

def WRAP_AAD_VERSION : JsString := js "webchannel-wrap-v2"

def WRAP_AAD_SEPARATOR : UInt8 := 0x1f

def wrapAad (peerId clientNonce : JsString) : Bytes :=
  let version := encodeUtf8 WRAP_AAD_VERSION
  let peer := encodeUtf8 peerId
  let nonce := encodeUtf8 clientNonce
  let out := List.replicate (version.length + 1 + peer.length + 1 + nonce.length) 0
  let out := setAt out 0 version
  let out := setAt out version.length [WRAP_AAD_SEPARATOR]
  let out := setAt out (version.length + 1) peer
  let out := setAt out (version.length + 1 + peer.length) [WRAP_AAD_SEPARATOR]
  setAt out (version.length + 1 + peer.length + 1) nonce

/-- A half-supplied binding throws; `some none` is the one without additional data. -/
def bindingAad (peerId clientNonce : Option JsString) : Option (Option Bytes) :=
  match peerId, clientNonce with
  | none, none => some none
  | some peerId, some clientNonce => some (some (wrapAad peerId clientNonce))
  | _, _ => none

/-- A missing salt is 32 zero bytes. -/
def hkdfSha256 (platform : Platform) (ikm : Bytes) (salt : Option Bytes) (info : JsString) : Vector UInt8 32 :=
  platform.hkdf ikm (salt.getD (List.replicate 32 0)) (encodeUtf8 info)

/-- `generated` is what `generateKeyPair` and `nonce` what the cipher draws. Additional data that is not
set is no bytes. -/
def wrapConversationKey (platform : Platform) (conversationKey devicePublicKey : Bytes)
    (agentIdentityKeyPair : Option KeyPair) (peerId clientNonce : Option JsString) (generated : KeyPair)
    (nonce : Vector UInt8 12) : Option WrappedConversationKey := do
  let wrapKp := agentIdentityKeyPair.getD generated
  let rawSecret ← platform.deriveSharedSecret wrapKp.privateKey devicePublicKey
  let wrapKey := hkdfSha256 platform rawSecret none KEY_WRAP_INFO
  let aad ← bindingAad peerId clientNonce
  let encrypted := platform.encrypt wrapKey nonce conversationKey (aad.getD [])
  return ⟨base64url wrapKp.publicKey, base64url nonce.toList, base64url encrypted.1, base64url encrypted.2⟩

end Agent

/-! ## The browser -/

namespace Browser

def KEY_WRAP_INFO : JsString := js "webchannel-key-wrap-v1"

def WRAP_AAD_VERSION : JsString := js "webchannel-wrap-v2"

def WRAP_AAD_SEPARATOR : UInt8 := 0x1f

def wrapAad (peerId clientNonce : JsString) : Bytes :=
  let version := encodeUtf8 WRAP_AAD_VERSION
  let peer := encodeUtf8 peerId
  let nonce := encodeUtf8 clientNonce
  let out := List.replicate (version.length + 1 + peer.length + 1 + nonce.length) 0
  let out := setAt out 0 version
  let out := setAt out version.length [WRAP_AAD_SEPARATOR]
  let out := setAt out (version.length + 1) peer
  let out := setAt out (version.length + 1 + peer.length) [WRAP_AAD_SEPARATOR]
  setAt out (version.length + 1 + peer.length + 1) nonce

def deriveX25519SharedSecret (platform : Platform) (myPrivateKey : Bytes) (theirPubKeyB64url : JsString) :
    Option Bytes := do
  let theirPubKey ← platform.importKey theirPubKeyB64url
  platform.deriveBits myPrivateKey theirPubKey

def hkdfSha256 (platform : Platform) (ikm : Bytes) (salt : Option Bytes) (info : JsString) : Vector UInt8 32 :=
  platform.hkdf ikm (salt.getD (List.replicate 32 0)) (encodeUtf8 info)

/-- The cipher reads twelve bytes of its nonce: fewer throw, and more are not looked at. -/
def chacha20poly1305Decrypt (platform : Platform) (key : Vector UInt8 32) (nonce ciphertext tag aad : Bytes) :
    Option Bytes :=
  if nonce.length < 12 then none else platform.decrypt key (vectorOf 12 nonce) ciphertext tag aad

def unwrapConversationKey (platform : Platform) (wrapped : WrappedConversationKey) (devicePrivateKey : Bytes)
    (agentPublicKeyB64url peerId clientNonce : JsString) : Option Bytes := do
  let wireAgentKey ← Envelope.Browser.base64urlDecode wrapped.ephemeralPublicKey
  let pinnedAgentKey ← Envelope.Browser.base64urlDecode agentPublicKeyB64url
  if wireAgentKey = pinnedAgentKey then
    let rawSecret ← deriveX25519SharedSecret platform devicePrivateKey agentPublicKeyB64url
    let wrapKey := hkdfSha256 platform rawSecret none KEY_WRAP_INFO
    let nonce ← Envelope.Browser.base64urlDecode wrapped.nonce
    let ciphertext ← Envelope.Browser.base64urlDecode wrapped.ciphertext
    let tag ← Envelope.Browser.base64urlDecode wrapped.tag
    chacha20poly1305Decrypt platform wrapKey nonce ciphertext tag (wrapAad peerId clientNonce)
  else none

end Browser

end Webchannel.KeyWrap
