import Webchannel.Lib.JsString
import Webchannel.Lib.OrderedMap

/-!
# Proof-of-possession challenges

`PopChallengeStore` of `pop-challenge.ts`, with `popSignedMessage`. The clock and the random
nonces come from outside: an operation takes the readings of the clock that it makes.
-/

namespace Webchannel.Register

inductive PopOp where
  | register
  | unregister
  deriving DecidableEq, Repr

def PopOp.text : PopOp → JsString
  | .register => js "register"
  | .unregister => js "unregister"

def popSignedMessage (op : PopOp) (peerId nonce : JsString) : JsString :=
  js "webchannel-pop:" ++ op.text ++ js ":" ++ peerId ++ js ":" ++ nonce

structure PopPublicJwk where
  kty : JsString
  crv : JsString
  x : JsString
  deriving DecidableEq, Repr

inductive PopReason where
  | verified
  | nonceMissing
  | nonceExpired
  | notEd25519
  | badJwk
  | signatureMismatch
  deriving DecidableEq, Repr

structure PopVerifyResult where
  ok : Bool
  reason : PopReason
  deriving DecidableEq, Repr

/-- What `node:crypto` and `Buffer` do with keys and signatures. -/
structure SignatureRuntime where
  PublicKey : Type
  createPublicKey : PopPublicJwk → Option PublicKey
  fromBase64Url : JsString → Bytes
  edVerify : Bytes → PublicKey → Bytes → Bool

abbrev Bucket := OrderedMap JsString Int

structure PopChallengeStore where
  ttlMs : Int
  maxNoncesPerPeer : Nat
  byPeer : OrderedMap JsString Bucket

namespace PopChallengeStore

def bucket (store : PopChallengeStore) (peerId : JsString) : Bucket := (store.byPeer.get peerId).getD .empty

/-- The nonces of every peer that have not expired; no bucket stays empty. -/
def sweep (store : PopChallengeStore) (now : Int) : PopChallengeStore :=
  { store with
    byPeer := (store.byPeer.mapValues fun bucket => bucket.filter fun expiresAt => ¬ expiresAt < now).filter
      fun bucket => bucket.size ≠ 0 }

/-- The clock is read for the sweep and again for the new nonce. -/
def issue (store : PopChallengeStore) (peerId nonce : JsString) (sweepAt setAt : Int) : PopChallengeStore :=
  let store := store.sweep sweepAt
  let bucket := (store.bucket peerId).evict store.maxNoncesPerPeer
  { store with byPeer := store.byPeer.set peerId (bucket.set nonce (setAt + store.ttlMs)) }

def deleteNonce (store : PopChallengeStore) (peerId nonce : JsString) : PopChallengeStore :=
  let bucket := (store.bucket peerId).delete nonce
  { store with
    byPeer := if bucket.size = 0 then store.byPeer.delete peerId else store.byPeer.set peerId bucket }

inductive Consumed where
  | ok
  | missing
  | expired
  deriving DecidableEq, Repr

def consume (store : PopChallengeStore) (peerId nonce : JsString) (now : Int) : Consumed × PopChallengeStore :=
  match store.byPeer.get peerId with
  | none => (.missing, store)
  | some bucket =>
    match bucket.get nonce with
    | none => (.missing, store)
    | some expiresAt =>
      if expiresAt < now then (.expired, store.deleteNonce peerId nonce)
      else (.ok, store.deleteNonce peerId nonce)

/-- The key and the signature of a proof whose nonce has been consumed. Decoding a string as
base64url never throws. -/
def verifySignature (runtime : SignatureRuntime) (op : PopOp) (peerId nonce signatureB64Url : JsString)
    (popPublicJwk : PopPublicJwk) : PopVerifyResult :=
  if popPublicJwk.kty ≠ js "OKP" ∨ popPublicJwk.crv ≠ js "Ed25519" then ⟨false, .notEd25519⟩
  else
    match runtime.createPublicKey popPublicJwk with
    | none => ⟨false, .badJwk⟩
    | some pub =>
      let sig := runtime.fromBase64Url signatureB64Url
      let msg := encodeUtf8 (popSignedMessage op peerId nonce)
      if runtime.edVerify msg pub sig then ⟨true, .verified⟩ else ⟨false, .signatureMismatch⟩

def verify (runtime : SignatureRuntime) (store : PopChallengeStore) (op : PopOp)
    (peerId nonce signatureB64Url : JsString) (popPublicJwk : PopPublicJwk) (now : Int) :
    PopVerifyResult × PopChallengeStore :=
  match store.consume peerId nonce now with
  | (.missing, store) => (⟨false, .nonceMissing⟩, store)
  | (.expired, store) => (⟨false, .nonceExpired⟩, store)
  | (.ok, store) => (verifySignature runtime op peerId nonce signatureB64Url popPublicJwk, store)

end PopChallengeStore

end Webchannel.Register
