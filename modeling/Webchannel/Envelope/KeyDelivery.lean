import Webchannel.Envelope.Agreement
import Webchannel.Envelope.KeyWrap

/-!
# A wrapped key reaches one peer and one attempt

The additional data of a wrap names its peer and its nonce without ambiguity, so under ideal
primitives it is opened for that pair only. A field is compared as what it is read as: base64url
text has several spellings, and of a nonce the cipher reads twelve bytes.
-/

namespace Webchannel.KeyWrap

open Base64 Envelope Crypto
open Envelope.Browser (base64urlDecode)

/-! ## The additional data -/

theorem wrapAad_eq (peerId clientNonce : JsString) :
    Agent.wrapAad peerId clientNonce =
      encodeUtf8 Agent.WRAP_AAD_VERSION ++ 0x1f :: (encodeUtf8 peerId ++ 0x1f :: encodeUtf8 clientNonce) := by
  unfold Agent.wrapAad
  dsimp only
  generalize encodeUtf8 Agent.WRAP_AAD_VERSION = version
  generalize encodeUtf8 peerId = peer
  generalize encodeUtf8 clientNonce = nonce
  have hversion := setAt_zeros [] version (1 + (peer.length + (1 + nonce.length)))
  have hfirst := setAt_zeros version [Agent.WRAP_AAD_SEPARATOR] (peer.length + (1 + nonce.length))
  have hpeer := setAt_zeros (version ++ [Agent.WRAP_AAD_SEPARATOR]) peer (1 + nonce.length)
  have hsecond := setAt_zeros (version ++ [Agent.WRAP_AAD_SEPARATOR] ++ peer) [Agent.WRAP_AAD_SEPARATOR]
    nonce.length
  have hnonce := setAt_zeros (version ++ [Agent.WRAP_AAD_SEPARATOR] ++ peer ++ [Agent.WRAP_AAD_SEPARATOR]) nonce 0
  simp only [List.nil_append, List.length_nil, List.length_append, List.length_cons, Nat.zero_add,
    Nat.add_zero] at hversion hfirst hpeer hsecond hnonce
  rw [show version.length + 1 + peer.length + 1 + nonce.length =
      version.length + (1 + (peer.length + (1 + nonce.length))) by omega,
    hversion, hfirst, hpeer, hsecond, hnonce]
  simp [Agent.WRAP_AAD_SEPARATOR]

/-- A string over the alphabet of subject tokens and base64url. -/
def IsToken (s : JsString) : Prop := s.all Register.isTokenUnit = true

instance (s : JsString) : Decidable (IsToken s) := inferInstanceAs (Decidable (_ = _))

theorem IsToken.unit {s : JsString} (h : IsToken s) {u : UInt16} (hu : u ∈ s) : u < 0x80 ∧ u ≠ 0x1f := by
  have htoken := List.all_eq_true.mp h u hu
  unfold Register.isTokenUnit at htoken
  simp only [decide_eq_true_eq, UInt16.le_iff_toNat_le, UInt16.lt_iff_toNat_lt, ne_eq, ← UInt16.toNat_inj] at htoken ⊢
  simp only [UInt16.toNat_ofNat] at htoken ⊢
  omega

theorem ascii_version : ∀ u ∈ Agent.WRAP_AAD_VERSION, u < 0x80 := ascii_of_all (by decide)

/-- The text whose bytes the additional data is. -/
theorem wrapAad_text {p n : JsString} (hp : IsToken p) :
    Agent.wrapAad p n = encodeUtf8 (Agent.WRAP_AAD_VERSION ++ 0x1f :: (p ++ 0x1f :: n)) := by
  have hversion := ascii_version
  have hpeer := encodeUtf8_append (fun u hu => (hp.unit hu).1) []
  rw [wrapAad_eq, encodeUtf8_append hversion, encodeUtf8_cons (by decide),
    encodeUtf8_append (fun u hu => (hp.unit hu).1), encodeUtf8_cons (by decide)]
  have hversion' := encodeUtf8_append hversion []
  rw [List.append_nil] at hpeer hversion'
  rw [hpeer, hversion']
  simp [encodeUtf8, utf16Chars]

theorem wrapAad_injective {p n p' n' : JsString} (hp : IsToken p) (hn : IsToken n) (hp' : IsToken p')
    (hn' : IsToken n') (h : Agent.wrapAad p n = Agent.wrapAad p' n') : p = p' ∧ n = n' := by
  have hwell {p n : JsString} (hp : IsToken p) (hn : IsToken n) :
      WellFormed (Agent.WRAP_AAD_VERSION ++ 0x1f :: (p ++ 0x1f :: n)) := by
    refine WellFormed.ascii fun u hu => ?_
    rcases List.mem_append.mp hu with hu | hu
    · exact ascii_version u hu
    · rcases List.mem_cons.mp hu with rfl | hu
      · decide
      rcases List.mem_append.mp hu with hu | hu
      · exact (hp.unit hu).1
      rcases List.mem_cons.mp hu with rfl | hu
      · decide
      · exact (hn.unit hu).1
  rw [wrapAad_text hp, wrapAad_text hp'] at h
  have htext := List.append_cancel_left ((hwell hp hn).encodeUtf8_inj (hwell hp' hn') h)
  have hsplit := (List.append_cons_inj_of_notMem (fun hmem => (hp.unit hmem).2 rfl)
    (fun hmem => (hn.unit hmem).2 rfl)).mp (List.cons.inj htext).2
  exact ⟨hsplit.1, hsplit.2.2⟩

/-! ## Ideal primitives -/

/-- One use of the AEAD. -/
structure Encryption where
  key : Vector UInt8 32
  nonce : Vector UInt8 12
  plaintext : Bytes
  additionalData : Bytes
  deriving DecidableEq

def Encryption.box (platform : Platform) (e : Encryption) : Bytes × Bytes :=
  platform.encrypt e.key e.nonce e.plaintext e.additionalData

/-- The two sides of X25519 agree, the importer reads what the encoder writes and never reads other bytes
than the decoder does, and a private key makes different wrapping keys with different public keys. What
has been encrypted is opened with its own key, nonce and additional data, and nothing else is opened. -/
structure Ideal (platform : Platform) (encrypted : Set Encryption) : Prop where
  length_publicKey : ∀ a, (platform.derivePublicKey a).length = 32
  symmetric : ∀ a b, platform.deriveSharedSecret a (platform.derivePublicKey b) =
    platform.deriveBits b (platform.derivePublicKey a)
  importKey : ∀ bs, bs.length = 32 → platform.importKey (base64url bs) = some bs
  importKey_decode : ∀ s bs bs', platform.importKey s = some bs → base64urlDecode s = some bs' → bs = bs'
  keys : ∀ a pub pub' secret secret', platform.deriveBits a pub = some secret →
    platform.deriveBits a pub' = some secret' →
    Browser.hkdfSha256 platform secret none Browser.KEY_WRAP_INFO =
      Browser.hkdfSha256 platform secret' none Browser.KEY_WRAP_INFO → pub = pub'
  opens : ∀ e ∈ encrypted,
    platform.decrypt e.key e.nonce (e.box platform).1 (e.box platform).2 e.additionalData = some e.plaintext
  only : ∀ key nonce ciphertext tag aad plaintext,
    platform.decrypt key nonce ciphertext tag aad = some plaintext →
    ∃ e ∈ encrypted, e = ⟨key, nonce, plaintext, aad⟩ ∧ e.box platform = (ciphertext, tag)
  distinct : ∀ e ∈ encrypted, ∀ e' ∈ encrypted, e.box platform = e'.box platform → e = e'

/-- The encryption under a wrap for a peer and a nonce. -/
def encryptionOf (platform : Platform) (agent : KeyPair) (devicePublicKey conversationKey : Bytes)
    (peerId clientNonce : JsString) (nonce : Vector UInt8 12) : Option Encryption :=
  (platform.deriveSharedSecret agent.privateKey devicePublicKey).map fun secret =>
    ⟨Agent.hkdfSha256 platform secret none Agent.KEY_WRAP_INFO, nonce, conversationKey,
      Agent.wrapAad peerId clientNonce⟩

/-- The wire form of an encryption. -/
def fieldsOf (platform : Platform) (publicKey : Bytes) (e : Encryption) : WrappedConversationKey :=
  ⟨base64url publicKey, base64url e.nonce.toList, base64url (e.box platform).1, base64url (e.box platform).2⟩

theorem wrapConversationKey_eq (platform : Platform) (agent generated : KeyPair)
    (devicePublicKey conversationKey : Bytes) (peerId clientNonce : JsString) (nonce : Vector UInt8 12) :
    Agent.wrapConversationKey platform conversationKey devicePublicKey (some agent) (some peerId)
        (some clientNonce) generated nonce =
      (encryptionOf platform agent devicePublicKey conversationKey peerId clientNonce nonce).map
        (fieldsOf platform agent.publicKey) := by
  unfold Agent.wrapConversationKey encryptionOf
  dsimp only [Option.getD_some]
  cases platform.deriveSharedSecret agent.privateKey devicePublicKey with
  | none => rfl
  | some secret => rfl

/-! ## What the browser opens -/

theorem toList_vectorOf {n : Nat} {bs : Bytes} (h : n ≤ bs.length) : (vectorOf n bs).toList = bs.take n := by
  apply List.ext_getElem
  · rw [Vector.length_toList, List.length_take, Nat.min_eq_left h]
  · intro i hi hi'
    rw [Vector.length_toList] at hi
    simp [vectorOf, List.getD, List.getElem?_eq_getElem (Nat.lt_of_lt_of_le hi h)]

theorem vectorOf_eq {bs : Bytes} {nonce : Vector UInt8 12} (h : bs.take 12 = nonce.toList) :
    12 ≤ bs.length ∧ vectorOf 12 bs = nonce := by
  have hlength : 12 ≤ bs.length := by
    have := congrArg List.length h
    rw [List.length_take, Vector.length_toList] at this
    omega
  refine ⟨hlength, Vector.toList_inj.mp ?_⟩
  rw [toList_vectorOf hlength, h]

/-- A wrap is opened exactly when the browser reads one encryption from it, made for its peer and nonce
and under the key of its pin. -/
theorem unwrapConversationKey_iff {platform : Platform} {encrypted : Set Encryption}
    (ideal : Ideal platform encrypted) (wrapped : WrappedConversationKey) (device : Bytes)
    (pinned peerId clientNonce : JsString) (key : Bytes) :
    Browser.unwrapConversationKey platform wrapped device pinned peerId clientNonce = some key ↔
      ∃ pub secret nonce, ∃ e ∈ encrypted,
        base64urlDecode wrapped.ephemeralPublicKey = some pub ∧ base64urlDecode pinned = some pub ∧
        platform.importKey pinned = some pub ∧ platform.deriveBits device pub = some secret ∧
        e.key = Browser.hkdfSha256 platform secret none Browser.KEY_WRAP_INFO ∧
        base64urlDecode wrapped.nonce = some nonce ∧ nonce.take 12 = e.nonce.toList ∧
        base64urlDecode wrapped.ciphertext = some (e.box platform).1 ∧
        base64urlDecode wrapped.tag = some (e.box platform).2 ∧
        e.plaintext = key ∧ e.additionalData = Agent.wrapAad peerId clientNonce := by
  unfold Browser.unwrapConversationKey Browser.deriveX25519SharedSecret Browser.chacha20poly1305Decrypt
  constructor
  · intro h
    obtain ⟨wire, hwire, h⟩ := Option.bind_eq_some_iff.mp h
    obtain ⟨pin, hpin, h⟩ := Option.bind_eq_some_iff.mp h
    split at h
    · rename_i hequal
      obtain ⟨secret, hsecret, h⟩ := Option.bind_eq_some_iff.mp h
      obtain ⟨pub, himport, hsecret⟩ := Option.bind_eq_some_iff.mp hsecret
      obtain ⟨nonce, hnonce, h⟩ := Option.bind_eq_some_iff.mp h
      obtain ⟨ciphertext, hciphertext, h⟩ := Option.bind_eq_some_iff.mp h
      obtain ⟨tag, htag, h⟩ := Option.bind_eq_some_iff.mp h
      split at h
      · cases h
      rename_i hlength
      obtain ⟨e, he, rfl, hbox⟩ := ideal.only _ _ _ _ _ _ h
      have hpub : pub = pin := ideal.importKey_decode pinned pub pin himport hpin
      refine ⟨pin, secret, nonce, _, he, hequal ▸ hwire, hpin, hpub ▸ himport, hpub ▸ hsecret, rfl, hnonce, ?_,
        ?_, ?_, rfl, rfl⟩
      · exact (toList_vectorOf (Nat.le_of_not_lt hlength)).symm
      · rw [hciphertext, hbox]
      · rw [htag, hbox]
    · cases h
  · rintro ⟨pub, secret, nonce, e, he, hwire, hpin, himport, hsecret, hkey, hnonce, htake, hciphertext, htag,
      rfl, haad⟩
    obtain ⟨hlength, hvector⟩ := vectorOf_eq htake
    have hopens := ideal.opens e he
    rw [hkey, haad] at hopens
    simp only [hwire, hpin, himport, hsecret, hnonce, hciphertext, htag, Option.bind_eq_bind, Option.bind_some,
      if_true, if_neg (Nat.not_lt.mpr hlength), hvector]
    exact hopens

/-! ## One peer and one attempt -/

/-- Two wraps and their pins that the browser cannot tell apart: each field is read as the same bytes, of
the nonce the first twelve. -/
structure SameReading (wrapped : WrappedConversationKey) (pinned : JsString) (wrapped' : WrappedConversationKey)
    (pinned' : JsString) : Prop where
  pinned : base64urlDecode pinned' = base64urlDecode pinned
  ephemeralPublicKey : base64urlDecode wrapped'.ephemeralPublicKey = base64urlDecode wrapped.ephemeralPublicKey
  nonce : (base64urlDecode wrapped'.nonce).map (·.take 12) = (base64urlDecode wrapped.nonce).map (·.take 12)
  ciphertext : base64urlDecode wrapped'.ciphertext = base64urlDecode wrapped.ciphertext
  tag : base64urlDecode wrapped'.tag = base64urlDecode wrapped.tag

section
variable {platform : Platform} {encrypted : Set Encryption} (ideal : Ideal platform encrypted) {agent : KeyPair}
  (hagent : agent.publicKey = platform.derivePublicKey agent.privateKey) {device conversationKey : Bytes}
  {p n : JsString} {nonce : Vector UInt8 12} {e : Encryption} (hmem : e ∈ encrypted)
  (he : encryptionOf platform agent (platform.derivePublicKey device) conversationKey p n nonce = some e)
include ideal hagent he

/-- The browser derives the key of the wrap from the agent's public key. -/
theorem secret_of_encryption : ∃ secret, platform.deriveBits device agent.publicKey = some secret ∧
    e = ⟨Browser.hkdfSha256 platform secret none Browser.KEY_WRAP_INFO, nonce, conversationKey,
      Agent.wrapAad p n⟩ := by
  obtain ⟨secret, hsecret, rfl⟩ := Option.map_eq_some_iff.mp he
  refine ⟨secret, ?_, rfl⟩
  rw [hagent, ← ideal.symmetric]
  exact hsecret

include hmem

/-- What is read as the wrap is opened by its peer in its attempt. -/
theorem unwrap_of_sameReading {wrapped' : WrappedConversationKey} {pinned' : JsString}
    (hsame : SameReading (fieldsOf platform agent.publicKey e) (base64url agent.publicKey) wrapped' pinned')
    (himport : platform.importKey pinned' = some agent.publicKey) :
    Browser.unwrapConversationKey platform wrapped' device pinned' p n = some conversationKey := by
  obtain ⟨secret, hsecret, hfields⟩ := secret_of_encryption ideal hagent he
  obtain ⟨hpin, hwire, hnonce, hciphertext, htag⟩ := hsame
  unfold fieldsOf at hwire hnonce hciphertext htag
  simp only [base64urlDecode_base64url, Option.map_some] at hpin hwire hnonce hciphertext htag
  obtain ⟨bs, hbs, htake⟩ := Option.map_eq_some_iff.mp hnonce
  rw [List.take_of_length_le (Nat.le_of_eq Vector.length_toList)] at htake
  exact (unwrapConversationKey_iff ideal _ _ _ _ _ _).mpr ⟨agent.publicKey, secret, bs, e, hmem, hwire, hpin,
    himport, hsecret, by rw [hfields], hbs, htake, hciphertext, htag, by rw [hfields], by rw [hfields]⟩

/-- What is opened as the wrap's encryption is read as the wrap. -/
theorem sameReading_of_unwrap {wrapped' : WrappedConversationKey} {pinned' p' n' : JsString} {key : Bytes}
    (hfresh : ∀ e' ∈ encrypted, e'.additionalData = Agent.wrapAad p' n' → e' = e)
    (h : Browser.unwrapConversationKey platform wrapped' device pinned' p' n' = some key) :
    Agent.wrapAad p' n' = Agent.wrapAad p n ∧ key = conversationKey ∧
      SameReading (fieldsOf platform agent.publicKey e) (base64url agent.publicKey) wrapped' pinned' ∧
      platform.importKey pinned' = some agent.publicKey := by
  obtain ⟨secret, hsecret, hfields⟩ := secret_of_encryption ideal hagent he
  obtain ⟨pub, secret', bs, e', he', hwire, hpin, himport, hsecret', hkey, hnonce, htake, hciphertext, htag,
    hplain, haad⟩ := (unwrapConversationKey_iff ideal _ _ _ _ _ _).mp h
  obtain rfl := hfresh e' he' haad
  -- Both secrets give the key of this encryption.
  have hpub : agent.publicKey = pub := by
    refine ideal.keys device _ _ _ _ hsecret hsecret' ?_
    rw [← hkey, hfields]
  subst hpub
  refine ⟨by rw [← haad, hfields], by rw [← hplain, hfields], ⟨?_, ?_, ?_, ?_, ?_⟩, himport⟩
  · rw [hpin, base64urlDecode_base64url]
  · rw [hwire, fieldsOf, base64urlDecode_base64url]
  · rw [hnonce, fieldsOf, base64urlDecode_base64url, Option.map_some, Option.map_some, htake,
      List.take_of_length_le (Nat.le_of_eq Vector.length_toList)]
  · rw [hciphertext, fieldsOf, base64urlDecode_base64url]
  · rw [htag, fieldsOf, base64urlDecode_base64url]

end

def bigEndian (x : Nat) : Bytes := (Rfc8439.leBytes 32 x).reverse

def agentPair : KeyPair where
  publicKey := bigEndian 0xf8a9535a2d2ff605e8e144d54f4ef5c62313a2055dbb21fddd3fd9c299eb015d
  privateKey := bigEndian 0x77076d0a7318a57d3c16c17251b26645df4c2f92ebc0992ac177fba51db92c2a

def devicePair : KeyPair where
  publicKey := bigEndian 0xde9edb7d7b7dc1b4d35b61c2ece435373f8343c85b78674dadfc7e146f882b4f
  privateKey := bigEndian 0x5dab087e624a8a4b79e17f8b83800ee66f3bb1292618b6fd1c2f8b27ff88e0eb

/-- What both private keys derive from the other public key. -/
def sharedSecret : Bytes := bigEndian 0xec555394277877e3ef665c2af39d396d8572f112cc8ce2af0972cb6a3989406d

def expandedSecret : Vector UInt8 32 :=
  vectorOf 32 (bigEndian 0x377e76431ba09d3ac49161cc00070e368433c184a6fe815e9e46c80effa852a4)

def exchange (a pub : Bytes) : Option Bytes :=
  if (a = agentPair.privateKey ∧ pub = devicePair.publicKey) ∨ (a = devicePair.privateKey ∧ pub = agentPair.publicKey)
  then some sharedSecret
  else none

/-- The public key of every other private key; no exchange with it succeeds. -/
def lowOrder : Bytes := List.replicate 32 0

/-- The two key pairs know only each other, and one encryption has been made. -/
def onceOnly (e : Encryption) : Platform where
  derivePublicKey a :=
    if a = agentPair.privateKey then agentPair.publicKey
    else if a = devicePair.privateKey then devicePair.publicKey
    else lowOrder
  deriveSharedSecret := exchange
  importKey s := (base64urlDecode s).filter fun bs => bs.length = 32
  deriveBits := exchange
  hkdf _ _ _ := e.key
  encrypt key nonce plaintext aad := Rfc8439.aeadEncrypt key nonce plaintext aad
  decrypt key nonce ciphertext tag aad :=
    if (⟨key, nonce, e.plaintext, aad⟩ : Encryption) = e ∧
        Rfc8439.aeadEncrypt key nonce e.plaintext aad = (ciphertext, tag) then some e.plaintext
    else none

theorem pairs_differ : agentPair.privateKey ≠ devicePair.privateKey ∧ agentPair.publicKey ≠ devicePair.publicKey ∧
    agentPair.publicKey ≠ lowOrder ∧ devicePair.publicKey ≠ lowOrder := by
  decide +kernel

theorem exchange_public {a x r : Bytes} (h : exchange a x = some r) :
    x = if a = agentPair.privateKey then devicePair.publicKey else agentPair.publicKey := by
  unfold exchange at h
  split at h
  · rename_i hx
    rcases hx with ⟨ha, hx⟩ | ⟨ha, hx⟩
    · rw [if_pos ha, hx]
    · rw [if_neg (ha ▸ pairs_differ.1.symm), hx]
  · cases h

theorem onceOnly_ideal (e : Encryption) : Ideal (onceOnly e) {e} where
  length_publicKey a := by
    unfold onceOnly
    dsimp only
    split
    · rfl
    · split <;> rfl
  symmetric a b := by
    obtain ⟨hprivate, hpublic, hagent, hdevice⟩ := pairs_differ
    unfold onceOnly exchange
    dsimp only
    by_cases ha : a = agentPair.privateKey
    · subst ha
      by_cases hb : b = agentPair.privateKey
      · rw [hb]
      · by_cases hb' : b = devicePair.privateKey
        · subst hb'
          simp [hprivate.symm]
        · simp [hb, hb', hprivate, hdevice.symm]
    · by_cases ha' : a = devicePair.privateKey
      · subst ha'
        by_cases hb : b = agentPair.privateKey
        · subst hb
          simp [hprivate.symm]
        · by_cases hb' : b = devicePair.privateKey
          · rw [hb']
          · simp [hb, hb', hprivate.symm, hagent.symm]
      · simp [ha, ha', hagent.symm, hdevice.symm]
  importKey bs hbs := by
    unfold onceOnly
    dsimp only
    rw [base64urlDecode_base64url]
    simp [hbs]
  importKey_decode s bs bs' h h' := by
    unfold onceOnly at h
    dsimp only at h
    rw [h'] at h
    exact (Option.some.inj (Option.filter_eq_some_iff.mp h).1).symm
  keys a pub pub' secret secret' h h' _ := by
    rw [exchange_public h, exchange_public h']
  opens e' he := by
    rw [Set.mem_singleton_iff.mp he]
    exact if_pos ⟨rfl, rfl⟩
  only key nonce ciphertext tag aad plaintext h := by
    unfold onceOnly at h
    dsimp only at h
    split at h
    · rename_i hopen
      cases h
      refine ⟨e, rfl, hopen.1.symm, ?_⟩
      unfold Encryption.box onceOnly
      dsimp only
      rw [← hopen.2, ← hopen.1]
    · cases h
  distinct e he e' he' _ := by
    rw [Set.mem_singleton_iff.mp he, Set.mem_singleton_iff.mp he']

theorem agentPair_public (e : Encryption) :
    agentPair.publicKey = (onceOnly e).derivePublicKey agentPair.privateKey := by
  unfold onceOnly
  dsimp only
  rw [if_pos rfl]

theorem encryptionOf_onceOnly (e : Encryption) {p n : JsString} (h : e.additionalData = Agent.wrapAad p n) :
    encryptionOf (onceOnly e) agentPair ((onceOnly e).derivePublicKey devicePair.privateKey) e.plaintext p n e.nonce =
      some e := by
  have hpublic : (onceOnly e).derivePublicKey devicePair.privateKey = devicePair.publicKey := by
    unfold onceOnly
    dsimp only
    rw [if_neg pairs_differ.1.symm, if_pos rfl]
  have hsecret : (onceOnly e).deriveSharedSecret agentPair.privateKey devicePair.publicKey = some sharedSecret := by
    unfold onceOnly exchange
    dsimp only
    rw [if_pos (.inl ⟨rfl, rfl⟩)]
  unfold encryptionOf
  rw [hpublic, hsecret, Option.map_some, ← h]
  rfl

def firstNonce : JsString := js "AAAAAAAAAAAAAAAAAAAAAA"

def secondNonce : JsString := js "AAAAAAAAAAAAAAAAAAAAAQ"

/-- The conversation key in Alice's first attempt. -/
def aliceEncryption : Encryption :=
  ⟨expandedSecret, vectorOf 12 nonce12, key32, Agent.wrapAad (js "alice") firstNonce⟩

end Webchannel.KeyWrap
