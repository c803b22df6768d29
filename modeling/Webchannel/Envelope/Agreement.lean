import Mathlib.Data.List.TakeWhile
import Webchannel.Crypto.CipherAgreement
import Webchannel.Envelope.Codec

/-!
# The two codecs agree

Whatever either side seals is opened by both, and the additional data is the same bytes and
injective. The agent's decoder refuses one envelope that its encoder makes: the one with an empty
ciphertext.
-/

namespace Webchannel.Envelope

open JsonText Base64

variable {ν : Type} [DecidableEq ν] {numbers : Numbers ν} {ciphers : Ciphers}
  {fromBase64Url : JsString → Bytes}

/-- Each side opens what either side encrypts under a 32-byte key and a 12-byte nonce. The ciphertext is
as long as the plaintext, and the tag is not empty. -/
structure CorrectPair (ciphers : Ciphers) : Prop where
  agent : ∀ key nonce plaintext aad, key.length = 32 → nonce.length = 12 →
    ciphers.decrypt key nonce (ciphers.encrypt key nonce plaintext aad).1
      (ciphers.encrypt key nonce plaintext aad).2 aad = some plaintext
  agentToBrowser : ∀ key nonce plaintext aad, key.length = 32 → nonce.length = 12 →
    ciphers.chacha20poly1305Decrypt key nonce (ciphers.encrypt key nonce plaintext (some aad)).1
      (ciphers.encrypt key nonce plaintext (some aad)).2 aad = some plaintext
  browserToAgent : ∀ key nonce plaintext aad, key.length = 32 → nonce.length = 12 →
    ciphers.decrypt key nonce (ciphers.chacha20poly1305Encrypt key nonce plaintext aad).1
      (ciphers.chacha20poly1305Encrypt key nonce plaintext aad).2 (some aad) = some plaintext
  browser : ∀ key nonce plaintext aad, key.length = 32 → nonce.length = 12 →
    ciphers.chacha20poly1305Decrypt key nonce (ciphers.chacha20poly1305Encrypt key nonce plaintext aad).1
      (ciphers.chacha20poly1305Encrypt key nonce plaintext aad).2 aad = some plaintext
  agentLength : ∀ key nonce plaintext aad, key.length = 32 → nonce.length = 12 →
    (ciphers.encrypt key nonce plaintext aad).1.length = plaintext.length ∧
      (ciphers.encrypt key nonce plaintext aad).2.length = 16
  browserLength : ∀ key nonce plaintext aad, key.length = 32 → nonce.length = 12 →
    (ciphers.chacha20poly1305Encrypt key nonce plaintext aad).1.length = plaintext.length ∧
      (ciphers.chacha20poly1305Encrypt key nonce plaintext aad).2.length = 16

/-! ## Base64url -/

theorem toUrl_digit_ne : ∀ n < 64, toUrl (digit n) ≠ 61 := by decide

theorem base64urlEncode_eq (bs : Bytes) : Browser.base64urlEncode bs = base64url bs := by
  unfold Browser.base64urlEncode btoa base64url
  rw [List.map_append, List.filter_append, List.map_map, List.map_replicate,
    List.filter_eq_self.mpr, List.filter_eq_nil_iff.mpr, List.append_nil]
  · rfl
  · intro u hu
    rw [(List.mem_replicate.mp hu).2]
    decide
  · intro u hu
    obtain ⟨n, hn, rfl⟩ := List.mem_map.mp hu
    exact decide_eq_true (toUrl_digit_ne n (sextets_lt n hn))

theorem base64urlDecode_base64url (bs : Bytes) : Browser.base64urlDecode (base64url bs) = some bs := by
  have hdigits : (base64url bs).map ofUrl = (sextets bs).map digit := by
    unfold base64url
    rw [List.map_map]
    exact List.map_congr_left fun n hn => ofUrl_toUrl_digit n (sextets_lt n hn)
  unfold Browser.base64urlDecode
  dsimp only
  rw [hdigits, List.length_map, atob_digits sextets_lt (length_sextets_mod bs), octets_sextets]

/-! ## The additional data -/

omit [DecidableEq ν] in
theorem canonicalAad_eq (numbers : Numbers ν) (routing : EnvelopeRouting ν) :
    Browser.canonicalAad numbers routing = Agent.canonicalAad numbers routing := rfl

omit [DecidableEq ν] in
theorem canonicalAad_injective {routing routing' : EnvelopeRouting ν}
    (h : Agent.canonicalAad numbers routing = Agent.canonicalAad numbers routing') : routing = routing' := by
  have htext := (wellFormed_stringify numbers.toNumberFormat (Agent.aadJson routing)).encodeUtf8_inj
    (wellFormed_stringify numbers.toNumberFormat (Agent.aadJson routing')) h
  have hjson := stringify_injective numbers.toNumberFormat htext
  obtain ⟨accountId, tenant, sub, messageId, envelopeType, ts⟩ := routing
  obtain ⟨accountId', tenant', sub', messageId', envelopeType', ts'⟩ := routing'
  simpa [Agent.aadJson, and_comm, and_left_comm, and_assoc] using hjson

/-! ## The wire -/

/-- No routing string is empty. -/
structure EnvelopeRouting.NonEmpty (routing : EnvelopeRouting ν) : Prop where
  accountId : routing.accountId ≠ []
  tenant : routing.tenant ≠ []
  sub : routing.sub ≠ []
  messageId : routing.messageId ≠ []
  envelopeType : routing.envelopeType ≠ []

omit [DecidableEq ν] in
theorem readField_ok {raw : Json ν} {field : String} {error : Agent.EnvelopeError} {s : JsString}
    (h : raw.member field = some (.str s)) (hs : s ≠ []) : Agent.readField raw field error = .ok s := by
  unfold Agent.readField
  rw [h]
  exact if_neg hs

omit [DecidableEq ν] in
theorem readField_empty {raw : Json ν} {field : String} {error : Agent.EnvelopeError}
    (h : raw.member field = some (.str [])) : Agent.readField raw field error = .error error := by
  unfold Agent.readField
  rw [h]
  exact if_pos rfl

omit [DecidableEq ν] in
theorem readContent_ok {l : List (JsString × Json ν)} {content : EncryptedContentBlock}
    (h : (Json.obj l).member "content" = some content.json) (hnonce : content.nonce ≠ [])
    (hciphertext : content.ciphertext ≠ []) (htag : content.tag ≠ []) :
    Agent.readContent (.obj l) = .ok content := by
  unfold Agent.readContent EncryptedContentBlock.json at *
  rw [h]
  dsimp only
  rw [readField_ok rfl hnonce, readField_ok rfl hciphertext, readField_ok rfl htag]
  rfl

omit [DecidableEq ν] in
theorem readContent_empty {l : List (JsString × Json ν)} {content : EncryptedContentBlock}
    (h : (Json.obj l).member "content" = some content.json) (hnonce : content.nonce ≠ [])
    (hciphertext : content.ciphertext = []) :
    Agent.readContent (.obj l) = .error (.contentField "ciphertext") := by
  unfold Agent.readContent EncryptedContentBlock.json at *
  rw [h, hciphertext]
  dsimp only
  rw [readField_ok rfl hnonce, readField_empty rfl]
  rfl

/-- Up to its content an envelope with non-empty routing strings is valid. -/
theorem validateEnvelope_json (numbers : Numbers ν) {env : MessageEnvelope ν} (h : env.routing.NonEmpty) :
    Agent.validateEnvelope numbers (env.json numbers) =
      (Agent.readContent (env.json numbers)).map fun content => ⟨env.routing, content⟩ := by
  unfold Agent.validateEnvelope MessageEnvelope.json
  dsimp only
  have hversion : Agent.checkVersion numbers (env.json numbers) = .ok () := if_pos rfl
  unfold MessageEnvelope.json at hversion
  rw [hversion, readField_ok rfl h.accountId, readField_ok rfl h.tenant, readField_ok rfl h.sub,
    readField_ok rfl h.messageId, readField_ok rfl h.envelopeType]
  change (Agent.readContent _).bind _ = _
  cases Agent.readContent _ with
  | error e => rfl
  | ok content => rfl

theorem deserializeEnvelope_text (numbers : Numbers ν) (env : MessageEnvelope ν) :
    Agent.deserializeEnvelope numbers (encodeUtf8 (stringify numbers.toNumberFormat (env.json numbers))) =
      Agent.validateEnvelope numbers (env.json numbers) := by
  unfold Agent.deserializeEnvelope
  rw [stringOfUtf8_stringify, parse_stringify]

/-- The envelope of some routing, nonce, ciphertext and tag, with its content in base64url. -/
def wire (routing : EnvelopeRouting ν) (nonce ciphertext tag : Bytes) : MessageEnvelope ν :=
  ⟨routing, ⟨base64url nonce, base64url ciphertext, base64url tag⟩⟩

theorem deserializeEnvelope_wire (numbers : Numbers ν) {routing : EnvelopeRouting ν}
    {nonce ciphertext tag : Bytes} (h : routing.NonEmpty) (hnonce : nonce ≠ [])
    (hciphertext : ciphertext ≠ []) (htag : tag ≠ []) :
    Agent.deserializeEnvelope numbers
        (encodeUtf8 (stringify numbers.toNumberFormat ((wire routing nonce ciphertext tag).json numbers))) =
      .ok (wire routing nonce ciphertext tag) := by
  have hcontent : Agent.readContent ((wire routing nonce ciphertext tag).json numbers) =
      .ok (wire routing nonce ciphertext tag).content :=
    readContent_ok rfl (mt base64url_eq_nil.mp hnonce) (mt base64url_eq_nil.mp hciphertext)
      (mt base64url_eq_nil.mp htag)
  rw [deserializeEnvelope_text, validateEnvelope_json numbers h, hcontent]
  rfl

/-- The decoder asks for a ciphertext that is not empty. -/
theorem deserializeEnvelope_wire_empty (numbers : Numbers ν) {routing : EnvelopeRouting ν}
    {nonce tag : Bytes} (h : routing.NonEmpty) (hnonce : nonce ≠ []) :
    Agent.deserializeEnvelope numbers
        (encodeUtf8 (stringify numbers.toNumberFormat ((wire routing nonce [] tag).json numbers))) =
      .error (.contentField "ciphertext") := by
  have hcontent : Agent.readContent ((wire routing nonce [] tag).json numbers) =
      .error (.contentField "ciphertext") :=
    readContent_empty rfl (mt base64url_eq_nil.mp hnonce) rfl
  rw [deserializeEnvelope_text, validateEnvelope_json numbers h, hcontent]
  rfl

section
variable (hbase64 : ∀ bs, fromBase64Url (base64url bs) = bs)
include hbase64

omit [DecidableEq ν] in
theorem decryptEnvelopeContent_wire {routing : EnvelopeRouting ν} {nonce ciphertext tag plaintext key : Bytes}
    {aad : Option Bytes} (hdecrypt : ciphers.decrypt key nonce ciphertext tag aad = some plaintext) :
    Agent.decryptEnvelopeContent ciphers fromBase64Url (wire routing nonce ciphertext tag) key aad =
      .ok plaintext := by
  unfold Agent.decryptEnvelopeContent wire
  dsimp only
  rw [hbase64, hbase64, hbase64, hdecrypt]

/-- What the agent reads from an envelope that decrypts to the text of a message. -/
theorem openEnvelope_wire {routing : EnvelopeRouting ν} {nonce ciphertext tag key : Bytes} {message : Json ν}
    (h : routing.NonEmpty) (hnonce : nonce ≠ []) (hciphertext : ciphertext ≠ []) (htag : tag ≠ [])
    (hdecrypt : ciphers.decrypt key nonce ciphertext tag (some (Agent.canonicalAad numbers routing)) =
      some (encodeUtf8 (stringify numbers.toNumberFormat message))) :
    Agent.openEnvelope numbers ciphers fromBase64Url
        (encodeUtf8 (stringify numbers.toNumberFormat ((wire routing nonce ciphertext tag).json numbers))) key =
      .ok (routing, message) := by
  have hplain : Agent.decryptEnvelopeContent ciphers fromBase64Url (wire routing nonce ciphertext tag) key
      (some (Agent.canonicalAad numbers routing)) =
      .ok (encodeUtf8 (stringify numbers.toNumberFormat message)) :=
    decryptEnvelopeContent_wire hbase64 hdecrypt
  unfold Agent.openEnvelope
  rw [deserializeEnvelope_wire numbers h hnonce hciphertext htag]
  change (Agent.decryptEnvelopeContent _ _ _ _ (some (Agent.canonicalAad numbers routing))).bind _ = _
  rw [hplain]
  dsimp only [Except.bind]
  rw [stringOfUtf8_stringify, parse_stringify]
  rfl

end

/-- What the browser reads from it. -/
theorem openMessage_wire {routing : EnvelopeRouting ν} {nonce ciphertext tag key : Bytes} {message : Json ν}
    (hdecrypt : ciphers.chacha20poly1305Decrypt key nonce ciphertext tag (Agent.canonicalAad numbers routing) =
      some (encodeUtf8 (stringify numbers.toNumberFormat message))) :
    Browser.openMessage numbers ciphers
        (stringify numbers.toNumberFormat ((wire routing nonce ciphertext tag).json numbers)) key = message := by
  have hdecode : Browser.decodeEnvelope numbers ciphers ((wire routing nonce ciphertext tag).json numbers)
      (wire routing nonce ciphertext tag).content.json key = some (stringify numbers.toNumberFormat message) := by
    change (Browser.base64urlDecode (base64url nonce)).bind (fun nonce =>
      (Browser.base64urlDecode (base64url ciphertext)).bind fun ciphertext =>
        (Browser.base64urlDecode (base64url tag)).bind fun tag =>
          (ciphers.chacha20poly1305Decrypt key nonce ciphertext tag (Agent.canonicalAad numbers routing)).bind
            fun plaintext => some (textDecode plaintext)) = _
    rw [base64urlDecode_base64url, base64urlDecode_base64url, base64urlDecode_base64url, Option.bind_some,
      Option.bind_some, Option.bind_some, hdecrypt, Option.bind_some, textDecode_stringify]
  have hversion : ((wire routing nonce ciphertext tag).json numbers).member "v" = some (.num numbers.ENVELOPE_VERSION) := rfl
  have hcontent : ((wire routing nonce ciphertext tag).json numbers).member "content" =
      some (wire routing nonce ciphertext tag).content.json := rfl
  unfold Browser.openMessage
  rw [parse_stringify]
  dsimp only
  rw [hversion]
  dsimp only
  rw [hcontent, if_pos ⟨rfl, rfl⟩]
  dsimp only
  rw [hdecode]
  dsimp only
  rw [parse_stringify]
  rfl

/-! ## What a call seals -/

theorem hex_eq (bs : Bytes) : Browser.hex bs = Agent.hex bs := by
  unfold Browser.hex Agent.hex
  congr 1
  funext b
  split
  · rename_i hb
    rw [Nat.div_eq_of_lt hb, Nat.mod_eq_of_lt hb]
    rfl
  · rfl

omit [DecidableEq ν] in
theorem fullRouting_eq (routing : Agent.SessionRouting) (envelopeType : JsString) (id : Bytes) (now : ν) :
    Browser.fullRouting routing envelopeType id now = Agent.fullRouting routing envelopeType id now := by
  unfold Browser.fullRouting Agent.fullRouting
  rw [hex_eq]

theorem hex_ne_nil {bs : Bytes} (h : bs ≠ []) : Agent.hex bs ≠ [] := by
  cases bs with
  | nil => exact absurd rfl h
  | cons b bs => exact List.cons_ne_nil _ _

theorem ne_nil_of_length {bs : Bytes} {n : Nat} (h : bs.length = n + 1) : bs ≠ [] :=
  List.ne_nil_of_length_eq_add_one h

omit [DecidableEq ν] in
theorem fullRouting_nonEmpty {routing : Agent.SessionRouting} {envelopeType : JsString} {id : Bytes} (now : ν)
    (haccount : routing.accountId ≠ []) (htenant : routing.tenant ≠ []) (hsub : routing.sub ≠ [])
    (htype : envelopeType ≠ []) (hid : id.length = 8) :
    (Agent.fullRouting routing envelopeType id now).NonEmpty :=
  ⟨haccount, htenant, hsub, hex_ne_nil (ne_nil_of_length hid), htype⟩

omit [DecidableEq ν] in
theorem encodeUtf8_stringify_ne_nil (numbers : Numbers ν) (message : Json ν) :
    encodeUtf8 (stringify numbers.toNumberFormat message) ≠ [] := by
  intro h
  have hempty := (wellFormed_stringify numbers.toNumberFormat message).encodeUtf8_inj .nil h
  obtain ⟨c, rest, hbegin, -⟩ := begins_stringify numbers.toNumberFormat message
  rw [hbegin] at hempty
  exact List.cons_ne_nil _ _ hempty

omit [DecidableEq ν] in
theorem sealEnvelope_eq (numbers : Numbers ν) (ciphers : Ciphers) (routing : Agent.SessionRouting) (key : Bytes)
    (message : Json ν) (envelopeType : JsString) (id nonce : Bytes) (now : ν) :
    Agent.sealEnvelope numbers ciphers routing key message envelopeType id nonce now =
      let full := Agent.fullRouting routing envelopeType id now
      let sealed := ciphers.encrypt key nonce (encodeUtf8 (stringify numbers.toNumberFormat message))
        (some (Agent.canonicalAad numbers full))
      encodeUtf8 (stringify numbers.toNumberFormat ((wire full nonce sealed.1 sealed.2).json numbers)) := rfl

omit [DecidableEq ν] in
theorem sealMessage_eq (numbers : Numbers ν) (ciphers : Ciphers) (routing : Agent.SessionRouting) (key : Bytes)
    (message : Json ν) (envelopeType : JsString) (id nonce : Bytes) (now : ν) :
    Browser.sealMessage numbers ciphers routing key message envelopeType id nonce now =
      let full := Agent.fullRouting routing envelopeType id now
      let sealed := ciphers.chacha20poly1305Encrypt key nonce
        (encodeUtf8 (stringify numbers.toNumberFormat message)) (Agent.canonicalAad numbers full)
      stringify numbers.toNumberFormat ((wire full nonce sealed.1 sealed.2).json numbers) := by
  unfold Browser.sealMessage Browser.encodeEnvelope wire
  dsimp only
  rw [fullRouting_eq, base64urlEncode_eq, base64urlEncode_eq, base64urlEncode_eq, canonicalAad_eq]

section
variable (hciphers : CorrectPair ciphers) (hbase64 : ∀ bs, fromBase64Url (base64url bs) = bs)
  {routing : Agent.SessionRouting} {key id nonce : Bytes} {envelopeType : JsString}
  (hkey : key.length = 32) (hnonce : nonce.length = 12) (message : Json ν) (now : ν)
include hciphers hbase64 hkey hnonce

theorem open_sealEnvelope (hfull : (Agent.fullRouting routing envelopeType id now).NonEmpty) :
    Agent.openEnvelope numbers ciphers fromBase64Url
        (Agent.sealEnvelope numbers ciphers routing key message envelopeType id nonce now) key =
      .ok (Agent.fullRouting routing envelopeType id now, message) ∧
    Browser.openMessage numbers ciphers
        (textDecode (Agent.sealEnvelope numbers ciphers routing key message envelopeType id nonce now)) key =
      message := by
  rw [sealEnvelope_eq]
  dsimp only
  obtain ⟨hciphertext, htag⟩ := hciphers.agentLength key nonce
    (encodeUtf8 (stringify numbers.toNumberFormat message))
    (some (Agent.canonicalAad numbers (Agent.fullRouting routing envelopeType id now))) hkey hnonce
  constructor
  · refine openEnvelope_wire hbase64 hfull (ne_nil_of_length hnonce) ?_ (ne_nil_of_length htag)
      (hciphers.agent _ _ _ _ hkey hnonce)
    rw [← List.length_pos_iff, hciphertext]
    exact List.length_pos_iff.mpr (encodeUtf8_stringify_ne_nil numbers message)
  · rw [textDecode_stringify]
    exact openMessage_wire (hciphers.agentToBrowser _ _ _ _ hkey hnonce)

theorem open_sealMessage (hfull : (Agent.fullRouting routing envelopeType id now).NonEmpty) :
    Agent.openEnvelope numbers ciphers fromBase64Url
        (encodeUtf8 (Browser.sealMessage numbers ciphers routing key message envelopeType id nonce now)) key =
      .ok (Agent.fullRouting routing envelopeType id now, message) ∧
    Browser.openMessage numbers ciphers
        (Browser.sealMessage numbers ciphers routing key message envelopeType id nonce now) key = message := by
  rw [sealMessage_eq]
  dsimp only
  obtain ⟨hciphertext, htag⟩ := hciphers.browserLength key nonce
    (encodeUtf8 (stringify numbers.toNumberFormat message))
    (Agent.canonicalAad numbers (Agent.fullRouting routing envelopeType id now)) hkey hnonce
  constructor
  · refine openEnvelope_wire hbase64 hfull (ne_nil_of_length hnonce) ?_ (ne_nil_of_length htag)
      (hciphers.browserToAgent _ _ _ _ hkey hnonce)
    rw [← List.length_pos_iff, hciphertext]
    exact List.length_pos_iff.mpr (encodeUtf8_stringify_ne_nil numbers message)
  · exact openMessage_wire (hciphers.browser _ _ _ _ hkey hnonce)

end

/-- The bytes that come back from an envelope on the wire. -/
def roundTrip (numbers : Numbers ν) (ciphers : Ciphers) (fromBase64Url : JsString → Bytes)
    (routing : EnvelopeRouting ν) (b key : Bytes) (aad : Option Bytes) (nonce : Bytes) :
    Except Agent.EnvelopeError Bytes := do
  let envelope ← Agent.deserializeEnvelope numbers
    (Agent.serializeEnvelope numbers (Agent.encodeEnvelope ciphers routing b key aad nonce))
  Agent.decryptEnvelopeContent ciphers fromBase64Url envelope key aad

theorem roundTrip_nonempty (hciphers : CorrectPair ciphers) (hbase64 : ∀ bs, fromBase64Url (base64url bs) = bs)
    {routing : EnvelopeRouting ν} {b key nonce : Bytes} (aad : Option Bytes) (h : routing.NonEmpty)
    (hkey : key.length = 32) (hnonce : nonce.length = 12) (hb : b ≠ []) :
    roundTrip numbers ciphers fromBase64Url routing b key aad nonce = .ok b := by
  obtain ⟨hciphertext, htag⟩ := hciphers.agentLength key nonce b aad hkey hnonce
  have hne : (ciphers.encrypt key nonce b aad).1 ≠ [] := by
    rw [← List.length_pos_iff, hciphertext]
    exact List.length_pos_iff.mpr hb
  change (Agent.deserializeEnvelope numbers (encodeUtf8 (stringify numbers.toNumberFormat
    ((wire routing nonce (ciphers.encrypt key nonce b aad).1 (ciphers.encrypt key nonce b aad).2).json
      numbers)))).bind _ = _
  rw [deserializeEnvelope_wire numbers h (ne_nil_of_length hnonce) hne (ne_nil_of_length htag)]
  exact decryptEnvelopeContent_wire hbase64 (hciphers.agent key nonce b aad hkey hnonce)

theorem roundTrip_empty (fromBase64Url : JsString → Bytes) (hciphers : CorrectPair ciphers)
    {routing : EnvelopeRouting ν} {key nonce : Bytes} (aad : Option Bytes) (h : routing.NonEmpty)
    (hkey : key.length = 32) (hnonce : nonce.length = 12) :
    roundTrip numbers ciphers fromBase64Url routing [] key aad nonce = .error (.contentField "ciphertext") := by
  obtain ⟨hciphertext, -⟩ := hciphers.agentLength key nonce [] aad hkey hnonce
  change (Agent.deserializeEnvelope numbers (encodeUtf8 (stringify numbers.toNumberFormat
    ((wire routing nonce (ciphers.encrypt key nonce [] aad).1 (ciphers.encrypt key nonce [] aad).2).json
      numbers)))).bind _ = _
  rw [List.length_eq_zero_iff.mp hciphertext, deserializeEnvelope_wire_empty numbers h (ne_nil_of_length hnonce)]
  rfl

/-! ## The agreement -/

/-- Either side opens what either side seals; the additional data of both is the same and no two routings
share it; and bytes come back from an envelope on the wire exactly when there are any. -/
theorem codecs_agree_iff_nonempty (hciphers : CorrectPair ciphers)
    (hbase64 : ∀ bs, fromBase64Url (base64url bs) = bs) :
    (∀ (routing : Agent.SessionRouting) (key : Bytes) (message : Json ν) (envelopeType : JsString)
      (id nonce : Bytes) (now : ν), key.length = 32 → id.length = 8 → nonce.length = 12 →
      routing.accountId ≠ [] → routing.tenant ≠ [] → routing.sub ≠ [] → envelopeType ≠ [] →
      let agent := Agent.sealEnvelope numbers ciphers routing key message envelopeType id nonce now
      let browser := Browser.sealMessage numbers ciphers routing key message envelopeType id nonce now
      let full := Agent.fullRouting routing envelopeType id now
      Agent.openEnvelope numbers ciphers fromBase64Url agent key = .ok (full, message) ∧
      Browser.openMessage numbers ciphers (textDecode agent) key = message ∧
      Agent.openEnvelope numbers ciphers fromBase64Url (encodeUtf8 browser) key = .ok (full, message) ∧
      Browser.openMessage numbers ciphers browser key = message) ∧
    (∀ routing routing' : EnvelopeRouting ν,
      Agent.canonicalAad numbers routing = Browser.canonicalAad numbers routing ∧
      (routing ≠ routing' → Agent.canonicalAad numbers routing ≠ Agent.canonicalAad numbers routing')) ∧
    ∀ (routing : EnvelopeRouting ν) (b key : Bytes) (aad : Option Bytes) (nonce : Bytes),
      routing.NonEmpty → key.length = 32 → nonce.length = 12 →
      (roundTrip numbers ciphers fromBase64Url routing b key aad nonce = .ok b ↔ b ≠ []) := by
  refine ⟨?_, fun routing routing' => ⟨(canonicalAad_eq numbers routing).symm, mt canonicalAad_injective⟩, ?_⟩
  · intro routing key message envelopeType id nonce now hkey hid hnonce haccount htenant hsub htype
    have hfull := fullRouting_nonEmpty now haccount htenant hsub htype hid
    obtain ⟨hagent, hbrowser⟩ := open_sealEnvelope hciphers hbase64 hkey hnonce message now hfull
    exact ⟨hagent, hbrowser, open_sealMessage hciphers hbase64 hkey hnonce message now hfull⟩
  · intro routing b key aad nonce h hkey hnonce
    constructor
    · rintro hround rfl
      rw [roundTrip_empty fromBase64Url hciphers aad h hkey hnonce] at hround
      cases hround
    · exact roundTrip_nonempty hciphers hbase64 aad h hkey hnonce

/-! ## At the ciphers of both sides -/

/-- The agent's cipher is the one of the RFC, the browser's its own. -/
def rfcCiphers : Ciphers where
  encrypt key nonce plaintext aad :=
    Rfc8439.aeadEncrypt (vectorOf 32 key) (vectorOf 12 nonce) plaintext (aad.getD [])
  decrypt key nonce ciphertext tag aad :=
    if tag = Rfc8439.tag (vectorOf 32 key) (vectorOf 12 nonce) ciphertext (aad.getD []) then
      some (Rfc8439.encrypt (vectorOf 32 key) 1 (vectorOf 12 nonce) ciphertext)
    else none
  chacha20poly1305Encrypt key nonce plaintext aad :=
    let box := Crypto.chacha20poly1305Encrypt (vectorOf 32 key) (vectorOf 12 nonce) plaintext aad
    (box.ciphertext, box.tag)
  chacha20poly1305Decrypt key nonce ciphertext tag aad :=
    (Crypto.chacha20poly1305Decrypt (vectorOf 32 key) (vectorOf 12 nonce) ciphertext tag aad).toOption

theorem rfcCiphers_encrypt (key nonce plaintext aad : Bytes) :
    rfcCiphers.chacha20poly1305Encrypt key nonce plaintext aad =
      rfcCiphers.encrypt key nonce plaintext (some aad) := by
  unfold rfcCiphers
  dsimp only
  rw [Crypto.chacha20poly1305Encrypt_eq]
  rfl

theorem rfcCiphers_decrypt (key nonce ciphertext tag aad : Bytes) :
    rfcCiphers.chacha20poly1305Decrypt key nonce ciphertext tag aad =
      rfcCiphers.decrypt key nonce ciphertext tag (some aad) := by
  unfold rfcCiphers
  dsimp only
  rw [Crypto.chacha20poly1305Decrypt_eq, Option.getD_some]
  split <;> rfl

theorem rfcCiphers_agent (key nonce plaintext : Bytes) (aad : Option Bytes) :
    rfcCiphers.decrypt key nonce (rfcCiphers.encrypt key nonce plaintext aad).1
      (rfcCiphers.encrypt key nonce plaintext aad).2 aad = some plaintext := by
  unfold rfcCiphers Rfc8439.aeadEncrypt
  dsimp only
  rw [if_pos rfl, Rfc8439.encrypt_encrypt]

theorem rfcCiphers_length (key nonce plaintext : Bytes) (aad : Option Bytes) :
    (rfcCiphers.encrypt key nonce plaintext aad).1.length = plaintext.length ∧
      (rfcCiphers.encrypt key nonce plaintext aad).2.length = 16 :=
  ⟨Rfc8439.length_encrypt _ _ _ _, Rfc8439.length_tag _ _ _ _⟩

theorem rfcCiphers_correct : CorrectPair rfcCiphers where
  agent key nonce plaintext aad _ _ := rfcCiphers_agent key nonce plaintext aad
  agentToBrowser key nonce plaintext aad _ _ := by
    rw [rfcCiphers_decrypt]
    exact rfcCiphers_agent key nonce plaintext (some aad)
  browserToAgent key nonce plaintext aad _ _ := by
    rw [rfcCiphers_encrypt]
    exact rfcCiphers_agent key nonce plaintext (some aad)
  browser key nonce plaintext aad _ _ := by
    rw [rfcCiphers_decrypt, rfcCiphers_encrypt]
    exact rfcCiphers_agent key nonce plaintext (some aad)
  agentLength key nonce plaintext aad _ _ := rfcCiphers_length key nonce plaintext aad
  browserLength key nonce plaintext aad _ _ := by
    rw [rfcCiphers_encrypt]
    exact rfcCiphers_length key nonce plaintext (some aad)

/-- Node's decoder: it stops at the padding and skips what is no digit. -/
def bufferOfBase64Url (s : JsString) : Bytes :=
  octets ((s.takeWhile (· ≠ 61)).filterMap fun u => value (ofUrl u))

theorem bufferOfBase64Url_base64url (bs : Bytes) : bufferOfBase64Url (base64url bs) = bs := by
  have htake : (base64url bs).takeWhile (· ≠ 61) = base64url bs := by
    refine List.takeWhile_eq_self_iff.mpr fun u hu => ?_
    obtain ⟨n, hn, rfl⟩ := List.mem_map.mp hu
    exact decide_eq_true (toUrl_digit_ne n (sextets_lt n hn))
  have hdigits : (base64url bs).filterMap (fun u => value (ofUrl u)) = sextets bs := by
    unfold base64url
    rw [List.filterMap_map]
    refine (List.filterMap_congr fun n hn => ?_).trans List.filterMap_some
    change value (ofUrl (toUrl (digit n))) = some n
    rw [ofUrl_toUrl_digit n (sextets_lt n hn), value_digit n (sextets_lt n hn)]
  unfold bufferOfBase64Url
  rw [htake, hdigits, octets_sextets]

def naturalNumbers : Numbers Nat where
  toNumberFormat := natural
  ENVELOPE_VERSION := 1

/-- The routing of one conversation. -/
def alice : Agent.SessionRouting := ⟨js "default", js "acme", js "alice"⟩

def key32 : Bytes := List.replicate 32 7

def nonce12 : Bytes := List.replicate 12 1

def id8 : Bytes := List.replicate 8 2

theorem codecs_agree_alice :
    Browser.openMessage naturalNumbers rfcCiphers
      (textDecode (Agent.sealEnvelope naturalNumbers rfcCiphers alice key32 (.str (js "hi")) (js "message") id8
        nonce12 1718000000000)) key32 = .str (js "hi") ∧
    roundTrip naturalNumbers rfcCiphers bufferOfBase64Url
      (Agent.fullRouting alice (js "message") id8 1718000000000) [7] key32 none nonce12 = .ok [7] := by
  obtain ⟨hopen, -, hround⟩ := @codecs_agree_iff_nonempty Nat _ naturalNumbers rfcCiphers bufferOfBase64Url
    rfcCiphers_correct bufferOfBase64Url_base64url
  constructor
  · exact (hopen alice key32 (.str (js "hi")) (js "message") id8 nonce12 1718000000000 rfl rfl rfl (by decide)
      (by decide) (by decide) (by decide)).2.1
  · exact (hround _ [7] key32 none nonce12 (by constructor <;> decide) rfl rfl).mpr (by decide)

/-- The envelope of no bytes is refused by the decoder of the side that encoded it. -/
theorem empty_content_refused :
    ¬ ∀ (routing : EnvelopeRouting Nat) (b key : Bytes) (aad : Option Bytes) (nonce : Bytes),
      routing.NonEmpty → key.length = 32 → nonce.length = 12 →
      roundTrip naturalNumbers rfcCiphers bufferOfBase64Url routing b key aad nonce = .ok b := by
  intro h
  have hround := h (Agent.fullRouting alice (js "typing") id8 1718000000000) [] key32 none nonce12
    (by constructor <;> decide) rfl rfl
  rw [roundTrip_empty bufferOfBase64Url rfcCiphers_correct none (by constructor <;> decide) rfl rfl] at hround
  cases hround

end Webchannel.Envelope
