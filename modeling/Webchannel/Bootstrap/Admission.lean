import Webchannel.Bootstrap.Verify

/-!
# Tokens that are admitted

A token that the SaaS mints is admitted for the device it was minted for, where its keys are plain; and a token
with a malformed key is refused, unless its `cnf` is no object.
-/

namespace Webchannel.Bootstrap

open Base64 (bufferFrom base64url)
open Effect (of_bind_eq_ok)
open Register (PopPublicJwk)
open Storage (stripTrailingSlashes stringOf)

/-! ## Comparisons -/

theorem foldl_or_eq_zero (l : List (UInt16 × UInt16)) (d : UInt16) :
    l.foldl (fun diff p => diff ||| p.1 ^^^ p.2) d = 0 ↔ d = 0 ∧ ∀ p ∈ l, p.1 = p.2 := by
  induction l generalizing d with
  | nil => simp
  | cons p l ih =>
    rw [List.foldl_cons, ih, UInt16.or_eq_zero_iff, UInt16.xor_eq_zero_iff, List.forall_mem_cons, and_assoc]

/-- The comparison is an equality test. -/
theorem constantTimeEqual_iff {a b : JsString} : constantTimeEqual a b = true ↔ a = b := by
  unfold constantTimeEqual
  by_cases hlength : a.length = b.length
  · rw [if_neg (not_not.mpr hlength), decide_eq_true_iff, foldl_or_eq_zero]
    constructor
    · rintro ⟨-, h⟩
      refine List.ext_getElem hlength fun i ha hb => ?_
      have hmem : (a[i], b[i]) ∈ a.zip b := by
        rw [← List.getElem_zip (h := by rw [List.length_zip]; omega)]
        exact List.getElem_mem _
      exact h _ hmem
    · rintro rfl
      refine ⟨rfl, fun p hp => ?_⟩
      obtain ⟨i, hi, rfl⟩ := List.mem_iff_getElem.mp hp
      rw [List.getElem_zip]
  · rw [if_pos hlength]
    exact iff_of_false Bool.false_ne_true fun h => hlength (congrArg List.length h)

theorem audienceMatches_value {audience : JsString} {aud : Audience}
    (h : match aud with | .one value => audience = value | .many values => audience ∈ values) :
    audienceMatches audience (some aud.value) = true := by
  cases aud with
  | one value => exact constantTimeEqual_iff.mpr h.symm
  | many values =>
    refine decide_eq_true ⟨?_, ?_, ?_⟩
    · exact List.ne_nil_of_mem (List.mem_map_of_mem h)
    · rw [List.all_eq_true]
      intro v hv
      obtain ⟨s, -, rfl⟩ := List.mem_map.mp hv
      rfl
    · rw [List.any_eq_true]
      exact ⟨_, List.mem_map_of_mem h, constantTimeEqual_iff.mpr rfl⟩

/-! ## Public keys -/

/-- A public key on this curve: 32 bytes, and no private part. -/
structure WellFormedKey (crv : String) (jwk : Json Double) (x : JsString) : Prop where
  kty : jwk.member "kty" = some (.str (js "OKP"))
  crv : jwk.member "crv" = some (.str (js crv))
  point : jwk.member "x" = some (.str x)
  plain : PlainKey x
  d : jwk.member "d" = none

theorem stringOf_eq_some {ν : Type} {v : Option (Json ν)} {s : JsString} : stringOf v = some s ↔ v = some (.str s) := by
  unfold stringOf
  split
  · rename_i t
    rw [Option.some.injEq, Option.some.injEq, Json.str.injEq]
  · rename_i h
    refine iff_of_false (fun h' => by cases h') fun h' => ?_
    exact h s h'

theorem plainKey_iff {x : JsString} : x ≠ [] ∧ (base64UrlDecode x).any (·.length = 32) = true ↔ PlainKey x := by
  constructor
  · rintro ⟨-, h⟩
    obtain ⟨bs, hbs, hlength⟩ := (Option.any_eq_true _ _).mp h
    exact (base64UrlDecode_32.mp ⟨hbs, of_decide_eq_true hlength⟩).1
  · intro h
    obtain ⟨hdecode, hlength⟩ := base64UrlDecode_32.mpr ⟨h, rfl⟩
    refine ⟨?_, by rw [hdecode]; exact decide_eq_true hlength⟩
    rintro rfl
    exact absurd h.digits (by decide)

theorem publicKey_eq_some {crv : String} {jwk : Json Double} {x : JsString} :
    publicKey crv jwk = some x ↔ WellFormedKey crv jwk x := by
  unfold publicKey
  constructor
  · intro h
    split at h
    · rename_i hkey
      obtain ⟨hx, hplain⟩ := Option.filter_eq_some_iff.mp h
      exact ⟨stringOf_eq_some.mp hkey.1, stringOf_eq_some.mp hkey.2.1, stringOf_eq_some.mp hx, plainKey_iff.mp (of_decide_eq_true hplain), hkey.2.2⟩
    · cases h
  · intro h
    rw [if_pos ⟨stringOf_eq_some.mpr h.kty, stringOf_eq_some.mpr h.crv, h.d⟩, Option.filter_eq_some_iff]
    exact ⟨stringOf_eq_some.mpr h.point, decide_eq_true (plainKey_iff.mpr h.plain)⟩

theorem publicKey_eq_none {crv : String} {jwk : Json Double} :
    publicKey crv jwk = none ↔ ¬ ∃ x, WellFormedKey crv jwk x := by
  rw [Option.eq_none_iff_forall_ne_some]
  constructor
  · rintro h ⟨x, hx⟩
    exact h x (publicKey_eq_some.mpr hx)
  · intro h x hx
    exact h ⟨x, publicKey_eq_some.mp hx⟩

theorem publicKey_keyValue {crv : String} {x : JsString} :
    publicKey crv (keyValue (js crv) x) = if PlainKey x then some x else none := by
  have hmembers : (keyValue (js crv) x).member "kty" = some (.str (js "OKP")) ∧
      (keyValue (js crv) x).member "crv" = some (.str (js crv)) ∧ (keyValue (js crv) x).member "x" = some (.str x) ∧
      (keyValue (js crv) x).member "d" = none := ⟨rfl, rfl, rfl, rfl⟩
  obtain ⟨hkty, hcrv, hx, hd⟩ := hmembers
  by_cases hplain : PlainKey x
  · rw [if_pos hplain, publicKey_eq_some]
    exact ⟨hkty, hcrv, hx, hplain, hd⟩
  · rw [if_neg hplain, publicKey_eq_none]
    rintro ⟨y, hy⟩
    have heq := hx.symm.trans hy.point
    cases heq
    exact hplain hy.plain

/-! ## Minted tokens -/

theorem not_dot_mem_base64url {bs : Bytes} : 46 ∉ base64url bs := by
  unfold base64url
  intro h
  obtain ⟨n, hn, hdigit⟩ := List.mem_map.mp h
  have hne : ∀ n < 64, Base64.toUrl (Base64.digit n) ≠ 46 := by decide
  exact hne n (Base64.sextets_lt n hn) hdigit

theorem encodeUtf8_stringify_ne_nil (v : Json Double) : encodeUtf8 (JsonText.stringify JsonText.doubles v) ≠ [] := by
  intro h
  have hdecode := JsonText.stringOfUtf8_stringify JsonText.doubles v
  rw [h] at hdecode
  obtain ⟨c, rest, hbegin, -⟩ := JsonText.begins_stringify JsonText.doubles v
  rw [hbegin] at hdecode
  cases hdecode

/-- A segment holds the value that was put into it. -/
theorem decodeSegment_b64urlJson {v : Json Double} (h : isObject v = true) : decodeSegment (b64urlJson v) = some v := by
  unfold decodeSegment b64urlJson
  dsimp only [bind]
  rw [base64UrlDecode_base64url (encodeUtf8_stringify_ne_nil v), Option.bind_some, JsonText.textDecode_stringify,
    JsonText.parse_stringify, Option.filter_some, if_pos h]

theorem b64urlJson_ne_nil (v : Json Double) : b64urlJson v ≠ [] := fun h =>
  encodeUtf8_stringify_ne_nil v (Base64.base64url_eq_nil.mp h)

/-- The token is presented to a verifier that resolves its key and finds its signature correct, for its issuer up to
trailing slashes, one of its accounts and a moment before its expiry. -/
structure Presented {κ : Type} (platform : Platform κ) (issuer : BootstrapIssuer) (opts : VerifyJwtOptions)
    (claims : BootstrapClaims) : Prop where
  kid : issuer.kid ≠ []
  signature : issuer.signature (encodeUtf8 (issuer.signingInput claims)) ≠ []
  verifies : ∃ key, platform.getKey issuer.kid = some key ∧
    platform.verify key (issuer.signature (encodeUtf8 (issuer.signingInput claims)))
      (encodeUtf8 (issuer.signingInput claims)) = some true
  issuer : stripTrailingSlashes opts.issuer = stripTrailingSlashes claims.iss
  audience : match claims.aud with | .one value => opts.audience = value | .many values => opts.audience ∈ values
  unexpired : ∀ exp, claims.exp = some exp →
    isExpired platform.now exp (opts.clockSkewSec.getD (toDouble defaultClockSkewSec)) = false

section minted

variable {κ : Type} {platform : Platform κ} {issuer : BootstrapIssuer} {opts : VerifyJwtOptions} {claims : BootstrapClaims}

theorem splitOn_sign : (issuer.sign claims).splitOn 46 =
    [b64urlJson issuer.header, b64urlJson claims.value,
      base64url (issuer.signature (encodeUtf8 (issuer.signingInput claims)))] := by
  have hsignature : 46 ∉ base64url (issuer.signature (encodeUtf8 (issuer.signingInput claims))) := not_dot_mem_base64url
  have hsegment (v : Json Double) : 46 ∉ b64urlJson v := not_dot_mem_base64url
  have hinput : issuer.signingInput claims = b64urlJson issuer.header ++ 46 :: b64urlJson claims.value := rfl
  unfold BootstrapIssuer.sign
  generalize base64url (issuer.signature (encodeUtf8 (issuer.signingInput claims))) = signature at hsignature ⊢
  rw [hinput, List.append_assoc, List.cons_append, List.splitOn_append_cons_self_of_not_mem (hsegment _),
    List.splitOn_append_cons_self_of_not_mem (hsegment _), List.splitOn_eq_singleton hsignature]

theorem checkSignature_sign (h : Presented platform issuer opts claims) :
    checkSignature platform (some (issuer.sign claims)) = .ok (some (b64urlJson claims.value)) := by
  obtain ⟨key, hkey, hverify⟩ := h.verifies
  have hheader : decodeSegment (b64urlJson issuer.header) = some issuer.header := decodeSegment_b64urlJson rfl
  have halg : stringOf (issuer.header.member "alg") = some (js "RS256") := rfl
  have hkid : (stringOf (issuer.header.member "kid")).filter (· ≠ []) = some issuer.kid :=
    Option.filter_eq_some_iff.mpr ⟨rfl, decide_eq_true h.kid⟩
  have hsignature : base64url (issuer.signature (encodeUtf8 (issuer.signingInput claims))) ≠ [] := fun hnil =>
    h.signature (Base64.base64url_eq_nil.mp hnil)
  unfold checkSignature
  rw [Option.getD_some, splitOn_sign]
  dsimp only
  rw [if_neg (by rintro (h' | h' | h'); exacts [b64urlJson_ne_nil _ h', b64urlJson_ne_nil _ h', hsignature h']), hheader]
  dsimp only
  rw [if_neg (not_not.mpr halg), hkid, base64UrlDecode_base64url h.signature]
  dsimp only
  rw [hkey, Option.bind_some]
  unfold BootstrapIssuer.signingInput at hverify ⊢
  rw [hverify]
  rfl

theorem verifyJwt_sign (h : Presented platform issuer opts claims) :
    verifyJwt platform (some (issuer.sign claims)) opts = .ok (admitClaims opts platform.now claims.value) := by
  unfold verifyJwt
  rw [checkSignature_sign h]
  dsimp only
  rw [decodeSegment_b64urlJson rfl, Option.bind_some]

theorem member_value (claims : BootstrapClaims) :
    claims.value.member "iss" = some (.str claims.iss) ∧ claims.value.member "sub" = some (.str claims.sub) ∧
      claims.value.member "aud" = some claims.aud.value ∧ claims.value.member "exp" = some (numberValue claims.exp) ∧
      claims.value.member "tenant" = some (.str claims.tenant) ∧
      claims.value.member "cnf" = some (.obj [(js "jwk", keyValue (js "X25519") claims.cnf)]) ∧
      claims.value.member "pop_jwk" = claims.popJwk.map (keyValue (js "Ed25519")) ∧
      claims.value.member "name" = none ∧ claims.value.member "preferred_username" = none := by
  unfold BootstrapClaims.value
  cases claims.popJwk with
  | none => exact ⟨rfl, rfl, rfl, rfl, rfl, rfl, rfl, rfl, rfl⟩
  | some x => exact ⟨rfl, rfl, rfl, rfl, rfl, rfl, rfl, rfl, rfl⟩

/-- The identity that a token with these claims stands for. -/
def BootstrapClaims.identity (claims : BootstrapClaims) : JwtIdentity where
  peerId := claims.sub
  tenant := some claims.tenant
  displayName := none
  devicePublicKey := some claims.cnf
  popPublicJwk := claims.popJwk.map fun x => ⟨js "OKP", js "Ed25519", x⟩

theorem checkClaims_value (h : Presented platform issuer opts claims) (hsub : claims.sub ≠ []) :
    checkClaims opts platform.now claims.value =
      if claims.exp.any Double.isFinite then some claims.sub else none := by
  obtain ⟨hiss, hsubject, haud, hexp, -⟩ := member_value claims
  unfold checkClaims
  rw [hiss, haud, hexp, hsubject, audienceMatches_value h.audience]
  dsimp only [stringOf]
  rw [constantTimeEqual_iff.mpr h.issuer.symm, if_neg Bool.noConfusion, if_neg Bool.noConfusion]
  cases hvalue : claims.exp with
  | none => rfl
  | some exp =>
    unfold numberValue
    dsimp only
    rw [Option.any_some]
    by_cases hfinite : exp.isFinite = true
    · rw [if_pos hfinite, if_pos hfinite]
      dsimp only
      rw [if_neg (by rw [hfinite]; exact Bool.noConfusion), h.unexpired exp hvalue, if_neg Bool.noConfusion]
      exact Option.filter_eq_some_iff.mpr ⟨rfl, decide_eq_true hsub⟩
    · rw [if_neg hfinite, if_neg hfinite]

theorem deviceKey_value : deviceKey (claims.value.member "cnf") = if PlainKey claims.cnf then some (some claims.cnf) else none := by
  rw [(member_value claims).2.2.2.2.2.1]
  change (publicKey "X25519" (keyValue (js "X25519") claims.cnf)).map some = _
  rw [publicKey_keyValue]
  split <;> rfl

theorem popKey_value : popKey (claims.value.member "pop_jwk") =
    match claims.popJwk with
    | none => some none
    | some x => if PlainKey x then some (some ⟨js "OKP", js "Ed25519", x⟩) else none := by
  rw [(member_value claims).2.2.2.2.2.2.1]
  cases claims.popJwk with
  | none => rfl
  | some x =>
    change (publicKey "Ed25519" (keyValue (js "Ed25519") x)).map _ = _
    rw [publicKey_keyValue]
    dsimp only
    split <;> rfl

/-- Which minted claims are admitted, and as whom. -/
theorem admitClaims_value (h : Presented platform issuer opts claims) (hsub : claims.sub ≠ []) (htenant : claims.tenant ≠ [])
    {identity : JwtIdentity} : admitClaims opts platform.now claims.value = some identity ↔
      claims.exp.any Double.isFinite = true ∧ PlainKey claims.cnf ∧ (∀ x, claims.popJwk = some x → PlainKey x) ∧
        identity = claims.identity := by
  obtain ⟨-, -, -, -, htenantMember, -, -, hname, hpreferred⟩ := member_value claims
  unfold admitClaims
  rw [checkClaims_value h hsub, deviceKey_value, popKey_value, htenantMember, hname, hpreferred]
  by_cases hexp : claims.exp.any Double.isFinite = true
  swap
  · rw [if_neg hexp]
    exact iff_of_false (fun h' => by cases h') fun h' => hexp h'.1
  by_cases hcnf : PlainKey claims.cnf
  swap
  · rw [if_pos hexp, if_neg hcnf]
    exact iff_of_false (fun h' => by cases h') fun h' => hcnf h'.2.1
  rw [if_pos hexp, if_pos hcnf]
  dsimp only
  have hidentity (pop : Option PopPublicJwk) (hpop : pop = claims.popJwk.map fun x => ⟨js "OKP", js "Ed25519", x⟩) :
      ({ peerId := claims.sub, tenant := (stringOf (some (Json.str claims.tenant : Json Double))).filter (· ≠ []),
         displayName := (stringOf (orElse none none)).filter (· ≠ []), devicePublicKey := some claims.cnf,
         popPublicJwk := pop } : JwtIdentity) = claims.identity := by
    have htenantValue : (stringOf (some (Json.str claims.tenant : Json Double))).filter (· ≠ []) = some claims.tenant :=
      Option.filter_eq_some_iff.mpr ⟨rfl, decide_eq_true htenant⟩
    rw [htenantValue, hpop]
    rfl
  cases hpop : claims.popJwk with
  | none =>
    dsimp only
    rw [hidentity none (by rw [hpop]; rfl), Option.some.injEq]
    constructor
    · rintro rfl
      exact ⟨hexp, hcnf, (fun x hx => by cases hx), rfl⟩
    · exact fun h' => h'.2.2.2.symm
  | some x =>
    dsimp only
    by_cases hplain : PlainKey x
    · rw [if_pos hplain]
      dsimp only
      rw [hidentity (some _) (by rw [hpop]; rfl), Option.some.injEq]
      constructor
      · rintro rfl
        refine ⟨hexp, hcnf, fun y hy => ?_, rfl⟩
        cases hy
        exact hplain
      · exact fun h' => h'.2.2.2.symm
    · rw [if_neg hplain]
      exact iff_of_false (fun h' => by cases h') fun h' => hplain (h'.2.2.1 x rfl)

end minted

/-! ## What the builder lets pass -/

def expiry (date : Int) (input : BootstrapClaimsInput) : Option Double :=
  (input.nowSeconds.getD (toDouble date)).add (input.ttlSeconds.getD (toDouble DEFAULT_TTL_SECONDS))

/-- The identity that the input asks for. -/
def BootstrapClaimsInput.identity (input : BootstrapClaimsInput) : JwtIdentity where
  peerId := input.peerId
  tenant := some input.tenant
  displayName := none
  devicePublicKey := some input.deviceX25519PublicKey
  popPublicJwk := input.devicePopPublicKey.map fun x => ⟨js "OKP", js "Ed25519", x⟩

theorem presentKey_eq_some {key : Option JsString} {x : JsString} : presentKey key = some x ↔ key = some x ∧ x ≠ [] := by
  unfold presentKey
  rw [Option.filter_eq_some_iff, decide_eq_true_iff]

theorem buildBootstrapClaims_ok {date : Int} {input : BootstrapClaimsInput} {claims : BootstrapClaims}
    (h : buildBootstrapClaims date input = .ok claims) :
    input.peerId ≠ [] ∧ input.tenant ≠ [] ∧ (bufferFrom input.deviceX25519PublicKey).length = 32 ∧
      claims.iss = input.iss ∧ claims.sub = input.peerId ∧ claims.aud = input.accountId ∧ claims.exp = expiry date input ∧
      claims.tenant = input.tenant ∧ claims.cnf = input.deviceX25519PublicKey ∧
      claims.popJwk = presentKey input.devicePopPublicKey := by
  have hnonempty (token : JsString) (label : String) (htoken : assertValidSubjectToken token label = .ok ()) : token ≠ [] := by
    unfold assertValidSubjectToken at htoken
    split at htoken
    · rename_i hvalid
      rintro rfl
      exact absurd hvalid (by decide)
    · cases htoken
  have hlength (label : String) (key : JsString) (hkey : assert32Bytes label key = .ok ()) : (bufferFrom key).length = 32 := by
    unfold assert32Bytes at hkey
    split at hkey
    · cases hkey
    · rename_i hne
      exact not_not.mp hne
  obtain ⟨⟨⟩, hpeer, h⟩ := of_bind_eq_ok h
  obtain ⟨⟨⟩, htenant, h⟩ := of_bind_eq_ok h
  obtain ⟨⟨⟩, hdevice, h⟩ := of_bind_eq_ok h
  have hclaims : (assertAccounts input.accountId).bind (fun _ => Except.ok
      { iss := input.iss, sub := input.peerId, aud := input.accountId, exp := expiry date input,
        iat := input.nowSeconds.getD (toDouble date), tenant := input.tenant, cnf := input.deviceX25519PublicKey,
        popJwk := presentKey input.devicePopPublicKey }) = .ok claims := by
    cases hpop : presentKey input.devicePopPublicKey with
    | none =>
      rw [hpop] at h
      exact h
    | some key =>
      rw [hpop] at h
      exact (of_bind_eq_ok h).choose_spec.2
  obtain ⟨⟨⟩, -, h⟩ := of_bind_eq_ok hclaims
  cases h
  exact ⟨hnonempty _ _ hpeer, hnonempty _ _ htenant, hlength _ _ hdevice, rfl, rfl, rfl, rfl, rfl, rfl, rfl⟩

/-- Every key that is supplied is plain, and the expiry is a number. -/
structure Readable (date : Int) (input : BootstrapClaimsInput) : Prop where
  device : PlainKey input.deviceX25519PublicKey
  pop : ∀ key, input.devicePopPublicKey = some key → PlainKey key
  expiry : (expiry date input).any Double.isFinite = true

/-- The token is admitted as it was minted, and the register hop reads the device key as the builder did. -/
structure AdmittedAsMinted {κ : Type} (platform : Platform κ) (issuer : BootstrapIssuer) (opts : VerifyJwtOptions)
    (input : BootstrapClaimsInput) (claims : BootstrapClaims) : Prop where
  verifies : verifyJwt platform (some (issuer.sign claims)) opts = .ok (some input.identity)
  device : ∃ key bytes, input.identity.devicePublicKey = some key ∧ base64UrlDecode key = some bytes ∧ bytes.length = 32 ∧
    bufferFrom key = bytes

theorem plainKey_ne_nil {x : JsString} (h : PlainKey x) : x ≠ [] := (plainKey_iff.mpr h).1

/-- A minted token is admitted as it was minted exactly where its keys can be read. -/
theorem admitted_iff {κ : Type} {platform : Platform κ} {issuer : BootstrapIssuer} {opts : VerifyJwtOptions} {date : Int}
    {input : BootstrapClaimsInput} {claims : BootstrapClaims} (hbuild : buildBootstrapClaims date input = .ok claims)
    (h : Presented platform issuer opts claims) :
    AdmittedAsMinted platform issuer opts input claims ↔ Readable date input := by
  obtain ⟨hpeer, htenant, -, -, hsub, -, hexp, htenantClaim, hcnf, hpop⟩ := buildBootstrapClaims_ok hbuild
  have hadmission := fun identity => @admitClaims_value κ platform issuer opts claims h (hsub ▸ hpeer) (htenantClaim ▸ htenant) identity
  constructor
  · rintro ⟨hverify, -⟩
    rw [verifyJwt_sign h] at hverify
    obtain ⟨hfinite, hplain, hpops, hidentity⟩ := (hadmission _).mp (Except.ok.inj hverify)
    refine ⟨hcnf ▸ hplain, fun key hkey => ?_, hexp ▸ hfinite⟩
    have hsame : input.devicePopPublicKey.map (fun x => (⟨js "OKP", js "Ed25519", x⟩ : PopPublicJwk)) =
        claims.popJwk.map fun x => ⟨js "OKP", js "Ed25519", x⟩ := congrArg (·.popPublicJwk) hidentity
    rw [hkey] at hsame
    cases hclaim : claims.popJwk with
    | none =>
      rw [hclaim] at hsame
      cases hsame
    | some x =>
      rw [hclaim] at hsame
      cases hsame
      exact hpops key hclaim
  · intro hreadable
    have hpopClaim : claims.popJwk = input.devicePopPublicKey := by
      rw [hpop]
      cases hkey : input.devicePopPublicKey with
      | none => rfl
      | some key => exact presentKey_eq_some.mpr ⟨rfl, plainKey_ne_nil (hreadable.pop key hkey)⟩
    have hidentity : input.identity = claims.identity := by
      unfold BootstrapClaimsInput.identity BootstrapClaims.identity
      rw [hsub, htenantClaim, hcnf, hpopClaim]
    refine ⟨?_, input.deviceX25519PublicKey, _, rfl, (base64UrlDecode_32.mpr ⟨hreadable.device, rfl⟩).1,
      (base64UrlDecode_32.mpr ⟨hreadable.device, rfl⟩).2, rfl⟩
    rw [verifyJwt_sign h, (hadmission _).mpr ⟨hexp ▸ hreadable.expiry, hcnf ▸ hreadable.device, fun x hx => ?_, hidentity⟩]
    exact hreadable.pop x (hpopClaim ▸ hx)

/-! ## Malformed keys -/

/-- A confirmation method that embeds a device key. -/
def WellFormedCnf (cnf : Json Double) : Prop := ∃ jwk x, cnf.member "jwk" = some jwk ∧ WellFormedKey "X25519" jwk x

/-- The payload carries a `cnf` or a `pop_jwk` that is no well-formed public key of its curve. -/
def Malformed (payload : Json Double) : Prop :=
  (∃ cnf, payload.member "cnf" = some cnf ∧ ¬ WellFormedCnf cnf) ∨
    ∃ popJwk, payload.member "pop_jwk" = some popJwk ∧ ¬ ∃ x, WellFormedKey "Ed25519" popJwk x

/-- What the payload segment of a token holds. -/
def HoldsPayload (token : JsString) (payload : Json Double) : Prop :=
  ∃ header segment signature, token.splitOn 46 = [header, segment, signature] ∧ decodeSegment segment = some payload

/-- A `cnf` that is no object, in a payload whose `pop_jwk` is absent or well-formed. -/
structure PassedOver (payload : Json Double) : Prop where
  cnf : ∀ l, payload.member "cnf" ≠ some (.obj l)
  popJwk : ∀ popJwk, payload.member "pop_jwk" = some popJwk → ∃ x, WellFormedKey "Ed25519" popJwk x

theorem deviceKey_eq_none {cnf : Option (Json Double)} :
    deviceKey cnf = none ↔ ∃ l, cnf = some (.obj l) ∧ ¬ WellFormedCnf (.obj l) := by
  unfold deviceKey
  split
  · rename_i l
    rw [Option.map_eq_none_iff, Option.bind_eq_none_iff]
    constructor
    · intro h
      refine ⟨l, rfl, ?_⟩
      rintro ⟨jwk, x, hjwk, hkey⟩
      exact publicKey_eq_none.mp (h jwk hjwk) ⟨x, hkey⟩
    · rintro ⟨l', heq, h⟩ jwk hjwk
      cases heq
      exact publicKey_eq_none.mpr fun ⟨x, hkey⟩ => h ⟨jwk, x, hjwk, hkey⟩
  · rename_i hno
    refine iff_of_false (fun h => by cases h) ?_
    rintro ⟨l, rfl, -⟩
    exact hno l rfl

theorem popKey_eq_none {popJwk : Option (Json Double)} :
    popKey popJwk = none ↔ ∃ v, popJwk = some v ∧ ¬ ∃ x, WellFormedKey "Ed25519" v x := by
  cases popJwk with
  | none => exact iff_of_false (fun h => by cases h) fun ⟨v, h, _⟩ => by cases h
  | some v =>
    unfold popKey
    rw [Option.map_eq_none_iff, publicKey_eq_none]
    constructor
    · exact fun h => ⟨v, rfl, h⟩
    · rintro ⟨v', heq, h⟩
      cases heq
      exact h

theorem admitClaims_eq_none {opts : VerifyJwtOptions} {now : Int} {payload : Json Double} :
    admitClaims opts now payload = none ↔
      checkClaims opts now payload = none ∨ deviceKey (payload.member "cnf") = none ∨ popKey (payload.member "pop_jwk") = none := by
  unfold admitClaims
  cases checkClaims opts now payload with
  | none => exact iff_of_true rfl (.inl rfl)
  | some peerId =>
    dsimp only
    cases deviceKey (payload.member "cnf") with
    | none => exact iff_of_true rfl (.inr (.inl rfl))
    | some device =>
      dsimp only
      cases popKey (payload.member "pop_jwk") with
      | none => exact iff_of_true rfl (.inr (.inr rfl))
      | some pop => exact iff_of_false (fun h => by cases h) (by rintro (h | h | h) <;> cases h)

/-- A payload with a malformed key is refused, unless its checks pass and the malformed key is passed over. -/
theorem admitClaims_malformed {opts : VerifyJwtOptions} {now : Int} {payload : Json Double} (h : Malformed payload) :
    admitClaims opts now payload = none ↔ ¬ (checkClaims opts now payload ≠ none ∧ PassedOver payload) := by
  rw [admitClaims_eq_none, deviceKey_eq_none, popKey_eq_none, not_and_or, not_not]
  refine or_congr_right ?_
  constructor
  · rintro (⟨l, hcnf, -⟩ | ⟨v, hpop, hmalformed⟩) hpassed
    · exact hpassed.cnf l hcnf
    · exact hmalformed (hpassed.popJwk v hpop)
  · intro hpassed
    obtain ⟨cnf, hcnf, hmalformed⟩ | ⟨popJwk, hpop, hmalformed⟩ := h
    swap
    · exact .inr ⟨popJwk, hpop, hmalformed⟩
    by_cases hobject : ∃ l, cnf = .obj l
    · obtain ⟨l, rfl⟩ := hobject
      exact .inl ⟨l, hcnf, hmalformed⟩
    · right
      by_contra hnone
      refine hpassed ⟨fun l hl => ?_, fun v hv => ?_⟩
      · rw [hcnf] at hl
        exact hobject ⟨l, Option.some.inj hl⟩
      · by_contra hbad
        exact hnone ⟨v, hv, hbad⟩

/-- What a token asks of the platform: the check of its signature over its data, with the key that its header names. -/
def Asks (token segment kid : JsString) (signature data : Bytes) : Prop :=
  ∃ headerSegment signatureSegment header, token.splitOn 46 = [headerSegment, segment, signatureSegment] ∧
    ¬ (headerSegment = [] ∨ segment = [] ∨ signatureSegment = []) ∧ decodeSegment headerSegment = some header ∧
    stringOf (header.member "alg") = some (js "RS256") ∧ (stringOf (header.member "kid")).filter (· ≠ []) = some kid ∧
    base64UrlDecode signatureSegment = some signature ∧ data = encodeUtf8 (headerSegment ++ 46 :: segment)

/-- `none` where the key lookup or the check throws. -/
def Platform.answer {κ : Type} (platform : Platform κ) (kid : JsString) (signature data : Bytes) : Option Bool :=
  (platform.getKey kid).bind fun key => platform.verify key signature data

theorem Asks.unique {token segment segment' kid kid' : JsString} {signature signature' data data' : Bytes}
    (h : Asks token segment kid signature data) (h' : Asks token segment' kid' signature' data') :
    segment' = segment ∧ kid' = kid ∧ signature' = signature ∧ data' = data := by
  obtain ⟨headerSegment, signatureSegment, header, hsplit, -, hheader, -, hkid, hsignature, rfl⟩ := h
  obtain ⟨headerSegment', signatureSegment', header', hsplit', -, hheader', -, hkid', hsignature', rfl⟩ := h'
  rw [hsplit] at hsplit'
  cases hsplit'
  rw [hheader] at hheader'
  cases hheader'
  rw [hkid] at hkid'
  rw [hsignature] at hsignature'
  cases hkid'
  cases hsignature'
  exact ⟨rfl, rfl, rfl, rfl⟩

/-- A token is refused before the platform is asked, or what the platform answers decides. -/
theorem checkSignature_cases {κ : Type} (platform : Platform κ) (token : JsString) :
    (checkSignature platform (some token) = .ok none ∧ ∀ segment kid signature data, ¬ Asks token segment kid signature data) ∨
      ∃ segment kid signature data, Asks token segment kid signature data ∧
        checkSignature platform (some token) =
          match platform.answer kid signature data with
          | none => .error ()
          | some ok => .ok (if ok then some segment else none) := by
  unfold checkSignature
  rw [Option.getD_some]
  split
  · rename_i headerSegment payloadSegment signatureSegment hsplit
    have hask {segment kid : JsString} {signature data : Bytes} (hasks : Asks token segment kid signature data) :
        segment = payloadSegment ∧ ¬ (headerSegment = [] ∨ payloadSegment = [] ∨ signatureSegment = []) ∧
          ∃ header, decodeSegment headerSegment = some header ∧ stringOf (header.member "alg") = some (js "RS256") ∧
            (stringOf (header.member "kid")).filter (· ≠ []) = some kid ∧ base64UrlDecode signatureSegment = some signature := by
      obtain ⟨_, _, header, hsplit', hne, hheader, halg, hkid, hsignature, -⟩ := hasks
      rw [hsplit] at hsplit'
      cases hsplit'
      exact ⟨rfl, hne, header, hheader, halg, hkid, hsignature⟩
    split
    · rename_i hempty
      exact .inl ⟨rfl, fun _ _ _ _ hasks => (hask hasks).2.1 hempty⟩
    rename_i hne
    split
    · rename_i hheader
      refine .inl ⟨rfl, fun _ _ _ _ hasks => ?_⟩
      obtain ⟨-, -, header, hheader', -⟩ := hask hasks
      rw [hheader] at hheader'
      cases hheader'
    rename_i header hheader
    split
    · rename_i halg
      refine .inl ⟨rfl, fun _ _ _ _ hasks => ?_⟩
      obtain ⟨-, -, header', hheader', halg', -⟩ := hask hasks
      rw [hheader] at hheader'
      cases hheader'
      exact halg halg'
    rename_i halg
    split
    · rename_i kid signature hkid hsignature
      refine .inr ⟨payloadSegment, kid, signature, _,
        ⟨headerSegment, signatureSegment, header, hsplit, hne, hheader, not_not.mp halg, hkid, hsignature, rfl⟩, rfl⟩
    · rename_i hnone
      refine .inl ⟨rfl, fun _ kid signature _ hasks => ?_⟩
      obtain ⟨-, -, header', hheader', -, hkid, hsignature⟩ := hask hasks
      rw [hheader] at hheader'
      cases hheader'
      exact hnone kid signature hkid hsignature
  · rename_i hsplit
    refine .inl ⟨rfl, fun segment _ _ _ hasks => ?_⟩
    obtain ⟨headerSegment, signatureSegment, -, hsplit', -⟩ := hasks
    exact hsplit headerSegment segment signatureSegment hsplit'

/-- The token's signature is found correct, its claims pass their checks, and its malformed key is passed over. -/
structure Ignored {κ : Type} (platform : Platform κ) (opts : VerifyJwtOptions) (token : JsString) (payload : Json Double) :
    Prop where
  signature : ∃ segment kid signature data, Asks token segment kid signature data ∧
    platform.answer kid signature data = some true
  claims : checkClaims opts platform.now payload ≠ none
  keys : PassedOver payload

/-- Where the platform is asked, neither its key lookup nor its check throws. -/
def Answers {κ : Type} (platform : Platform κ) (token : JsString) : Prop :=
  ∀ segment kid signature data, Asks token segment kid signature data → platform.answer kid signature data ≠ none

/-- A token with a malformed key is refused exactly where the platform answers and the malformed key is not passed over. -/
theorem refused_iff {κ : Type} {platform : Platform κ} {opts : VerifyJwtOptions} {token : JsString} {payload : Json Double}
    (htoken : HoldsPayload token payload) (h : Malformed payload) :
    verifyJwt platform (some token) opts = .ok none ↔ Answers platform token ∧ ¬ Ignored platform opts token payload := by
  obtain ⟨header, segment, signature, hsplit, hpayload⟩ := htoken
  unfold verifyJwt
  obtain ⟨hcheck, hnever⟩ | ⟨payloadSegment, kid, signature, data, hasks, hcheck⟩ := checkSignature_cases platform token
  · rw [hcheck]
    refine iff_of_true rfl ⟨fun segment kid signature data hasks => absurd hasks (hnever _ _ _ _), fun hignored => ?_⟩
    obtain ⟨_, _, _, _, hasks, -⟩ := hignored.signature
    exact hnever _ _ _ _ hasks
  have hanswer {segment' kid' : JsString} {signature' data' : Bytes} (h' : Asks token segment' kid' signature' data') :
      platform.answer kid' signature' data' = platform.answer kid signature data := by
    obtain ⟨-, rfl, rfl, rfl⟩ := hasks.unique h'
    rfl
  rw [hcheck]
  cases hsays : platform.answer kid signature data with
  | none => exact iff_of_false (fun h' => by cases h') fun h' => h'.1 _ _ _ _ hasks hsays
  | some ok =>
    have hanswers : Answers platform token := by
      intro segment' kid' signature' data' h'
      rw [hanswer h', hsays]
      exact Option.some_ne_none ok
    cases ok with
    | false =>
      refine iff_of_true rfl ⟨hanswers, fun hignored => ?_⟩
      obtain ⟨_, _, _, _, hasks', htrue⟩ := hignored.signature
      rw [hanswer hasks', hsays] at htrue
      cases htrue
    | true =>
      obtain rfl : payloadSegment = segment := by
        obtain ⟨_, _, _, hsplit', -⟩ := hasks
        rw [hsplit] at hsplit'
        cases hsplit'
        rfl
      dsimp only
      rw [if_pos rfl]
      dsimp only
      rw [hpayload, Option.bind_some, Except.ok.injEq, admitClaims_malformed h]
      constructor
      · intro hrefused
        exact ⟨hanswers, fun hignored => hrefused ⟨hignored.claims, hignored.keys⟩⟩
      · rintro ⟨-, hignored⟩ ⟨hclaims, hkeys⟩
        exact hignored ⟨⟨payloadSegment, kid, signature, data, hasks, hsays⟩, hclaims, hkeys⟩

/-- What the builder mints is admitted as minted exactly where its keys are plain and its expiry is a number; and a token
with a malformed key is refused exactly where the platform answers and the malformed key is not passed over. -/
theorem minted_and_malformed {κ : Type} (platform : Platform κ) (opts : VerifyJwtOptions) :
    (∀ issuer date input claims, buildBootstrapClaims date input = .ok claims → Presented platform issuer opts claims →
      (AdmittedAsMinted platform issuer opts input claims ↔ Readable date input)) ∧
    ∀ token payload, HoldsPayload token payload → Malformed payload →
      (verifyJwt platform (some token) opts = .ok none ↔ Answers platform token ∧ ¬ Ignored platform opts token payload) :=
  ⟨fun _ _ _ _ hbuild h => admitted_iff hbuild h, fun _ _ htoken h => refused_iff htoken h⟩

/-- `Buffer.from` passes over the sign at the end of this key, `atob` does not. -/
def signedKey : JsString := List.replicate 43 65 ++ [33]

def signedInput : BootstrapClaimsInput where
  iss := js "https://saas"
  peerId := js "peer"
  accountId := .one (js "account")
  tenant := js "tenant"
  deviceX25519PublicKey := signedKey

def trustingPlatform : Platform Unit where
  getKey _ := some ()
  verify _ _ _ := some true
  now := 0

/-- The builder takes a key with a stray sign behind it, and the token it mints is refused. -/
theorem strayKey_refused : ∃ claims, buildBootstrapClaims 0 signedInput = .ok claims ∧
    Presented trustingPlatform ⟨js "kid", fun _ => [1]⟩ ⟨js "https://saas", js "account", none⟩ claims ∧
    verifyJwt trustingPlatform (some (BootstrapIssuer.sign ⟨js "kid", fun _ => [1]⟩ claims))
      ⟨js "https://saas", js "account", none⟩ = .ok none := by
  have hexpiry : expiry 0 signedInput = some (toDouble ((300 : Int) : Rat)) := by
    have hadd := Double.add_intCast (m := 0) (n := 300) (by decide) (by decide)
    exact hadd
  have hbuild : ∃ claims, buildBootstrapClaims 0 signedInput = .ok claims := ⟨_, rfl⟩
  obtain ⟨claims, hbuild⟩ := hbuild
  obtain ⟨hpeer, htenant, -, hiss, hsub, haud, hexp, htenantClaim, hcnf, -⟩ := buildBootstrapClaims_ok hbuild
  have hpresented : Presented trustingPlatform ⟨js "kid", fun _ => [1]⟩ ⟨js "https://saas", js "account", none⟩ claims := by
    refine ⟨by decide, List.cons_ne_nil _ _, ⟨(), rfl, rfl⟩, by rw [hiss]; rfl, by rw [haud]; rfl, fun exp hvalue => ?_⟩
    rw [hexp, hexpiry] at hvalue
    cases hvalue
    have hadd := Double.add_intCast (m := 300) (n := 60) (by decide) (by decide)
    change (Double.add (toDouble ((300 : Int) : Rat)) (toDouble ((60 : Int) : Rat))).any (·.le 0) = false
    rw [hadd, Option.any_some]
    unfold Double.le
    rw [toDouble_intCast (by decide)]
    exact decide_eq_false (by norm_num)
  refine ⟨claims, hbuild, hpresented, ?_⟩
  rw [verifyJwt_sign hpresented]
  refine congrArg Except.ok (Option.eq_none_iff_forall_ne_some.mpr fun identity hadmission => ?_)
  obtain ⟨-, hplain, -⟩ := (admitClaims_value hpresented (hsub ▸ hpeer) (htenantClaim ▸ htenant)).mp hadmission
  rw [hcnf] at hplain
  exact absurd hplain.digits (by decide)

end Webchannel.Bootstrap
