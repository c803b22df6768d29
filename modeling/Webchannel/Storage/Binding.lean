import Webchannel.Storage.Credentials

/-!
# The credential binding gate

What a classification of a credential document says, and which documents get one.
-/

namespace Webchannel.Storage

open Register (isValidSubjectToken)

variable {ν : Type} {runtime : Runtime}

/-! ## Identities that can be created -/

/-- What `validateStorageScope` lets pass. -/
structure StorageScope.Valid (scope : StorageScope) : Prop where
  tenant : isValidSubjectToken scope.tenant = true
  accountId : isValidAccountId scope.accountId = true

/-- What `validateBindingFacts` lets pass. -/
structure BindingFacts.Valid (runtime : Runtime) (facts : BindingFacts) : Prop where
  saasBaseUrl : isAbsoluteHttpUrl runtime facts.saasBaseUrl = true
  deliveredIssuer : ∀ issuer, facts.deliveredIssuer = some issuer → nonEmptyAfterTrailingSlash issuer = true
  relayUrl : ∀ relay, facts.relayUrl = some relay → relay ≠ []
  agentPublicKey : isBase64Url32 facts.agentPublicKey = true

theorem validateStorageScope_ok {tenant accountId : Json ν} {scope : StorageScope} :
    validateStorageScope tenant accountId = .ok scope ↔
      scope.Valid ∧ tenant = .str scope.tenant ∧ accountId = .str scope.accountId := by
  unfold validateStorageScope
  dsimp only
  by_cases hvalid : isSubjectToken tenant = true ∧ isAccountId accountId = true
  · obtain ⟨ht, ha⟩ := hvalid
    rw [if_neg (by simp [ht, ha])]
    constructor
    · intro h
      cases h
      cases tenant with
      | str t =>
        cases accountId with
        | str a => exact ⟨⟨ht, ha⟩, rfl, rfl⟩
        | _ => cases ha
      | _ => cases ht
    · rintro ⟨-, rfl, rfl⟩
      rfl
  · rw [if_pos (by simpa using hvalid)]
    refine iff_of_false (fun h => by cases h) ?_
    rintro ⟨h, rfl, rfl⟩
    exact hvalid ⟨h.tenant, h.accountId⟩

theorem isDeliveredIssuer_nullable {issuer : Option JsString} :
    isDeliveredIssuer (nullable issuer : Json ν) = true ↔ ∀ s, issuer = some s → nonEmptyAfterTrailingSlash s = true := by
  cases issuer with
  | none => exact iff_of_true rfl fun s h => by cases h
  | some s =>
    constructor
    · intro h s' hs
      cases hs
      exact h
    · exact fun h => h s rfl

theorem isRelayUrl_nullable {relay : Option JsString} :
    isRelayUrl (nullable relay : Json ν) = true ↔ ∀ s, relay = some s → s ≠ [] := by
  cases relay with
  | none => exact iff_of_true rfl fun s h => by cases h
  | some s =>
    constructor
    · intro h s' hs
      cases hs
      exact of_decide_eq_true h
    · exact fun h => decide_eq_true (h s rfl)

theorem asNullableString_nullable (s : Option JsString) : asNullableString (nullable s : Json ν) = s := by
  cases s <;> rfl

theorem nullable_asNullableString {value : Json ν} (h : isDeliveredIssuer value = true ∨ isRelayUrl value = true) :
    value = nullable (asNullableString value) := by
  cases value with
  | null => rfl
  | str s => rfl
  | _ => obtain h | h := h <;> cases h

theorem validateBindingFacts_ok {saasBaseUrl deliveredIssuer relayUrl agentPublicKey : Json ν} {facts : BindingFacts} :
    validateBindingFacts runtime saasBaseUrl deliveredIssuer relayUrl agentPublicKey = .ok facts ↔
      facts.Valid runtime ∧ saasBaseUrl = .str facts.saasBaseUrl ∧ deliveredIssuer = nullable facts.deliveredIssuer ∧
        relayUrl = nullable facts.relayUrl ∧ agentPublicKey = .str facts.agentPublicKey := by
  unfold validateBindingFacts
  dsimp only
  by_cases hvalid : isSaasBaseUrl runtime saasBaseUrl = true ∧ isDeliveredIssuer deliveredIssuer = true ∧
      isRelayUrl relayUrl = true ∧ isAgentPublicKey agentPublicKey = true
  · obtain ⟨hs, hi, hr, hk⟩ := hvalid
    rw [if_neg (by simp [hs, hi, hr, hk])]
    constructor
    · intro h
      cases h
      have hissuer := nullable_asNullableString (.inl hi)
      have hrelay := nullable_asNullableString (.inr hr)
      cases saasBaseUrl with
      | str s =>
        cases agentPublicKey with
        | str k =>
          refine ⟨⟨hs, ?_, ?_, hk⟩, rfl, hissuer, hrelay, rfl⟩
          · rw [hissuer] at hi
            exact isDeliveredIssuer_nullable.mp hi
          · rw [hrelay] at hr
            exact isRelayUrl_nullable.mp hr
        | _ => cases hk
      | _ => cases hs
    · rintro ⟨-, rfl, rfl, rfl, rfl⟩
      rw [asNullableString_nullable, asNullableString_nullable]
      rfl
  · rw [if_pos (by simpa using hvalid)]
    refine iff_of_false (fun h => by cases h) ?_
    rintro ⟨h, rfl, rfl, rfl, rfl⟩
    exact hvalid ⟨h.saasBaseUrl, isDeliveredIssuer_nullable.mpr h.deliveredIssuer, isRelayUrl_nullable.mpr h.relayUrl,
      h.agentPublicKey⟩

theorem createStorageIdentityV2_ok {scope scope' : StorageScope} :
    createStorageIdentityV2 scope = .ok scope' ↔ scope.Valid ∧ scope' = scope := by
  unfold createStorageIdentityV2
  rw [validateStorageScope_ok]
  constructor
  · rintro ⟨hvalid, ht, ha⟩
    cases scope
    cases scope'
    cases ht
    cases ha
    exact ⟨hvalid, rfl⟩
  · rintro ⟨hvalid, rfl⟩
    exact ⟨hvalid, rfl, rfl⟩

theorem createCredentialBindingIdentityV2_ok {scope : StorageScope} {facts : BindingFacts} {identity : BindingIdentity} :
    createCredentialBindingIdentityV2 runtime scope facts = .ok identity ↔
      scope.Valid ∧ facts.Valid runtime ∧ identity = { storage := scope, binding := facts } := by
  unfold createCredentialBindingIdentityV2
  cases hscope : createStorageIdentityV2 scope with
  | error e =>
    refine iff_of_false (fun h => by cases h) fun ⟨hvalid, _⟩ => ?_
    rw [createStorageIdentityV2_ok.mpr ⟨hvalid, rfl⟩] at hscope
    cases hscope
  | ok scope' =>
    obtain ⟨hscope, rfl⟩ := createStorageIdentityV2_ok.mp hscope
    cases hfacts : validateBindingFacts runtime (.str facts.saasBaseUrl : Json Unit) (nullable facts.deliveredIssuer)
        (nullable facts.relayUrl) (.str facts.agentPublicKey) with
    | error e =>
      refine iff_of_false (fun h => ?_) fun ⟨_, hvalid, _⟩ => ?_
      · cases h
      · rw [validateBindingFacts_ok.mpr ⟨hvalid, rfl, rfl, rfl, rfl⟩] at hfacts
        cases hfacts
    | ok facts' =>
      obtain ⟨hvalid, hs, hi, hr, hk⟩ := validateBindingFacts_ok.mp hfacts
      obtain rfl : facts' = facts := by
        have hi' := congrArg asNullableString hi
        have hr' := congrArg asNullableString hr
        rw [asNullableString_nullable, asNullableString_nullable] at hi' hr'
        cases facts
        cases facts'
        cases hs
        cases hk
        cases hi'
        cases hr'
        rfl
      constructor
      · intro h
        cases h
        exact ⟨hscope, hvalid, rfl⟩
      · rintro ⟨-, -, rfl⟩
        rfl

section gate

variable [JsonIntegers ν] {expected : BindingExpectation} {candidate : Json ν}

/-! ## The identity that is written -/

theorem member_identityValue (identity : BindingIdentity) :
    (identityValue identity : Json ν).member "identityVersion" = some (.num (JsonIntegers.ofNat storageIdentityVersion)) ∧
      (identityValue identity : Json ν).member "storage" =
        some (.obj [textMember "tenant" identity.storage.tenant, textMember "accountId" identity.storage.accountId]) ∧
      (identityValue identity : Json ν).member "binding" = some (.obj
        [textMember "saasBaseUrl" identity.binding.saasBaseUrl,
          (js "deliveredIssuer", nullable identity.binding.deliveredIssuer),
          (js "relayUrl", nullable identity.binding.relayUrl),
          textMember "agentPublicKey" identity.binding.agentPublicKey]) := ⟨rfl, rfl, rfl⟩

theorem requireVersion_identityValue (identity : BindingIdentity) : requireVersion (identityValue identity : Json ν) = .ok () := by
  unfold requireVersion
  rw [(member_identityValue identity).1]
  have hversion : JsonIntegers.safeInteger (JsonIntegers.ofNat storageIdentityVersion : ν) = some 2 :=
    JsonIntegers.safeInteger_ofNat 2 (by decide)
  exact if_pos (decide_eq_true hversion)

/-- An identity is read back as it is written. -/
theorem parse_identityValue {identity : BindingIdentity} (hs : identity.storage.Valid) (hb : identity.binding.Valid runtime) :
    parseCredentialBindingIdentityV2 runtime (identityValue identity : Json ν) = .ok identity := by
  have hstorage : parseStorageScope ((identityValue identity : Json ν).member "storage") = .ok identity.storage :=
    validateStorageScope_ok.mpr ⟨hs, rfl, rfl⟩
  have hbinding : parseBindingFacts runtime ((identityValue identity : Json ν).member "binding") = .ok identity.binding :=
    validateBindingFacts_ok.mpr ⟨hb, rfl, rfl, rfl, rfl⟩
  unfold parseCredentialBindingIdentityV2
  rw [requireVersion_identityValue, hstorage, hbinding]
  rfl

/-! ## Payloads that parse -/

/-- The payload passes every check. -/
structure PayloadOk (runtime : Runtime) (candidate : Json ν) : Prop where
  record : isRecord candidate = true
  fields : payloadFields candidate = []
  derives : runtime.derivePublicKey (Base64.bufferFrom (privateKeyOf candidate)) =
    some (Base64.bufferFrom (publicKeyOf candidate))

/-- What a payload that parses is parsed to. -/
def payloadOf (candidate : Json ν) : ParsedPayload ν where
  document := candidate
  deliveredIssuer := issuerOf candidate
  relayUrl := natsUrlOf candidate
  agentPublicKey := publicKeyOf candidate
  credentials :=
    { userJwt := (stringOf (memberOf (memberOf (enrollmentOf candidate) "creds") "userJwt")).getD []
      userSeed := (stringOf (memberOf (memberOf (enrollmentOf candidate) "creds") "userSeed")).getD []
      natsUrl := natsUrlOf candidate
      issuer := issuerOf candidate
      publicKey := Base64.bufferFrom (publicKeyOf candidate)
      privateKey := Base64.bufferFrom (privateKeyOf candidate) }

omit [JsonIntegers ν] in
theorem parsePayload_ok : (∃ fields, parsePayload runtime candidate = .error fields ∧ ¬ PayloadOk runtime candidate) ∨
    parsePayload runtime candidate = .ok (payloadOf candidate) ∧ PayloadOk runtime candidate := by
  unfold parsePayload
  by_cases hrecord : isRecord candidate = true
  swap
  · rw [if_pos (Bool.eq_false_iff.mpr hrecord)]
    exact .inl ⟨_, rfl, fun h => hrecord h.record⟩
  rw [if_neg (by rw [hrecord]; exact Bool.noConfusion)]
  by_cases hfields : payloadFields candidate = []
  swap
  · rw [if_pos hfields]
    exact .inl ⟨_, rfl, fun h => hfields h.fields⟩
  rw [if_neg (not_not.mpr hfields)]
  dsimp only
  cases hderive : runtime.derivePublicKey (Base64.bufferFrom (privateKeyOf candidate)) with
  | none =>
    refine .inl ⟨_, rfl, fun h => ?_⟩
    rw [h.derives] at hderive
    cases hderive
  | some derived =>
    dsimp only
    by_cases heq : derived = Base64.bufferFrom (publicKeyOf candidate)
    · rw [if_neg (not_not.mpr heq)]
      exact .inr ⟨rfl, hrecord, hfields, by rw [hderive, heq]⟩
    · rw [if_pos heq]
      refine .inl ⟨_, rfl, fun h => ?_⟩
      rw [h.derives] at hderive
      exact heq (Option.some.inj hderive).symm

omit [JsonIntegers ν] in
theorem parsePayload_of_ok (h : PayloadOk runtime candidate) : parsePayload runtime candidate = .ok (payloadOf candidate) := by
  obtain ⟨fields, -, hnot⟩ | ⟨hok, -⟩ := @parsePayload_ok ν runtime candidate
  · exact absurd h hnot
  · exact hok

omit [JsonIntegers ν] in
/-- The checks that the binding of a payload rests on. -/
theorem PayloadOk.checks (h : PayloadOk runtime candidate) :
    isBase64Url32 (publicKeyOf candidate) = true ∧ isBase64Url32 (privateKeyOf candidate) = true ∧ natsUrlOf candidate ≠ [] ∧
      ∀ issuer, issuerOf candidate = some issuer → issuer ≠ [] := by
  have hfields := h.fields
  unfold payloadFields at hfields
  simp only [List.append_eq_nil_iff, fieldUnless_eq_nil, and_assoc] at hfields
  obtain ⟨-, -, -, -, hpublic, hprivate, -, -, -, -, -, -, -, -, -, hissuer, hnats⟩ := hfields
  refine ⟨?_, ?_, ?_, ?_⟩
  · obtain ⟨s, hs, hkey⟩ := (Option.any_eq_true _ _).mp hpublic
    unfold publicKeyOf
    rw [hs]
    exact hkey
  · obtain ⟨s, hs, hkey⟩ := (Option.any_eq_true _ _).mp hprivate
    unfold privateKeyOf
    rw [hs]
    exact hkey
  · obtain ⟨s, hs, hne⟩ := (Option.any_eq_true _ _).mp hnats
    unfold natsUrlOf enrollmentOf
    rw [hs]
    exact of_decide_eq_true hne
  · intro issuer hsome
    unfold issuerOf enrollmentOf at hsome
    obtain hnone | hnonempty := (Bool.or_eq_true _ _).mp hissuer
    · rw [Option.isNone_iff_eq_none.mp hnone] at hsome
      cases hsome
    · obtain ⟨s, hs, hne⟩ := (Option.any_eq_true _ _).mp hnonempty
      rw [hs] at hsome
      cases hsome
      exact of_decide_eq_true hne

/-! ## Classifications -/

/-- The issuer of a payload that passes every check is made of slashes alone. -/
structure SlashIssuer (runtime : Runtime) (candidate : Json ν) : Prop where
  present : hasFutureCredentialIdentityVersion candidate = false
  payload : PayloadOk runtime candidate
  issuer : ∃ issuer, issuerOf candidate = some issuer ∧ stripTrailingSlashes issuer = []

/-- The identity that the gate expects. -/
def expectedIdentity (expected : BindingExpectation) (candidate : Json ν) : BindingIdentity where
  storage := expected.scope
  binding := expectedFacts expected (payloadOf candidate)

omit [JsonIntegers ν] in
theorem expectation_valid (h : ∃ identity, assertValidCredentialBindingExpectation runtime expected = .ok identity) :
    expected.scope.Valid ∧ isAbsoluteHttpUrl runtime expected.saasBaseUrl = true := by
  obtain ⟨identity, h⟩ := h
  obtain ⟨hscope, hfacts, -⟩ := createCredentialBindingIdentityV2_ok.mp h
  exact ⟨hscope, hfacts.saasBaseUrl⟩

omit [JsonIntegers ν] in
theorem expectedFacts_valid (hbase : isAbsoluteHttpUrl runtime expected.saasBaseUrl = true) (h : PayloadOk runtime candidate) :
    (expectedFacts expected (payloadOf candidate)).Valid runtime ↔
      ∀ issuer, issuerOf candidate = some issuer → stripTrailingSlashes issuer ≠ [] := by
  obtain ⟨hpublic, -, hnats, hissuer⟩ := h.checks
  constructor
  · intro hvalid issuer hsome
    exact (of_decide_eq_true (hvalid.deliveredIssuer issuer hsome)).2
  · intro hstrip
    refine ⟨hbase, fun issuer hsome => decide_eq_true ⟨hissuer issuer hsome, hstrip issuer hsome⟩, ?_, hpublic⟩
    intro relay hrelay
    cases hrelay
    exact hnats

omit [JsonIntegers ν] in
theorem validateStorageScope_error {tenant accountId : Json ν} {e : ContractError}
    (h : validateStorageScope tenant accountId = .error e) : e.code = .invalidField := by
  unfold validateStorageScope at h
  dsimp only at h
  split at h
  · cases h
    rfl
  · cases h

omit [JsonIntegers ν] in
theorem validateBindingFacts_error {a b c d : Json ν} {e : ContractError}
    (h : validateBindingFacts runtime a b c d = .error e) : e.code = .invalidField := by
  unfold validateBindingFacts at h
  dsimp only at h
  split at h
  · cases h
    rfl
  · cases h

omit [JsonIntegers ν] in
theorem parseStorageScope_error {value : Option (Json ν)} {e : ContractError} (h : parseStorageScope value = .error e) :
    e.code ≠ .versionTooNew := by
  unfold parseStorageScope at h
  split at h
  · cases h
    exact fun h => by cases h
  · split at h
    · cases h
      exact fun h => by cases h
    · split at h
      · rw [validateStorageScope_error h]
        exact fun h => by cases h
      · cases h
        exact fun h => by cases h

omit [JsonIntegers ν] in
theorem parseBindingFacts_error {value : Option (Json ν)} {e : ContractError} (h : parseBindingFacts runtime value = .error e) :
    e.code ≠ .versionTooNew := by
  unfold parseBindingFacts at h
  split at h
  · cases h
    exact fun h => by cases h
  · split at h
    · cases h
      exact fun h => by cases h
    · split at h
      · rw [validateBindingFacts_error h]
        exact fun h => by cases h
      · cases h
        exact fun h => by cases h

/-- Only the version itself makes an identity too new. -/
theorem version_of_error {value : Json ν} {e : ContractError} (h : parseCredentialBindingIdentityV2 runtime value = .error e)
    (hcode : e.code = .versionTooNew) : isRecord value = true ∧ isFutureVersion 2 (value.member "identityVersion") = true := by
  unfold parseCredentialBindingIdentityV2 at h
  cases hrecord : requireRecord value with
  | error e' =>
    rw [hrecord] at h
    cases h
    unfold requireRecord at hrecord
    split_ifs at hrecord <;> cases hrecord <;> cases hcode
  | ok u =>
    rw [hrecord] at h
    have hisRecord : isRecord value = true := by
      unfold requireRecord at hrecord
      split_ifs at hrecord with hnot
      exact Bool.not_eq_false _ ▸ hnot
    refine ⟨hisRecord, ?_⟩
    cases hversion : requireVersion value with
    | error e' =>
      rw [hversion] at h
      cases h
      unfold requireVersion at hversion
      split_ifs at hversion with hsame hfuture
      · exact hfuture
      · cases hversion
        cases hcode
    | ok u =>
      rw [hversion] at h
      cases hstorage : parseStorageScope (value.member "storage") with
      | error e' =>
        rw [hstorage] at h
        cases h
        exact absurd hcode (parseStorageScope_error hstorage)
      | ok scope =>
        rw [hstorage] at h
        cases hbinding : parseBindingFacts runtime (value.member "binding") with
        | error e' =>
          dsimp only [Bind.bind, Except.bind] at h
          rw [hbinding] at h
          cases h
          exact absurd hcode (parseBindingFacts_error hbinding)
        | ok facts =>
          dsimp only [Bind.bind, Except.bind] at h
          rw [hbinding] at h
          cases h

/-- The identity that the document carries. -/
def rawIdentity (candidate : Json ν) : Json ν := (candidate.member "credentialIdentity").getD (.obj [])

/-- What the expected identity is compared with. -/
def compared (runtime : Runtime) (expected : BindingExpectation) (candidate : Json ν) : IdentityInspection :=
  match parseCredentialBindingIdentityV2 runtime (rawIdentity candidate) with
  | .error error => error.inspection
  | .ok persisted =>
    mismatchOrMatch (storageMismatches expected.scope persisted.storage ++
      bindingMismatches (expectedFacts expected (payloadOf candidate)) persisted.binding)

def endpointsOf (saasBaseUrl : JsString) : EnrollmentEndpoints where
  saasEnrollUrl := stripTrailingSlashes saasBaseUrl ++ js "/api/enroll"
  saasPollUrl := stripTrailingSlashes saasBaseUrl ++ js "/api/poll"

/-- The evaluation of a payload whose identity can be created. -/
def evaluationOf (runtime : Runtime) (expected : BindingExpectation) (candidate : Json ν) : Evaluation ν :=
  match compared runtime expected candidate with
  | .match =>
    match payloadMismatches expected (endpointsOf expected.saasBaseUrl) candidate with
    | [] => .matched (payloadOf candidate) (expectedIdentity expected candidate)
    | fields => .refused (.mismatch fields)
  | inspection => .refused (fromIdentityInspection inspection)

theorem evaluate_eq (hscope : expected.scope.Valid) (hbase : isAbsoluteHttpUrl runtime expected.saasBaseUrl = true)
    (hpresent : hasFutureCredentialIdentityVersion candidate = false) (hpayload : PayloadOk runtime candidate)
    (hvalid : (expectedFacts expected (payloadOf candidate)).Valid runtime) :
    evaluateCredentialDocument runtime expected candidate = .ok (evaluationOf runtime expected candidate) := by
  have hcreate : createCredentialBindingIdentityV2 runtime expected.scope (expectedFacts expected (payloadOf candidate)) =
      .ok (expectedIdentity expected candidate) := createCredentialBindingIdentityV2_ok.mpr ⟨hscope, hvalid, rfl⟩
  have hinspect : inspectCredentialBindingIdentityV2 runtime (expectedIdentity expected candidate) (rawIdentity candidate) =
      .ok (compared runtime expected candidate) := by
    unfold inspectCredentialBindingIdentityV2 compared
    rw [show createCredentialBindingIdentityV2 runtime (expectedIdentity expected candidate).storage
      (expectedIdentity expected candidate).binding = _ from hcreate]
    dsimp only [Bind.bind, Except.bind]
    cases parseCredentialBindingIdentityV2 runtime (rawIdentity candidate) <;> rfl
  have hendpoints : deriveEnrollmentEndpoints runtime expected.saasBaseUrl = .ok (endpointsOf expected.saasBaseUrl) := by
    unfold deriveEnrollmentEndpoints
    rw [if_neg (by rw [hbase]; exact Bool.noConfusion)]
    rfl
  unfold evaluateCredentialDocument
  rw [hpresent, parsePayload_of_ok hpayload]
  dsimp only [Bool.false_eq_true, if_false]
  rw [hcreate]
  dsimp only [uncaught, Bind.bind, Except.bind]
  rw [show (candidate.member "credentialIdentity").getD (.obj []) = rawIdentity candidate from rfl, hinspect]
  unfold evaluationOf
  cases compared runtime expected candidate with
  | «match» =>
    dsimp only
    rw [hendpoints]
    dsimp only
    rw [show (payloadOf candidate).document = candidate from rfl]
    cases payloadMismatches expected (endpointsOf expected.saasBaseUrl) candidate <;> rfl
  | _ => rfl

/-- An issuer of slashes makes the expected identity throw. -/
theorem evaluate_slash (hbase : isAbsoluteHttpUrl runtime expected.saasBaseUrl = true) (h : SlashIssuer runtime candidate) :
    ∃ e, evaluateCredentialDocument runtime expected candidate = .error e := by
  unfold evaluateCredentialDocument
  rw [h.present, parsePayload_of_ok h.payload]
  dsimp only [Bool.false_eq_true, if_false]
  cases hcreate : createCredentialBindingIdentityV2 runtime expected.scope (expectedFacts expected (payloadOf candidate)) with
  | error e => exact ⟨.contract e, rfl⟩
  | ok identity =>
    obtain ⟨issuer, hissuer, hstrip⟩ := h.issuer
    have hvalid := (createCredentialBindingIdentityV2_ok.mp hcreate).2.1
    exact absurd hstrip ((expectedFacts_valid hbase h.payload).mp hvalid issuer hissuer)

/-- The document agrees with the expectation, and its identity with both. -/
structure Matches (runtime : Runtime) (expected : BindingExpectation) (candidate : Json ν) : Prop where
  tenant : stringOf (candidate.member "tenant") = some expected.tenant
  accountId : stringOf (candidate.member "accountId") = some expected.accountId
  enrollUrl : stringOf (candidate.member "saasEnrollUrl") = some (stripTrailingSlashes expected.saasBaseUrl ++ js "/api/enroll")
  pollUrl : stringOf (candidate.member "saasPollUrl") = some (stripTrailingSlashes expected.saasBaseUrl ++ js "/api/poll")
  identity : ∃ value persisted, candidate.member "credentialIdentity" = some value ∧
    parseCredentialBindingIdentityV2 runtime value = .ok persisted ∧ persisted.storage = expected.scope ∧
    stripTrailingSlashes persisted.binding.saasBaseUrl = stripTrailingSlashes expected.saasBaseUrl ∧
    persisted.binding.deliveredIssuer.map stripTrailingSlashes = (issuerOf candidate).map stripTrailingSlashes ∧
    persisted.binding.relayUrl = some (natsUrlOf candidate) ∧ persisted.binding.agentPublicKey = publicKeyOf candidate

theorem compared_match : compared runtime expected candidate = .match ↔
    ∃ persisted, parseCredentialBindingIdentityV2 runtime (rawIdentity candidate) = .ok persisted ∧
      persisted.storage = expected.scope ∧
      stripTrailingSlashes persisted.binding.saasBaseUrl = stripTrailingSlashes expected.saasBaseUrl ∧
      persisted.binding.deliveredIssuer.map stripTrailingSlashes = (issuerOf candidate).map stripTrailingSlashes ∧
      persisted.binding.relayUrl = some (natsUrlOf candidate) ∧ persisted.binding.agentPublicKey = publicKeyOf candidate := by
  unfold compared
  cases hparse : parseCredentialBindingIdentityV2 runtime (rawIdentity candidate) with
  | error e =>
    refine iff_of_false (fun h => ?_) fun ⟨_, h, _⟩ => by cases h
    dsimp only [ContractError.inspection] at h
    split at h <;> cases h
  | ok persisted =>
    have hempty : mismatchOrMatch (storageMismatches expected.scope persisted.storage ++
        bindingMismatches (expectedFacts expected (payloadOf candidate)) persisted.binding) = .match ↔
        storageMismatches expected.scope persisted.storage ++
          bindingMismatches (expectedFacts expected (payloadOf candidate)) persisted.binding = [] := by
      unfold mismatchOrMatch
      split_ifs with h
      · exact iff_of_true rfl h
      · exact iff_of_false (fun h => by cases h) h
    dsimp only
    rw [hempty]
    unfold storageMismatches bindingMismatches nullableTrailingSlashEqual
    simp only [List.append_eq_nil_iff, fieldUnless_eq_nil, decide_eq_true_eq, and_assoc]
    constructor
    · rintro ⟨ht, ha, hs, hi, hr, hk⟩
      refine ⟨persisted, rfl, ?_, hs.symm, hi.symm, hr.symm, hk.symm⟩
      cases hstorage : persisted.storage
      rw [hstorage] at ht ha
      exact congrArg₂ StorageScope.mk ht.symm ha.symm
    · rintro ⟨persisted', h, hscope, hs, hi, hr, hk⟩
      cases h
      rw [hscope]
      exact ⟨rfl, rfl, hs.symm, hi.symm, hr.symm, hk.symm⟩

omit [JsonIntegers ν] in
theorem payloadMismatches_nil : payloadMismatches expected (endpointsOf expected.saasBaseUrl) candidate = [] ↔
    stringOf (candidate.member "tenant") = some expected.tenant ∧
      stringOf (candidate.member "accountId") = some expected.accountId ∧
      stringOf (candidate.member "saasEnrollUrl") = some (stripTrailingSlashes expected.saasBaseUrl ++ js "/api/enroll") ∧
      stringOf (candidate.member "saasPollUrl") = some (stripTrailingSlashes expected.saasBaseUrl ++ js "/api/poll") := by
  unfold payloadMismatches endpointsOf
  simp only [List.append_eq_nil_iff, fieldUnless_eq_nil, decide_eq_true_eq, and_assoc]

theorem parse_rawIdentity {persisted : BindingIdentity}
    (h : parseCredentialBindingIdentityV2 runtime (rawIdentity candidate) = .ok persisted) :
    candidate.member "credentialIdentity" = some (rawIdentity candidate) := by
  unfold rawIdentity at h ⊢
  cases hmember : candidate.member "credentialIdentity" with
  | some value => rfl
  | none =>
    rw [hmember] at h
    cases h

theorem matches_iff : Matches runtime expected candidate ↔
    compared runtime expected candidate = .match ∧
      payloadMismatches expected (endpointsOf expected.saasBaseUrl) candidate = [] := by
  rw [compared_match, payloadMismatches_nil]
  constructor
  · intro h
    obtain ⟨value, persisted, hvalue, hparse, hrest⟩ := h.identity
    have hraw : rawIdentity candidate = value := by
      unfold rawIdentity
      rw [hvalue]
      rfl
    exact ⟨⟨persisted, by rw [hraw]; exact hparse, hrest⟩, h.tenant, h.accountId, h.enrollUrl, h.pollUrl⟩
  · rintro ⟨⟨persisted, hparse, hrest⟩, ht, ha, he, hp⟩
    exact ⟨ht, ha, he, hp, _, persisted, parse_rawIdentity hparse, hparse, hrest⟩

/-- The gate opens for the documents that match. -/
theorem evaluationOf_matched {payload : ParsedPayload ν} {identity : BindingIdentity} :
    evaluationOf runtime expected candidate = .matched payload identity ↔
      payload = payloadOf candidate ∧ identity = expectedIdentity expected candidate ∧ Matches runtime expected candidate := by
  rw [matches_iff]
  unfold evaluationOf
  cases hcompared : compared runtime expected candidate with
  | «match» =>
    dsimp only
    cases hfields : payloadMismatches expected (endpointsOf expected.saasBaseUrl) candidate with
    | nil =>
      constructor
      · intro h
        cases h
        exact ⟨rfl, rfl, rfl, rfl⟩
      · rintro ⟨rfl, rfl, -⟩
        rfl
    | cons field fields => exact iff_of_false (fun h => by cases h) fun ⟨_, _, _, h⟩ => by cases h
  | _ => exact iff_of_false (fun h => by cases h) fun ⟨_, _, h, _⟩ => by cases h

/-- An identity that is there but not too new is not reported as too new. -/
theorem evaluationOf_present (hpresent : hasFutureCredentialIdentityVersion candidate = false) (fields : List DocumentField) :
    evaluationOf runtime expected candidate ≠ .refused (.invalid (.identity .versionTooNew) fields) := by
  intro h
  unfold evaluationOf at h
  cases hcompared : compared runtime expected candidate with
  | «match» =>
    rw [hcompared] at h
    dsimp only at h
    split at h <;> cases h
  | invalid code fields' =>
    rw [hcompared] at h
    cases h
    unfold compared at hcompared
    cases hparse : parseCredentialBindingIdentityV2 runtime (rawIdentity candidate) with
    | ok persisted =>
      rw [hparse] at hcompared
      dsimp only [mismatchOrMatch] at hcompared
      split at hcompared <;> cases hcompared
    | error e =>
      rw [hparse] at hcompared
      dsimp only [ContractError.inspection] at hcompared
      have hcode : e.code = .versionTooNew := by
        split at hcompared
        · cases hcompared
        · cases hcompared
        · injection hcompared
      obtain ⟨hrecord, hfuture⟩ := version_of_error hparse hcode
      have hmember : hasFutureCredentialIdentityVersion candidate = true := by
        unfold hasFutureCredentialIdentityVersion asRecord
        unfold rawIdentity at hrecord hfuture
        cases hmember : candidate.member "credentialIdentity" with
        | none =>
          rw [hmember] at hfuture
          cases hfuture
        | some value =>
          rw [hmember] at hrecord hfuture
          rw [Option.filter_some_pos (show isRecord value = true from hrecord)]
          exact hfuture
      rw [hmember] at hpresent
      cases hpresent
  | _ =>
    rw [hcompared] at h
    cases h

/-- What an evaluation that is there says about its document. -/
theorem evaluate_ok {evaluation : Evaluation ν} (h : evaluateCredentialDocument runtime expected candidate = .ok evaluation) :
    hasFutureCredentialIdentityVersion candidate = true ∧
        evaluation = .refused (.invalid (.identity .versionTooNew) [.binding .identityVersion]) ∨
      hasFutureCredentialIdentityVersion candidate = false ∧
        ((∃ fields, evaluation = .refused (.invalid .invalidDocument fields)) ∨
          PayloadOk runtime candidate ∧ expected.scope.Valid ∧ (expectedFacts expected (payloadOf candidate)).Valid runtime ∧
            evaluation = evaluationOf runtime expected candidate) := by
  cases hfuture : hasFutureCredentialIdentityVersion candidate with
  | true =>
    unfold evaluateCredentialDocument at h
    rw [hfuture] at h
    cases h
    exact .inl ⟨rfl, rfl⟩
  | false =>
    refine .inr ⟨rfl, ?_⟩
    obtain ⟨fields, hparse, -⟩ | ⟨hparse, hpayload⟩ := @parsePayload_ok ν runtime candidate
    · unfold evaluateCredentialDocument at h
      rw [hfuture, hparse] at h
      cases h
      exact .inl ⟨_, rfl⟩
    · refine .inr ⟨hpayload, ?_⟩
      cases hcreate : createCredentialBindingIdentityV2 runtime expected.scope (expectedFacts expected (payloadOf candidate)) with
      | error e =>
        unfold evaluateCredentialDocument at h
        rw [hfuture, hparse] at h
        dsimp only [Bool.false_eq_true, if_false] at h
        rw [hcreate] at h
        cases h
      | ok identity =>
        obtain ⟨hscope, hvalid, -⟩ := createCredentialBindingIdentityV2_ok.mp hcreate
        rw [evaluate_eq hscope hvalid.saasBaseUrl hfuture hpayload hvalid] at h
        cases h
        exact ⟨hscope, hvalid, rfl⟩

/-! ## The gate -/

def LoadResult.inspection : LoadResult ν → DocumentInspection
  | .matched _ _ => .match
  | .refused inspection => inspection

/-- What the two entry points promise of a document. -/
structure Gate (runtime : Runtime) (expected : BindingExpectation) (candidate : Json ν) : Prop where
  inspects : ∃ inspection, inspectCredentialDocument runtime expected candidate = .ok inspection
  loads : hasFutureCredentialIdentityVersion candidate = false →
    ∃ result, loadBoundCredentialDocument runtime expected candidate = .ok result
  tooNew : hasFutureCredentialIdentityVersion candidate = true →
    loadBoundCredentialDocument runtime expected candidate = .error (.document .versionTooNew []) ∧
      inspectCredentialDocument runtime expected candidate = .ok (.invalid (.identity .versionTooNew) [.binding .identityVersion])
  agree : ∀ result, loadBoundCredentialDocument runtime expected candidate = .ok result →
    inspectCredentialDocument runtime expected candidate = .ok result.inspection
  bound : ∀ document credentials, loadBoundCredentialDocument runtime expected candidate = .ok (.matched document credentials) →
    Matches runtime expected candidate ∧ PayloadOk runtime candidate ∧ credentials = (payloadOf candidate).credentials

/-- The document that a match returns. -/
def loadedDocument (candidate : Json ν) (identity : BindingIdentity) : Json ν :=
  (candidate.setMember "enrollment" ((candidate.member "enrollment").getD .null)).setMember "credentialIdentity"
    (identityValue identity)

/-- What is loaded of an evaluation that is not too new. -/
def Evaluation.loaded : Evaluation ν → LoadResult ν
  | .refused inspection => .refused inspection
  | .matched payload identity => .matched (loadedDocument payload.document identity) payload.credentials

theorem load_eq {evaluation : Evaluation ν} (h : evaluateCredentialDocument runtime expected candidate = .ok evaluation) :
    hasFutureCredentialIdentityVersion candidate = true ∧
        loadBoundCredentialDocument runtime expected candidate = .error (.document .versionTooNew []) ∨
      hasFutureCredentialIdentityVersion candidate = false ∧
        loadBoundCredentialDocument runtime expected candidate = .ok evaluation.loaded := by
  obtain ⟨hfuture, rfl⟩ | ⟨hpresent, hcase⟩ := evaluate_ok h
  · refine .inl ⟨hfuture, ?_⟩
    unfold loadBoundCredentialDocument
    rw [h]
    rfl
  · refine .inr ⟨hpresent, ?_⟩
    unfold loadBoundCredentialDocument
    rw [h]
    dsimp only [Bind.bind, Except.bind]
    obtain ⟨fields, rfl⟩ | ⟨hpayload, -, -, heval⟩ := hcase
    · rfl
    · cases evaluation with
      | matched payload identity => rfl
      | refused inspection =>
        split
        · rename_i fields heq
          cases heq
          exact absurd heval.symm (evaluationOf_present hpresent fields)
        · rename_i heq
          cases heq
          rfl
        · rename_i heq
          cases heq

/-- The gate holds of every document whose evaluation does not throw. -/
theorem gate_of_evaluate {evaluation : Evaluation ν}
    (h : evaluateCredentialDocument runtime expected candidate = .ok evaluation) : Gate runtime expected candidate := by
  have hinspect : inspectCredentialDocument runtime expected candidate = .ok evaluation.inspection := by
    unfold inspectCredentialDocument
    rw [h]
    rfl
  have hload := load_eq h
  refine ⟨⟨_, hinspect⟩, ?_, ?_, ?_, ?_⟩
  · intro hpresent
    obtain ⟨hfuture, -⟩ | ⟨-, hload⟩ := hload
    · rw [hfuture] at hpresent
      cases hpresent
    · exact ⟨_, hload⟩
  · intro hfuture
    obtain ⟨-, hload⟩ | ⟨hpresent, -⟩ := hload
    · obtain ⟨-, rfl⟩ | ⟨hpresent, -⟩ := evaluate_ok h
      · exact ⟨hload, hinspect⟩
      · rw [hfuture] at hpresent
        cases hpresent
    · rw [hfuture] at hpresent
      cases hpresent
  · intro result hresult
    obtain ⟨-, hload⟩ | ⟨-, hload⟩ := hload
    · rw [hload] at hresult
      cases hresult
    · rw [hload] at hresult
      cases hresult
      rw [hinspect]
      cases evaluation <;> rfl
  · intro document credentials hresult
    obtain ⟨-, hload⟩ | ⟨-, hload⟩ := hload
    · rw [hload] at hresult
      cases hresult
    · rw [hload] at hresult
      cases evaluation with
      | refused inspection => cases hresult
      | matched payload identity =>
        cases hresult
        obtain ⟨-, hrefused⟩ | ⟨-, ⟨fields, hrefused⟩ | ⟨hpayload, -, -, heval⟩⟩ := evaluate_ok h
        · cases hrefused
        · cases hrefused
        · obtain ⟨rfl, -, hmatches⟩ := evaluationOf_matched.mp heval.symm
          exact ⟨hmatches, hpayload, rfl⟩

/-! ## The upgrade -/

omit [JsonIntegers ν] in
/-- Two documents with the same members beside the identity have the same payload. -/
theorem payload_congr {a b : Json ν} (h : ∀ name, js name ≠ js "credentialIdentity" → a.member name = b.member name) :
    payloadFields a = payloadFields b ∧ publicKeyOf a = publicKeyOf b ∧ privateKeyOf a = privateKeyOf b ∧
      enrollmentOf a = enrollmentOf b := by
  have hkey := h "identityKey" (by decide)
  have henrollment := h "enrollment" (by decide)
  unfold payloadFields publicKeyOf privateKeyOf enrollmentOf
  dsimp only
  rw [hkey, henrollment, h "tenant" (by decide), h "accountId" (by decide), h "saasEnrollUrl" (by decide),
    h "saasPollUrl" (by decide)]
  exact ⟨rfl, rfl, rfl, rfl⟩

omit [JsonIntegers ν] in
theorem enrollment_isSome (h : PayloadOk runtime candidate) : (candidate.member "enrollment").isSome = true := by
  have hfields := h.fields
  unfold payloadFields at hfields
  simp only [List.append_eq_nil_iff, fieldUnless_eq_nil, and_assoc] at hfields
  obtain ⟨-, -, -, -, -, -, hsome, -⟩ := hfields
  obtain ⟨e, he⟩ := Option.isSome_iff_exists.mp hsome
  rw [(Option.filter_eq_some_iff.mp he).1]
  rfl

/-- A loaded document differs from what was loaded in its identity alone. -/
theorem lookup_loadedDocument {identity : BindingIdentity} (hrecord : isRecord candidate = true)
    (hsome : (candidate.member "enrollment").isSome = true) {key : JsString} (hkey : key ≠ js "credentialIdentity") :
    (loadedDocument candidate identity).lookup key = candidate.lookup key := by
  unfold loadedDocument
  rw [Json.lookup_setMember_of_ne _ hkey]
  by_cases henrollment : key = js "enrollment"
  · subst henrollment
    obtain ⟨e, he⟩ := Option.isSome_iff_exists.mp hsome
    cases candidate with
    | obj l =>
      rw [← Json.member_eq_lookup, ← Json.member_eq_lookup, Json.member_setMember_self, he]
      rfl
    | _ => cases hrecord
  · exact Json.lookup_setMember_of_ne _ henrollment _

omit [JsonIntegers ν] in
theorem isRecord_setMember (name : String) (x : Json ν) (h : isRecord candidate = true) :
    isRecord (candidate.setMember name x) = true := by
  cases candidate with
  | obj l => rfl
  | _ => cases h

/-- A loaded document loads again. -/
theorem evaluate_loadedDocument {payload : ParsedPayload ν} {identity : BindingIdentity}
    (h : evaluateCredentialDocument runtime expected candidate = .ok (.matched payload identity)) :
    ∃ payload' identity', evaluateCredentialDocument runtime expected (loadedDocument candidate identity) =
      .ok (.matched payload' identity') := by
  obtain ⟨-, hrefused⟩ | ⟨-, ⟨fields, hrefused⟩ | ⟨hpayload, hscope, hvalid, heval⟩⟩ := evaluate_ok h
  · cases hrefused
  · cases hrefused
  obtain ⟨rfl, rfl, hmatches⟩ := evaluationOf_matched.mp heval.symm
  have hsame : ∀ name, js name ≠ js "credentialIdentity" →
      (loadedDocument candidate (expectedIdentity expected candidate)).member name = candidate.member name := by
    intro name hname
    rw [Json.member_eq_lookup, Json.member_eq_lookup]
    exact lookup_loadedDocument hpayload.record (enrollment_isSome hpayload) hname
  have hidentity : (loadedDocument candidate (expectedIdentity expected candidate)).member "credentialIdentity" =
      some (identityValue (expectedIdentity expected candidate)) := by
    unfold loadedDocument
    have hrecord := isRecord_setMember "enrollment" ((candidate.member "enrollment").getD .null) hpayload.record
    cases hobj : candidate.setMember "enrollment" ((candidate.member "enrollment").getD .null) with
    | obj l => exact Json.member_setMember_self _ _
    | _ =>
      rw [hobj] at hrecord
      cases hrecord
  obtain ⟨hfields, hpublic, hprivate, henrollment⟩ := payload_congr hsame
  have hissuer : issuerOf (loadedDocument candidate (expectedIdentity expected candidate)) = issuerOf candidate := by
    unfold issuerOf
    rw [henrollment]
  have hnats : natsUrlOf (loadedDocument candidate (expectedIdentity expected candidate)) = natsUrlOf candidate := by
    unfold natsUrlOf
    rw [henrollment]
  have hpresent : hasFutureCredentialIdentityVersion (loadedDocument candidate (expectedIdentity expected candidate)) = false := by
    unfold hasFutureCredentialIdentityVersion
    rw [hidentity]
    have hversion : JsonIntegers.safeInteger (JsonIntegers.ofNat storageIdentityVersion : ν) = some 2 :=
      JsonIntegers.safeInteger_ofNat 2 (by decide)
    have hfuture : isFutureVersion (storageIdentityVersion : Int)
        (some (.num (JsonIntegers.ofNat storageIdentityVersion : ν))) = false := by
      unfold isFutureVersion
      dsimp only
      rw [hversion]
      rfl
    exact hfuture
  have hpayload' : PayloadOk runtime (loadedDocument candidate (expectedIdentity expected candidate)) :=
    { record := isRecord_setMember _ _ (isRecord_setMember _ _ hpayload.record)
      fields := hfields.trans hpayload.fields
      derives := by
        rw [hpublic, hprivate]
        exact hpayload.derives }
  have hfacts : expectedFacts expected (payloadOf (loadedDocument candidate (expectedIdentity expected candidate))) =
      expectedFacts expected (payloadOf candidate) := by
    unfold expectedFacts payloadOf
    dsimp only
    rw [hissuer, hnats, hpublic]
  have hmatches' : Matches runtime expected (loadedDocument candidate (expectedIdentity expected candidate)) :=
    { tenant := by rw [hsame _ (by decide)]; exact hmatches.tenant
      accountId := by rw [hsame _ (by decide)]; exact hmatches.accountId
      enrollUrl := by rw [hsame _ (by decide)]; exact hmatches.enrollUrl
      pollUrl := by rw [hsame _ (by decide)]; exact hmatches.pollUrl
      identity := by
        refine ⟨_, expectedIdentity expected candidate, hidentity, parse_identityValue hscope hvalid, rfl, rfl, ?_, ?_, ?_⟩
        · rw [hissuer]
          rfl
        · rw [hnats]
          rfl
        · rw [hpublic]
          rfl }
  exact ⟨_, _, (evaluate_eq hscope hvalid.saasBaseUrl hpresent hpayload' (hfacts ▸ hvalid)).trans
    (congrArg Except.ok (evaluationOf_matched.mpr ⟨rfl, rfl, hmatches'⟩))⟩

/-- What the upgrade promises of the document it returns. -/
structure Upgraded (runtime : Runtime) (scope : StorageScope) (candidate document : Json ν) : Prop where
  loads : ∃ saasEnrollUrl loaded credentials, stringOf (candidate.member "saasEnrollUrl") = some saasEnrollUrl ∧
    loadBoundCredentialDocument runtime (upgradeExpectation scope saasEnrollUrl) document = .ok (.matched loaded credentials)
  keeps : ∀ key, key ≠ js "credentialIdentity" → document.lookup key = candidate.lookup key
  explicit : ∀ identity, candidate.member "credentialIdentity" = some identity → document = candidate

theorem load_matched {document : Json ν} {credentials : EnrolledCreds}
    (h : loadBoundCredentialDocument runtime expected candidate = .ok (.matched document credentials)) :
    ∃ payload identity, evaluateCredentialDocument runtime expected candidate = .ok (.matched payload identity) ∧
      document = loadedDocument candidate identity ∧ PayloadOk runtime candidate := by
  cases heval : evaluateCredentialDocument runtime expected candidate with
  | error e =>
    unfold loadBoundCredentialDocument at h
    rw [heval] at h
    cases h
  | ok evaluation =>
    obtain ⟨-, hload⟩ | ⟨-, hload⟩ := load_eq heval
    · rw [hload] at h
      cases h
    · rw [hload] at h
      cases evaluation with
      | refused inspection => cases h
      | matched payload identity =>
        cases h
        obtain ⟨-, hrefused⟩ | ⟨-, ⟨fields, hrefused⟩ | ⟨hpayload, -, -, hmatched⟩⟩ := evaluate_ok heval
        · cases hrefused
        · cases hrefused
        · obtain ⟨rfl, -, -⟩ := evaluationOf_matched.mp hmatched.symm
          exact ⟨_, _, rfl, rfl, hpayload⟩

theorem upgraded {scope : StorageScope} {document : Json ν}
    (h : upgradeLegacyCredentialDocument runtime scope candidate = .ok document) : Upgraded runtime scope candidate document := by
  unfold upgradeLegacyCredentialDocument at h
  by_cases hrecord : isRecord candidate = false
  · rw [if_pos hrecord] at h
    cases h
  by_cases hfuture : hasFutureCredentialIdentityVersion candidate = true
  · rw [if_neg hrecord, if_pos hfuture] at h
    cases h
  by_cases hproves : legacyCredentialProvesScope scope candidate = false
  · rw [if_neg hrecord, if_neg hfuture, if_pos hproves] at h
    cases h
  rw [if_neg hrecord, if_neg hfuture, if_neg hproves] at h
  split at h
  · cases h
  rename_i saasEnrollUrl hurl
  have hurl := (Option.filter_eq_some_iff.mp hurl).1
  cases hdocument : upgradeCandidate runtime scope saasEnrollUrl candidate with
  | error e =>
    rw [hdocument] at h
    cases h
  | ok document' =>
    rw [hdocument] at h
    cases hload : loadBoundCredentialDocument runtime (upgradeExpectation scope saasEnrollUrl) document' with
    | error e =>
      dsimp only [Bind.bind, Except.bind] at h
      rw [hload] at h
      cases h
    | ok result =>
      dsimp only [Bind.bind, Except.bind] at h
      rw [hload] at h
      cases result with
      | refused inspection => cases h
      | matched loaded credentials =>
        cases hmember : candidate.member "credentialIdentity" with
        | some identity =>
          rw [hmember] at h
          cases h
          unfold upgradeCandidate at hdocument
          rw [hmember] at hdocument
          dsimp only at hdocument
          cases hassert : assertCredentialDocumentStorage scope candidate with
          | error e =>
            rw [hassert] at hdocument
            cases hdocument
          | ok u =>
            rw [hassert] at hdocument
            cases hdocument
            exact ⟨⟨_, _, _, hurl, hload⟩, fun _ _ => rfl, fun _ _ => rfl⟩
        | none =>
          rw [hmember] at h
          cases h
          obtain ⟨payload, identity, heval, rfl, hpayload⟩ := load_matched hload
          obtain ⟨payload', identity', hagain⟩ := evaluate_loadedDocument heval
          have hkeeps : ∀ key, key ≠ js "credentialIdentity" → document'.lookup key = candidate.lookup key := by
            unfold upgradeCandidate at hdocument
            rw [hmember] at hdocument
            dsimp only at hdocument
            split at hdocument
            · rename_i publicKey natsUrl _ _
              cases hcreate : createCredentialBindingIdentityV2 runtime scope
                  { saasBaseUrl := enrollmentBaseUrl saasEnrollUrl, deliveredIssuer := issuerOf candidate,
                    relayUrl := some natsUrl, agentPublicKey := publicKey } with
              | error e =>
                rw [hcreate] at hdocument
                cases hdocument
              | ok created =>
                rw [hcreate] at hdocument
                cases hdocument
                intro key hkey
                exact Json.lookup_setMember_of_ne _ hkey _
            · cases hdocument
          have hreload : ∃ loaded credentials, loadBoundCredentialDocument runtime (upgradeExpectation scope saasEnrollUrl)
              (loadedDocument document' identity) = .ok (.matched loaded credentials) := by
            obtain ⟨hfuture', -⟩ | ⟨-, hloaded⟩ := load_eq hagain
            · obtain ⟨-, hmatched⟩ | ⟨hpresent, -⟩ := evaluate_ok hagain
              · cases hmatched
              · rw [hfuture'] at hpresent
                cases hpresent
            · exact ⟨_, _, hloaded⟩
          obtain ⟨loaded, credentials', hreload⟩ := hreload
          refine ⟨⟨_, loaded, credentials', hurl, hreload⟩, fun key hkey => ?_, fun identity h => ?_⟩
          · exact (lookup_loadedDocument hpayload.record (enrollment_isSome hpayload) hkey).trans (hkeeps key hkey)
          · rw [hmember] at h
            cases h

/-! ## Which documents are classified -/

/-- Of a valid expectation the gate and the upgrade keep their promises on every document, but for one whose
issuer is made of slashes alone. -/
theorem gate_iff (hexpected : ∃ identity, assertValidCredentialBindingExpectation runtime expected = .ok identity) :
    (Gate runtime expected candidate ∧
        ∀ scope document, upgradeLegacyCredentialDocument runtime scope candidate = .ok document →
          Upgraded runtime scope candidate document) ↔
      ¬ SlashIssuer runtime candidate := by
  obtain ⟨hscope, hbase⟩ := expectation_valid hexpected
  constructor
  · rintro ⟨hgate, -⟩ hslash
    obtain ⟨e, he⟩ := evaluate_slash hbase hslash
    obtain ⟨inspection, hinspect⟩ := hgate.inspects
    unfold inspectCredentialDocument at hinspect
    rw [he] at hinspect
    cases hinspect
  · intro hslash
    refine ⟨?_, fun scope document h => upgraded h⟩
    cases hfuture : hasFutureCredentialIdentityVersion candidate with
    | true =>
      have heval : evaluateCredentialDocument runtime expected candidate =
          .ok (.refused (.invalid (.identity .versionTooNew) [.binding .identityVersion])) := by
        unfold evaluateCredentialDocument
        rw [hfuture]
        rfl
      exact gate_of_evaluate heval
    | false =>
      obtain ⟨fields, hparse, -⟩ | ⟨hparse, hpayload⟩ := @parsePayload_ok ν runtime candidate
      · have heval : evaluateCredentialDocument runtime expected candidate =
            .ok (.refused (.invalid .invalidDocument (fields.map .payload))) := by
          unfold evaluateCredentialDocument
          rw [hfuture, hparse]
          rfl
        exact gate_of_evaluate heval
      · refine gate_of_evaluate (evaluate_eq hscope hbase hfuture hpayload ((expectedFacts_valid hbase hpayload).mpr ?_))
        intro issuer hissuer hstrip
        exact hslash ⟨hfuture, hpayload, issuer, hissuer, hstrip⟩

end gate

section example_document

/-- The X25519 public key of the private key whose bytes are all one. -/
def publicOfOnes : Bytes :=
  [164, 224, 146, 146, 182, 81, 194, 120, 185, 119, 44, 86, 159, 95, 169, 187, 19, 217, 6, 180, 106, 182, 140, 157, 249, 220,
    43, 68, 9, 248, 162, 9]

/-- The platform on that key, and on an origin without path. -/
def originRuntime : Runtime where
  parseUrl _ := some
    { protocol := js "https:", hostname := js "saas", username := [], password := [], search := [], hash := [] }
  derivePublicKey key := if key = List.replicate 32 1 then some publicOfOnes else none

def originExpectation : BindingExpectation := { tenant := js "t", accountId := js "a", saasBaseUrl := js "https://saas" }

/-- An enrolled document with the issuer `issuer` and no identity yet. -/
def documentWithIssuer (issuer : JsString) : Json JsonNumber :=
  .obj
    [textMember "tenant" (js "t"), textMember "accountId" (js "a"),
      textMember "saasEnrollUrl" (js "https://saas/api/enroll"), textMember "saasPollUrl" (js "https://saas/api/poll"),
      (js "identityKey", .obj
        [textMember "publicKey" (js "pOCSkrZRwni5dyxWn1-puxPZBrRqtoyd-dwrRAn4ogk"),
          textMember "privateKey" (js "AQEBAQEBAQEBAQEBAQEBAQEBAQEBAQEBAQEBAQEBAQE")]),
      (js "enrollment", .obj
        [(js "creds", .obj [textMember "userJwt" (js "jwt"), textMember "userSeed" (js "seed")]),
          textMember "peerId" (js "p"), textMember "jwksUrl" (js "https://saas/jwks"),
          textMember "bootstrapUrl" (js "https://saas/bootstrap"), textMember "natsUrl" (js "wss://nats"),
          textMember "issuer" issuer])]

theorem originExpectation_valid :
    ∃ identity, assertValidCredentialBindingExpectation originRuntime originExpectation = .ok identity :=
  ⟨_, createCredentialBindingIdentityV2_ok.mpr
    ⟨⟨by decide, by decide⟩, ⟨by decide, fun _ h => (by cases h), fun _ h => (by cases h), by decide⟩, rfl⟩⟩

/-- With an issuer of its own the document is classified. -/
theorem gate_iff_issuer : Gate originRuntime originExpectation (documentWithIssuer (js "https://issuer/")) := by
  refine ((gate_iff originExpectation_valid).mpr ?_).1
  intro h
  obtain ⟨issuer, hissuer, hstrip⟩ := h.issuer
  have hown : issuerOf (documentWithIssuer (js "https://issuer/")) = some (js "https://issuer/") := rfl
  rw [hown] at hissuer
  cases hissuer
  exact absurd hstrip (by decide)

/-- With the issuer `/` both entry points throw the contract error of the identity. -/
theorem slashIssuer_throws :
    inspectCredentialDocument originRuntime originExpectation (documentWithIssuer (js "/")) =
        .error (.contract { code := .invalidField, fields := [.deliveredIssuer] }) ∧
      ¬ Gate originRuntime originExpectation (documentWithIssuer (js "/")) := by
  have hinspect : inspectCredentialDocument originRuntime originExpectation (documentWithIssuer (js "/")) =
      .error (.contract { code := .invalidField, fields := [.deliveredIssuer] }) := by decide +kernel
  refine ⟨hinspect, fun hgate => ?_⟩
  obtain ⟨inspection, h⟩ := hgate.inspects
  rw [hinspect] at h
  cases h

end example_document

end Webchannel.Storage
