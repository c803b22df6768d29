import Webchannel.Lib.JsonWords
import Webchannel.TrustChain.PrivateFile
import Webchannel.TrustChain.Setup

/-!
# The trust chain of an issuer

`persistent-trust-chain.ts`: the chain is made once and written to a private file; every later
call reads it back. The seed of an external account is left out of the file and put in again.
-/

namespace Webchannel.TrustChain

open Storage (trim)

/-- What a program meets in a value beyond its text: what its properties that are no strings are
called, and which names it finds although the text has no such member. -/
structure Language where
  propertyKey : Value → JsString
  inherited : Value → JsString → Bool

inductive TrustChainError where
  | read (fault : StorageFault)
  | write (fault : StorageFault)
  | corrupt
  | typeError
  | missingFields
  | missingAccountPublicKey
  | noSystemAccount (hasOperatorSeed : Bool)
  | needsSigningSeed
  | setup (error : SetupError)
  deriving DecidableEq, Repr

/-- A value in a condition. -/
def isTruthy : Option Value → Bool
  | none => false
  | some .null => false
  | some (.bool b) => b
  | some (.num n) => n.1 ≠ .finite 0
  | some (.str s) => s ≠ []
  | some (.arr _) => true
  | some (.obj _) => true

/-- `v?.name` -/
def member (v : Option Value) (name : String) : Option Value := v.bind fun v => v.member name

/-- `v[key]`, in a condition. -/
def hasTruthy (language : Language) (v key : Value) : Bool :=
  let name := match key with
    | .str s => s
    | key => language.propertyKey key
  match v.lookup name with
  | some x => isTruthy (some x)
  | none => language.inherited v name

/-- `v.name = x`, on an object; an array takes it without showing it, and a primitive throws. -/
def assign (v : Value) (name : String) (x : Value) : Except TrustChainError Value :=
  match v with
  | .obj l => .ok (Json.setMember (.obj l) name x)
  | .arr l => .ok (.arr l)
  | _ => .error .typeError

/-- Files that are older than `mode` are self-contained. -/
def fillMode (parsed : Value) : Except TrustChainError Value :=
  match parsed.member "natsConfig" with
  | none => .ok parsed
  | some natsConfig =>
    if isTruthy (some natsConfig) ∧ (natsConfig.member "mode").isNone then
      (assign natsConfig "mode" (text (js "self-contained"))).map fun natsConfig => parsed.setMember "natsConfig" natsConfig
    else .ok parsed

/-- `natsConfig.mode === "external"` -/
def isExternal (natsConfig : Option Value) : Bool :=
  match member natsConfig "mode" with
  | some (.str s) => s = js "external"
  | _ => false

def hasSystemAccount (language : Language) (privateKey natsConfig : Option Value) : Bool :=
  match member natsConfig "systemAccountPublicKey", member natsConfig "resolverConfig" with
  | some publicKey, some resolver =>
    isTruthy (some publicKey) && isTruthy (member privateKey "systemAccountCredentials") &&
      hasTruthy language resolver publicKey
  | _, _ => false

def assertPersistedShape (language : Language) (parsed : Value) : Except TrustChainError Unit :=
  let privateKey := parsed.member "private"
  let natsConfig := parsed.member "natsConfig"
  if ¬ (isTruthy (member privateKey "rsaPrivateKeyPem") ∧ isTruthy (parsed.member "kid") ∧ isTruthy natsConfig) then
    .error .missingFields
  else if isExternal natsConfig then
    if isTruthy (member natsConfig "accountPublicKey") then .ok () else .error .missingAccountPublicKey
  else if ¬ (isTruthy (member privateKey "natsAccountSeed") ∧ isTruthy (member natsConfig "operatorJwt") ∧
      isTruthy (member natsConfig "accountJwt") ∧ isTruthy (member natsConfig "resolverConfig")) then
    .error .missingFields
  else if hasSystemAccount language privateKey natsConfig then .ok ()
  else .error (.noSystemAccount (isTruthy (member privateKey "operatorSeed")))

/-- `parsed.private.natsAccountSeed = seed` -/
def setSeed (parsed : Value) (seed : JsString) : Value :=
  match parsed.member "private" with
  | none => parsed
  | some privateKey => parsed.setMember "private" (privateKey.setMember "natsAccountSeed" (text seed))

/-- The chain of a file that is there. -/
def loadPersisted (language : Language) (options : SetupTrustChainOptions) (persisted : JsString) :
    Except TrustChainError Value :=
  match JsonText.parse JsonText.doubles persisted with
  | none => .error .corrupt
  | some parsed => do
    let parsed ← fillMode parsed
    assertPersistedShape language parsed
    match options.externalNatsAccount with
    | none => if isExternal (parsed.member "natsConfig") then .error .needsSigningSeed else .ok parsed
    | some external => .ok ((setSeed parsed external.signingSeed).setMember "natsConfig" (externalConfig external.accountId))

/-- What is written of a chain. -/
def toPersist (options : SetupTrustChainOptions) (chain : Value) : Value :=
  if options.externalNatsAccount.isSome then setSeed chain [] else chain

structure Outcome where
  result : Except TrustChainError Value
  place : Place

/-- The machine that an issuer runs on. -/
structure Machine where
  user : User
  language : Language
  nkeys : Nkeys

/-- What a call draws, and the numbers that the file system gives to what it makes. -/
structure Boot where
  draw : Draw
  directoryInode : Nat × Nat
  fileInode : Nat × Nat

def loadOrCreateTrustChain (machine : Machine) (boot : Boot) (options : SetupTrustChainOptions) (place : Place) : Outcome :=
  match ensurePrivateDirectory machine.user boot.directoryInode place with
  | .error fault => ⟨.error (.read fault), place⟩
  | .ok place =>
    match readPrivateFileIfExists machine.user place with
    | .error fault => ⟨.error (.read fault), place⟩
    | .ok (some persisted) => ⟨loadPersisted machine.language options persisted, place⟩
    | .ok none =>
      match setupTrustChain machine.nkeys boot.draw options with
      | .error e => ⟨.error (.setup e), place⟩
      | .ok chain =>
        let document := JsonText.stringifyIndented JsonText.doubles 0 (toPersist options chain)
        match atomicWritePrivateFile machine.user boot.fileInode place document with
        | .error fault => ⟨.error (.write fault), place⟩
        | .ok place => ⟨.ok chain, place⟩

/-- The results of the calls after a call, one boot after another. -/
def restarts (machine : Machine) (options : SetupTrustChainOptions) : List Boot → Place → List (Except TrustChainError Value)
  | [], _ => []
  | boot :: boots, place =>
    let outcome := loadOrCreateTrustChain machine boot options place
    outcome.result :: restarts machine options boots outcome.place

/-! ## What is relied on -/

def isSeedLetter (u : UInt16) : Bool := (65 ≤ u ∧ u ≤ 90) ∨ (50 ≤ u ∧ u ≤ 55)

/-- A seed is 58 letters, a public key 56; a token is never empty. -/
structure Nkeys.Sound (nkeys : Nkeys) : Prop where
  operator : ∀ name keys account, nkeys.encodeOperator name keys account ≠ []
  account : ∀ name keys signer, nkeys.encodeAccount name keys signer ≠ []
  creds : ∀ jwt keys, nkeys.fmtCreds jwt keys ≠ []
  seed : ∀ s publicKey, nkeys.fromSeed s = some publicKey → s.length = 58 ∧ ∀ u ∈ s, isSeedLetter u = true
  publicKey : ∀ s, nkeys.fromPublic s = true → s.length = 56

/-- Key pairs have a seed and a public key. -/
structure Draw.Sound (draw : Draw) : Prop where
  seed : draw.accountKp.seed ≠ []
  publicKey : draw.systemAccountKp.publicKey ≠ []

/-! ## What is claimed -/

/-- Every later call returns the chain, and a file that was written for an external account does not
have its seed in it. -/
structure Survives (machine : Machine) (boot : Boot) (options : SetupTrustChainOptions) (place : Place) (chain : Value) :
    Prop where
  restarted : ∀ boots, ∀ r ∈ restarts machine options boots (loadOrCreateTrustChain machine boot options place).place,
    r = .ok chain
  secret : place.entry = none → ∀ external ∈ options.externalNatsAccount, ∀ stats contents,
    (loadOrCreateTrustChain machine boot options place).place.entry = some (stats, contents) →
      ¬ trim external.signingSeed <:+: stringOfUtf8 contents

/-- The key id is not empty; the external account has no blanks around its strings, and its seed is spelled
neither by the key id nor by the RSA key. -/
structure Stable (boot : Boot) (options : SetupTrustChainOptions) : Prop where
  kid : options.kid ≠ some []
  trimmed : ∀ external ∈ options.externalNatsAccount,
    trim external.signingSeed = external.signingSeed ∧ trim external.accountId = external.accountId
  unspelled : ∀ external ∈ options.externalNatsAccount, ∀ key ∈ boot.draw.generateKey (options.rsaKeySize.getD 2048),
    ∀ s ∈ [privateKeyPem key, key.n, key.e, chosenKid boot.draw options], ¬ trim external.signingSeed <:+: s

/-! ## A file that is there -/

variable {machine : Machine} {boot : Boot} {options : SetupTrustChainOptions} {place : Place} {chain : Value}

/-- A place that calls leave alone, with a text in its file. -/
structure Settled (user : User) (place : Place) (text : JsString) : Prop where
  directory : ∀ inode, ensurePrivateDirectory user inode place = .ok place
  file : readPrivateFileIfExists user place = .ok (some text)

theorem Settled.loads {text : JsString} (h : Settled machine.user place text) (boot : Boot) :
    loadOrCreateTrustChain machine boot options place = ⟨loadPersisted machine.language options text, place⟩ := by
  unfold loadOrCreateTrustChain
  rw [h.directory]
  dsimp only
  rw [h.file]

theorem Settled.restarts {text : JsString} (h : Settled machine.user place text) (boots : List Boot) :
    restarts machine options boots place = boots.map fun _ => loadPersisted machine.language options text := by
  induction boots with
  | nil => rfl
  | cons boot boots ih => rw [TrustChain.restarts, h.loads, List.map_cons, ih]

/-- A file that is there is not written. -/
theorem entry_kept (hentry : place.entry ≠ none) (boot : Boot) :
    (loadOrCreateTrustChain machine boot options place).place.entry = place.entry := by
  unfold loadOrCreateTrustChain
  cases hensure : ensurePrivateDirectory machine.user boot.directoryInode place with
  | error fault => rfl
  | ok place' =>
    obtain ⟨hkept, -⟩ := ensurePrivateDirectory_ok hensure
    dsimp only
    cases hread : readPrivateFileIfExists machine.user place' with
    | error fault => exact hkept
    | ok text =>
      cases text with
      | none => exact absurd hread (readPrivateFileIfExists_none (hkept ▸ hentry))
      | some text => exact hkept

/-- A chain that comes from a file that is there comes from it again. -/
theorem survives_loaded (hentry : place.entry ≠ none)
    (h : (loadOrCreateTrustChain machine boot options place).result = .ok chain) :
    Survives machine boot options place chain := by
  refine ⟨?_, fun hnone => absurd hnone hentry⟩
  unfold loadOrCreateTrustChain at h ⊢
  cases hensure : ensurePrivateDirectory machine.user boot.directoryInode place with
  | error fault => rw [hensure] at h; cases h
  | ok place' =>
    obtain ⟨hkept, hdirectory⟩ := ensurePrivateDirectory_ok hensure
    rw [hensure] at h
    dsimp only at h ⊢
    cases hread : readPrivateFileIfExists machine.user place' with
    | error fault => rw [hread] at h; cases h
    | ok text =>
      cases text with
      | none => exact absurd hread (readPrivateFileIfExists_none (hkept ▸ hentry))
      | some text =>
        rw [hread] at h
        dsimp only at h ⊢
        intro boots r hr
        rw [Settled.restarts ⟨hdirectory, hread⟩] at hr
        obtain ⟨_, -, rfl⟩ := List.mem_map.mp hr
        exact h

/-! ## A file that is written -/

theorem ensurePrivateDirectory_entry {user : User} {inode : Nat × Nat} {place : Place}
    (h : ensurePrivateDirectory user inode place = .ok place) (entry : Option (Stats × Bytes)) :
    ensurePrivateDirectory user inode { place with entry := entry } = .ok { place with entry := entry } := by
  unfold ensurePrivateDirectory at h ⊢
  dsimp only at h ⊢
  cases hdirectory : place.directory with
  | none =>
    rw [hdirectory] at h
    dsimp only at h
    cases hsafe : assertSafeOwnedDirectory user { place with directory := some ⟨.directory, 0o700, user.uid, inode.1, inode.2⟩ } with
    | error e => rw [hsafe] at h; cases h
    | ok directory =>
      rw [hsafe] at h
      have hmade := congrArg Place.directory (Except.ok.inj h)
      rw [hdirectory] at hmade
      cases hmade
  | some found =>
    rw [hdirectory] at h
    dsimp only at h ⊢
    cases hsafe : assertSafeOwnedDirectory user place with
    | error e => rw [hsafe] at h; cases h
    | ok directory =>
      have hsafe' : assertSafeOwnedDirectory user { place with entry := entry } = .ok directory := hsafe
      rw [hdirectory] at hsafe'
      rw [hsafe']
      rfl

/-- How a call that makes a chain went. -/
theorem created (hentry : place.entry = none) (h : (loadOrCreateTrustChain machine boot options place).result = .ok chain) :
    setupTrustChain machine.nkeys boot.draw options = .ok chain ∧
      Settled machine.user (loadOrCreateTrustChain machine boot options place).place
        (JsonText.stringifyIndented JsonText.doubles 0 (toPersist options chain)) ∧
      ∃ stats, (loadOrCreateTrustChain machine boot options place).place.entry =
        some (stats, encodeUtf8 (JsonText.stringifyIndented JsonText.doubles 0 (toPersist options chain))) := by
  unfold loadOrCreateTrustChain at h ⊢
  cases hensure : ensurePrivateDirectory machine.user boot.directoryInode place with
  | error fault => rw [hensure] at h; cases h
  | ok place' =>
    obtain ⟨hkept, hdirectory⟩ := ensurePrivateDirectory_ok hensure
    rw [hensure] at h
    dsimp only at h ⊢
    cases hread : readPrivateFileIfExists machine.user place' with
    | error fault => rw [hread] at h; cases h
    | ok text =>
      cases text with
      | some text => exact absurd (hkept.trans hentry) (readPrivateFileIfExists_some hread)
      | none =>
        rw [hread] at h
        dsimp only at h ⊢
        cases hsetup : setupTrustChain machine.nkeys boot.draw options with
        | error e => rw [hsetup] at h; cases h
        | ok made =>
          rw [hsetup] at h
          dsimp only at h ⊢
          cases hwrite : atomicWritePrivateFile machine.user boot.fileInode place'
              (JsonText.stringifyIndented JsonText.doubles 0 (toPersist options made)) with
          | error fault => rw [hwrite] at h; cases h
          | ok place'' =>
            rw [hwrite] at h
            obtain rfl : made = chain := Except.ok.inj h
            obtain ⟨hback, rfl⟩ := readPrivateFileIfExists_written (JsonText.wellFormed_stringifyIndented _ _ _) hwrite
            exact ⟨rfl, ⟨fun inode => ensurePrivateDirectory_entry (hdirectory inode) _, hback⟩, _, rfl⟩

/-! ## What is read back -/

theorem generateKid_ne_nil (bytes : Vector UInt8 16) : generateKid bytes ≠ [] := by
  unfold generateKid
  simp [List.intercalate]

theorem chosenKid_eq_nil (draw : Draw) : chosenKid draw options = [] ↔ options.kid = some [] := by
  unfold chosenKid
  cases options.kid with
  | none => simp [generateKid_ne_nil]
  | some kid => simp

theorem privateKeyPem_ne_nil (key : ExportedRsaKey) : privateKeyPem key ≠ [] := by
  unfold privateKeyPem
  simp [js, utf16Units]

theorem loadPersisted_document (options : SetupTrustChainOptions) (v : Value) :
    loadPersisted machine.language options (JsonText.stringifyIndented JsonText.doubles 0 v) = (do
      let parsed ← fillMode v
      assertPersistedShape machine.language parsed
      match options.externalNatsAccount with
      | none => if isExternal (parsed.member "natsConfig") then .error .needsSigningSeed else .ok parsed
      | some external =>
        .ok ((setSeed parsed external.signingSeed).setMember "natsConfig" (externalConfig external.accountId))) := by
  unfold loadPersisted
  rw [JsonText.parse_stringifyIndented JsonText.doubles_readsBack]

section

variable (privateKey natsConfig : Value) (key : ExportedRsaKey) (kid : JsString)

theorem resultValue_private : (resultValue privateKey natsConfig key kid).member "private" = some privateKey := rfl

theorem resultValue_natsConfig : (resultValue privateKey natsConfig key kid).member "natsConfig" = some natsConfig := rfl

theorem resultValue_kid : (resultValue privateKey natsConfig key kid).member "kid" = some (text kid) := rfl

end

theorem isTruthy_text (s : JsString) : isTruthy (some (text s)) = true ↔ s ≠ [] := decide_eq_true_iff

theorem fillMode_of_mode {v natsConfig mode : Value} (hconfig : v.member "natsConfig" = some natsConfig)
    (hmode : natsConfig.member "mode" = some mode) : fillMode v = .ok v := by
  unfold fillMode
  rw [hconfig]
  dsimp only
  rw [hmode]
  exact if_neg fun h => by cases h.2

/-- The system account of a chain is under its public key. -/
theorem resolverConfig_lookup (language : Language) {a b x y : JsString} (hy : y ≠ []) :
    hasTruthy language (resolverConfig a b x y) (text b) = true := by
  have hlookup : (resolverConfig a b x y).lookup b = some (text y) := by
    unfold resolverConfig Json.lookup
    by_cases h : a = b
    · simp [h]
    · simp [h]
  unfold hasTruthy text
  dsimp only
  rw [hlookup]
  exact (isTruthy_text y).mpr hy

/-- A self-contained chain comes back as it was, unless its key id is empty. -/
theorem load_selfContained (hnkeys : machine.nkeys.Sound) {draw : Draw} (hdraw : draw.Sound) (key : ExportedRsaKey)
    (hoptions : options.externalNatsAccount = none) (kid : JsString) :
    loadPersisted machine.language options (JsonText.stringifyIndented JsonText.doubles 0
      (selfContainedChain machine.nkeys draw options key kid)) =
      if kid = [] then .error .missingFields else .ok (selfContainedChain machine.nkeys draw options key kid) := by
  have hmode : (selfContainedConfig machine.nkeys draw options).member "mode" = some (text (js "self-contained")) := rfl
  have hfill : fillMode (selfContainedChain machine.nkeys draw options key kid) =
      .ok (selfContainedChain machine.nkeys draw options key kid) := fillMode_of_mode rfl hmode
  have hnotExternal : isExternal (some (selfContainedConfig machine.nkeys draw options)) = false := rfl
  have hpem : (selfContainedPrivate machine.nkeys draw options key).member "rsaPrivateKeyPem" =
      some (text (privateKeyPem key)) := by
    unfold selfContainedPrivate
    cases options.returnOperatorSeed <;> rfl
  have hseed : (selfContainedPrivate machine.nkeys draw options key).member "natsAccountSeed" =
      some (text draw.accountKp.seed) := by
    unfold selfContainedPrivate
    cases options.returnOperatorSeed <;> rfl
  have hcreds : (selfContainedPrivate machine.nkeys draw options key).member "systemAccountCredentials" =
      some (text (systemAccountCredentials machine.nkeys draw options)) := by
    unfold selfContainedPrivate
    cases options.returnOperatorSeed <;> rfl
  have hsystem : hasSystemAccount machine.language (some (selfContainedPrivate machine.nkeys draw options key))
      (some (selfContainedConfig machine.nkeys draw options)) = true := by
    change (isTruthy (some (text draw.systemAccountKp.publicKey)) &&
      isTruthy ((selfContainedPrivate machine.nkeys draw options key).member "systemAccountCredentials") &&
      hasTruthy machine.language (resolverConfig draw.accountKp.publicKey draw.systemAccountKp.publicKey
        (accountJwt machine.nkeys draw options) (systemAccountJwt machine.nkeys draw options))
        (text draw.systemAccountKp.publicKey)) = true
    have hcredsText : systemAccountCredentials machine.nkeys draw options ≠ [] := hnkeys.creds _ _
    have hjwtText : systemAccountJwt machine.nkeys draw options ≠ [] := hnkeys.account _ _ _
    rw [hcreds, (isTruthy_text _).mpr hdraw.publicKey, (isTruthy_text _).mpr hcredsText, resolverConfig_lookup _ hjwtText]
    rfl
  have hshape : assertPersistedShape machine.language (selfContainedChain machine.nkeys draw options key kid) =
      if kid = [] then .error .missingFields else .ok () := by
    unfold assertPersistedShape selfContainedChain
    dsimp only
    rw [resultValue_private, resultValue_natsConfig, resultValue_kid, hsystem, hnotExternal]
    simp only [member, Option.bind_some, hpem, hseed]
    by_cases hkid : kid = []
    · rw [if_pos (by simp [hkid, text, isTruthy]), if_pos hkid]
    · have hoperatorText : operatorJwt machine.nkeys draw options ≠ [] := hnkeys.operator _ _ _
      have haccountText : accountJwt machine.nkeys draw options ≠ [] := hnkeys.account _ _ _
      have hconfig : isTruthy (some (selfContainedConfig machine.nkeys draw options)) = true := rfl
      have hoperator : (selfContainedConfig machine.nkeys draw options).member "operatorJwt" =
          some (text (operatorJwt machine.nkeys draw options)) := rfl
      have haccount : (selfContainedConfig machine.nkeys draw options).member "accountJwt" =
          some (text (accountJwt machine.nkeys draw options)) := rfl
      have hresolver : isTruthy ((selfContainedConfig machine.nkeys draw options).member "resolverConfig") = true := rfl
      rw [if_neg (by simp [hkid, isTruthy_text, privateKeyPem_ne_nil, hconfig]), if_neg (by decide), if_neg
        (by simp [hoperator, haccount, hresolver, isTruthy_text, hdraw.seed, hoperatorText, haccountText]), if_neg hkid]
      rfl
  rw [loadPersisted_document, hoptions, hfill]
  dsimp only [Bind.bind, Except.bind]
  rw [hshape]
  by_cases hkid : kid = []
  · rw [if_pos hkid, if_pos hkid]
  · rw [if_neg hkid, if_neg hkid]
    rfl

/-- How a chain for an external account was made. -/
theorem buildExternal_ok {nkeys : Nkeys} {account : ExternalNatsAccount} {key : ExportedRsaKey} {kid : JsString}
    (h : buildExternalTrustChain nkeys account key kid = .ok chain) :
    (js "SA").isPrefixOf (trim account.signingSeed) = true ∧ trim account.accountId ≠ [] ∧
      (∃ publicKey, nkeys.fromSeed (trim account.signingSeed) = some publicKey) ∧
      nkeys.fromPublic (trim account.accountId) = true ∧
      chain = resultValue (externalPrivate key (trim account.signingSeed)) (externalConfig (trim account.accountId)) key kid := by
  unfold buildExternalTrustChain at h
  dsimp only at h
  by_cases hseed : (js "SA").isPrefixOf (trim account.signingSeed) = true
  case neg => rw [if_pos hseed] at h; cases h
  by_cases haccount : (js "A").isPrefixOf (trim account.accountId) = true
  case neg => rw [if_neg (not_not.mpr hseed), if_pos haccount] at h; cases h
  rw [if_neg (not_not.mpr hseed), if_neg (not_not.mpr haccount)] at h
  cases hkey : nkeys.fromSeed (trim account.signingSeed) with
  | none => rw [hkey] at h; cases h
  | some publicKey =>
    rw [hkey] at h
    dsimp only at h
    split_ifs at h with hhead hpublic
    refine ⟨hseed, ?_, ⟨publicKey, rfl⟩, by simpa using hpublic, (Except.ok.inj h).symm⟩
    intro hempty
    rw [hempty] at haccount
    exact absurd haccount (by decide)

/-- The file of an external account has no seed. -/
theorem toPersist_external {external : ExternalNatsAccount} (hoptions : options.externalNatsAccount = some external)
    (key : ExportedRsaKey) (seed accountId kid : JsString) :
    toPersist options (resultValue (externalPrivate key seed) (externalConfig accountId) key kid) =
      resultValue (externalPrivate key []) (externalConfig accountId) key kid := by
  unfold toPersist
  rw [hoptions]
  rfl

/-- A chain of an external account comes back with the strings that are given now. -/
theorem load_external {external : ExternalNatsAccount} (hoptions : options.externalNatsAccount = some external)
    (key : ExportedRsaKey) {accountId : JsString} (haccount : accountId ≠ []) (kid : JsString) :
    loadPersisted machine.language options (JsonText.stringifyIndented JsonText.doubles 0
      (resultValue (externalPrivate key []) (externalConfig accountId) key kid)) =
      if kid = [] then .error .missingFields
      else .ok (resultValue (externalPrivate key external.signingSeed) (externalConfig external.accountId) key kid) := by
  have hfill : fillMode (resultValue (externalPrivate key []) (externalConfig accountId) key kid) =
      .ok (resultValue (externalPrivate key []) (externalConfig accountId) key kid) :=
    (fillMode_of_mode rfl rfl : _ = Except.ok (resultValue (externalPrivate key []) (externalConfig accountId) key kid))
  have hshape : assertPersistedShape machine.language (resultValue (externalPrivate key []) (externalConfig accountId) key kid) =
      if kid = [] then .error .missingFields else .ok () := by
    have hpem : (externalPrivate key []).member "rsaPrivateKeyPem" = some (text (privateKeyPem key)) := rfl
    have hexternal : isExternal (some (externalConfig accountId)) = true := rfl
    have hid : (externalConfig accountId).member "accountPublicKey" = some (text accountId) := rfl
    have hconfig : isTruthy (some (externalConfig accountId)) = true := rfl
    unfold assertPersistedShape
    dsimp only
    rw [resultValue_private, resultValue_natsConfig, resultValue_kid]
    simp only [member, Option.bind_some, hpem, hid]
    by_cases hkid : kid = []
    · rw [if_pos (by simp [hkid, text, isTruthy]), if_pos hkid]
    · rw [if_neg (by simp [hkid, isTruthy_text, privateKeyPem_ne_nil, hconfig]), if_pos hexternal,
        if_pos ((isTruthy_text _).mpr haccount), if_neg hkid]
  rw [loadPersisted_document, hoptions, hfill]
  dsimp only [Bind.bind, Except.bind]
  rw [hshape]
  by_cases hkid : kid = []
  · rw [if_pos hkid, if_pos hkid]
  · rw [if_neg hkid, if_neg hkid]
    rfl

/-! ## The seed in the file -/

theorem word_of_seed {seed : JsString} (hbegins : (js "SA").isPrefixOf seed = true) (hletters : ∀ u ∈ seed, isSeedLetter u = true) :
    JsonText.Word seed := by
  constructor
  · cases seed with
    | nil => exact absurd hbegins (by decide)
    | cons c rest =>
      refine ⟨c, rest, rfl, ?_⟩
      have hc : c = 83 := by
        have hhead := (List.isPrefixOf_iff_prefix.mp hbegins)
        exact (List.cons_prefix_cons.mp hhead).1.symm
      rw [hc]
      decide
  · intro u hu
    have h := hletters u hu
    unfold isSeedLetter at h
    unfold JsonText.isWordUnit JsonText.isCapital
    simp only [decide_eq_true_eq, UInt16.le_iff_toNat_le] at h ⊢
    have h48 : (48 : UInt16).toNat = 48 := rfl
    have h50 : (50 : UInt16).toNat = 50 := rfl
    have h55 : (55 : UInt16).toNat = 55 := rfl
    have h57 : (57 : UInt16).toNat = 57 := rfl
    omega

/-- A seed is in the file where it is spelled by the key id or the RSA key: the account's public key and the names
are shorter. -/
theorem seed_in_file {seed : JsString} (hseed : JsonText.Word seed) (hlength : seed.length = 58) {key : ExportedRsaKey}
    {accountId : JsString} (haccount : accountId.length = 56) (kid : JsString) :
    seed <:+: JsonText.stringifyIndented JsonText.doubles 0
        (resultValue (externalPrivate key []) (externalConfig accountId) key kid) ↔
      ∃ s ∈ [privateKeyPem key, key.n, key.e, kid], seed <:+: s := by
  have htexts : JsonText.texts JsonText.doubles (resultValue (externalPrivate key []) (externalConfig accountId) key kid) =
      [js "private", js "rsaPrivateKeyPem", privateKeyPem key, js "natsAccountSeed", [], js "natsConfig", js "mode",
        js "external", js "accountPublicKey", accountId, js "jwks", js "keys", js "kty", js "RSA", js "kid", kid, js "alg",
        js "RS256", js "use", js "sig", js "n", key.n, js "e", key.e, js "kid", kid] := rfl
  have hshort : ∀ s ∈ JsonText.texts JsonText.doubles (resultValue (externalPrivate key []) (externalConfig accountId) key kid),
      s.length < 58 ∨ s ∈ [privateKeyPem key, key.n, key.e, kid] := by
    rw [htexts]
    simp only [List.forall_mem_cons]
    have hid : accountId.length < 58 := by omega
    refine ⟨.inl (by decide), .inl (by decide), .inr (by simp), .inl (by decide), .inl (by decide), .inl (by decide),
      .inl (by decide), .inl (by decide), .inl (by decide), .inl hid, .inl (by decide), .inl (by decide), .inl (by decide),
      .inl (by decide), .inl (by decide), .inr (by simp), .inl (by decide), .inl (by decide), .inl (by decide),
      .inl (by decide), .inl (by decide), .inr (by simp), .inl (by decide), .inr (by simp), .inl (by decide),
      .inr (by simp), by simp⟩
  have hthere : ∀ s ∈ [privateKeyPem key, key.n, key.e, kid],
      s ∈ JsonText.texts JsonText.doubles (resultValue (externalPrivate key []) (externalConfig accountId) key kid) := by
    rw [htexts]
    simp only [List.forall_mem_cons]
    exact ⟨by simp, by simp, by simp, by simp, by simp⟩
  rw [hseed.infix_stringifyIndented]
  constructor
  · rintro ⟨s, hs, hinfix⟩
    have hlong : 58 ≤ s.length := hlength ▸ hinfix.length_le
    obtain h | h := hshort s hs
    · omega
    · exact ⟨s, h, hinfix⟩
  · rintro ⟨s, hs, hinfix⟩
    exact ⟨s, hthere s hs, hinfix⟩

/-! ## Restarts -/

theorem resultValue_external_inj {key : ExportedRsaKey} {seed seed' accountId accountId' kid : JsString}
    (h : resultValue (externalPrivate key seed) (externalConfig accountId) key kid =
      resultValue (externalPrivate key seed') (externalConfig accountId') key kid) : seed = seed' ∧ accountId = accountId' := by
  simp only [resultValue, externalPrivate, externalConfig, text, Json.obj.injEq, List.cons.injEq, Prod.mk.injEq,
    Json.str.injEq, and_true, true_and] at h
  exact h

/-- A chain that was made survives where the calls behind it read it back and its file has no seed. -/
theorem survives_created (hnkeys : machine.nkeys.Sound) (hdraw : boot.draw.Sound) (hentry : place.entry = none)
    (h : (loadOrCreateTrustChain machine boot options place).result = .ok chain) :
    Survives machine boot options place chain ↔ Stable boot options := by
  obtain ⟨hsetup, hsettled, stats, hfile⟩ := created hentry h
  -- One boot tells of all.
  have hrestarted : (∀ boots, ∀ r ∈ restarts machine options boots (loadOrCreateTrustChain machine boot options place).place,
      r = .ok chain) ↔ loadPersisted machine.language options
        (JsonText.stringifyIndented JsonText.doubles 0 (toPersist options chain)) = .ok chain := by
    constructor
    · intro hall
      refine hall [boot] _ ?_
      rw [hsettled.restarts]
      exact .head _
    · intro hload boots r hr
      rw [hsettled.restarts] at hr
      obtain ⟨_, -, rfl⟩ := List.mem_map.mp hr
      exact hload
  have hsecret : (∀ external ∈ options.externalNatsAccount, ∀ stats contents,
      (loadOrCreateTrustChain machine boot options place).place.entry = some (stats, contents) →
        ¬ trim external.signingSeed <:+: stringOfUtf8 contents) ↔
      ∀ external ∈ options.externalNatsAccount, ¬ trim external.signingSeed <:+:
        JsonText.stringifyIndented JsonText.doubles 0 (toPersist options chain) := by
    have hback := (JsonText.wellFormed_stringifyIndented JsonText.doubles 0 (toPersist options chain)).stringOfUtf8_encodeUtf8
    constructor
    · intro hall external hexternal
      have hnot := hall external hexternal _ _ hfile
      rwa [hback] at hnot
    · intro hall external hexternal stats' contents hentry'
      obtain ⟨-, rfl⟩ := Prod.mk.inj (Option.some.inj (hfile.symm.trans hentry'))
      rw [hback]
      exact hall external hexternal
  have hsurvives : Survives machine boot options place chain ↔
      loadPersisted machine.language options (JsonText.stringifyIndented JsonText.doubles 0 (toPersist options chain)) =
        .ok chain ∧ ∀ external ∈ options.externalNatsAccount, ¬ trim external.signingSeed <:+:
          JsonText.stringifyIndented JsonText.doubles 0 (toPersist options chain) := by
    rw [← hrestarted, ← hsecret]
    exact ⟨fun hs => ⟨hs.restarted, hs.secret hentry⟩, fun hs => ⟨hs.1, fun _ => hs.2⟩⟩
  rw [hsurvives]
  unfold setupTrustChain at hsetup
  cases hkey : boot.draw.generateKey (options.rsaKeySize.getD 2048) with
  | none => rw [hkey] at hsetup; cases hsetup
  | some key =>
  rw [hkey] at hsetup
  dsimp only at hsetup
  have hkid : chosenKid boot.draw options = [] ↔ options.kid = some [] := chosenKid_eq_nil boot.draw
  cases hoptions : options.externalNatsAccount with
  | none =>
    rw [hoptions] at hsetup
    obtain rfl : selfContainedChain machine.nkeys boot.draw options key (chosenKid boot.draw options) = chain :=
      Except.ok.inj hsetup
    have hpersist : toPersist options (selfContainedChain machine.nkeys boot.draw options key (chosenKid boot.draw options)) =
        selfContainedChain machine.nkeys boot.draw options key (chosenKid boot.draw options) := by
      unfold toPersist
      rw [hoptions]
      rfl
    rw [hpersist, load_selfContained hnkeys hdraw key hoptions]
    constructor
    · rintro ⟨hload, -⟩
      refine ⟨fun hempty => ?_, by rw [hoptions]; rintro _ ⟨⟩, by rw [hoptions]; rintro _ ⟨⟩⟩
      rw [if_pos (hkid.mpr hempty)] at hload
      cases hload
    · intro hstable
      exact ⟨if_neg fun hempty => hstable.kid (hkid.mp hempty), by rintro _ ⟨⟩⟩
  | some external =>
    rw [hoptions] at hsetup
    obtain ⟨hbegins, haccount, ⟨publicKey, hfromSeed⟩, hfromPublic, rfl⟩ := buildExternal_ok hsetup
    obtain ⟨hlength, hletters⟩ := hnkeys.seed _ _ hfromSeed
    have hword := word_of_seed hbegins hletters
    rw [toPersist_external hoptions, load_external hoptions key haccount]
    have hfileSeed := @seed_in_file _ hword hlength key (trim external.accountId) (hnkeys.publicKey _ hfromPublic)
      (chosenKid boot.draw options)
    constructor
    · rintro ⟨hload, hnot⟩
      have hkept : chosenKid boot.draw options ≠ [] := fun hempty => by
        rw [if_pos hempty] at hload
        cases hload
      rw [if_neg hkept] at hload
      obtain ⟨hseed, hid⟩ := resultValue_external_inj (Except.ok.inj hload)
      refine ⟨fun hempty => hkept (hkid.mpr hempty), ?_, ?_⟩
      · rw [hoptions]
        rintro _ ⟨⟩
        exact ⟨hseed.symm, hid.symm⟩
      · rw [hoptions, hkey]
        rintro _ ⟨⟩ _ ⟨⟩ s hs hinfix
        exact hnot external rfl (hfileSeed.mpr ⟨s, hs, hinfix⟩)
    · intro hstable
      obtain ⟨hseed, hid⟩ := hstable.trimmed external hoptions
      refine ⟨?_, ?_⟩
      · rw [if_neg fun hempty => hstable.kid (hkid.mp hempty), hseed, hid]
      · rintro _ ⟨⟩ hinfix
        obtain ⟨s, hs, hspelled⟩ := hfileSeed.mp hinfix
        exact hstable.unspelled external hoptions key hkey s hs hspelled

/-- A file that is there is never overwritten, and what comes from it comes from it again; a chain that is made survives
all restarts, and its external seed stays out of the file, exactly where the options are stable. -/
theorem chain_survives_iff {machine : Machine} (hnkeys : machine.nkeys.Sound) (options : SetupTrustChainOptions) (place : Place) :
    (∀ boot, place.entry ≠ none → (loadOrCreateTrustChain machine boot options place).place.entry = place.entry) ∧
      ∀ boot chain, boot.draw.Sound → (loadOrCreateTrustChain machine boot options place).result = .ok chain →
        (Survives machine boot options place chain ↔ (place.entry = none → Stable boot options)) := by
  refine ⟨fun boot hentry => entry_kept hentry boot, fun boot chain hdraw h => ?_⟩
  by_cases hentry : place.entry = none
  · rw [survives_created hnkeys hdraw hentry h]
    exact ⟨fun hstable _ => hstable, fun hstable => hstable hentry⟩
  · exact iff_of_true (survives_loaded hentry h) fun hnone => absurd hnone hentry

/-! ### A machine -/

/-- Seeds and public keys are told by their length and their letters. -/
def plainNkeys : Nkeys where
  fromSeed s := if s.length = 58 ∧ s.all isSeedLetter = true then some (js "A") else none
  fromPublic s := s.length = 56
  encodeOperator _ _ _ := js "operator"
  encodeAccount _ _ _ := js "account"
  encodeUser _ _ _ _ := js "user"
  fmtCreds _ _ := js "creds"

theorem plainNkeys_sound : plainNkeys.Sound where
  operator _ _ _ := show js "operator" ≠ [] by decide
  account _ _ _ := show js "account" ≠ [] by decide
  creds _ _ := show js "creds" ≠ [] by decide
  seed s publicKey h := by
    unfold plainNkeys at h
    dsimp only at h
    split_ifs at h with hseed
    exact ⟨hseed.1, List.all_eq_true.mp hseed.2⟩
  publicKey s h := of_decide_eq_true h

def plainMachine : Machine where
  user := ⟨1000, true⟩
  language := ⟨fun _ => [], fun _ _ => false⟩
  nkeys := plainNkeys

def plainKey : ExportedRsaKey := ⟨js "MIIE", js "u1w", js "AQAB"⟩

def plainBoot : Boot where
  draw :=
    { generateKey := fun _ => some plainKey
      kidBytes := Vector.replicate 16 0
      operatorKp := ⟨js "O", js "SO"⟩
      accountKp := ⟨js "A", js "SA"⟩
      systemAccountKp := ⟨js "AS", js "SAS"⟩
      systemUserKp := ⟨js "U", js "SU"⟩ }
  directoryInode := (1, 1)
  fileInode := (1, 2)

theorem plainBoot_sound : plainBoot.draw.Sound := ⟨by decide, by decide⟩

def plainSeed : JsString := 83 :: List.replicate 57 65

/-- An external account, with some blanks behind its seed. -/
def external (blanks : JsString) : SetupTrustChainOptions where
  kid := some (js "k1")
  externalNatsAccount := some ⟨plainSeed ++ blanks, List.replicate 56 65⟩

theorem external_created (blanks : JsString) (h : trim (plainSeed ++ blanks) = plainSeed) :
    (loadOrCreateTrustChain plainMachine plainBoot (external blanks) ⟨none, none⟩).result =
      .ok (resultValue (externalPrivate plainKey plainSeed) (externalConfig (List.replicate 56 65)) plainKey (js "k1")) := by
  have hid : trim (List.replicate 56 65) = List.replicate 56 65 := by decide
  have hsetup : setupTrustChain plainNkeys plainBoot.draw (external blanks) = .ok
      (resultValue (externalPrivate plainKey plainSeed) (externalConfig (List.replicate 56 65)) plainKey (js "k1")) := by
    change buildExternalTrustChain plainNkeys ⟨plainSeed ++ blanks, List.replicate 56 65⟩ plainKey (js "k1") = _
    unfold buildExternalTrustChain
    dsimp only
    rw [h, hid]
    rfl
  unfold loadOrCreateTrustChain
  rw [show ensurePrivateDirectory plainMachine.user plainBoot.directoryInode ⟨none, none⟩ =
    .ok ⟨some ⟨.directory, 0o700, 1000, 1, 1⟩, none⟩ from rfl]
  dsimp only
  rw [show readPrivateFileIfExists plainMachine.user ⟨some ⟨.directory, 0o700, 1000, 1, 1⟩, none⟩ = .ok none from rfl]
  dsimp only
  rw [show plainMachine.nkeys = plainNkeys from rfl, hsetup]
  rfl

/-- Without blanks the chain survives. -/
theorem chain_survives_iff_external :
    Survives plainMachine plainBoot (external []) ⟨none, none⟩
      (resultValue (externalPrivate plainKey plainSeed) (externalConfig (List.replicate 56 65)) plainKey (js "k1")) := by
  refine ((chain_survives_iff plainNkeys_sound _ _).2 plainBoot _ plainBoot_sound (external_created [] (by decide))).mpr
    fun _ => ⟨by decide, ?_, ?_⟩
  · rintro _ ⟨⟩
    exact ⟨by decide, by decide⟩
  · rintro _ ⟨⟩ _ ⟨⟩
    decide

/-- A seed with a line break behind it is another seed after the first restart. -/
theorem seed_changes_at_restart :
    plainNkeys.Sound ∧ plainBoot.draw.Sound ∧
      ∃ chain, (loadOrCreateTrustChain plainMachine plainBoot (external [10]) ⟨none, none⟩).result = .ok chain ∧
        ¬ Survives plainMachine plainBoot (external [10]) ⟨none, none⟩ chain := by
  refine ⟨plainNkeys_sound, plainBoot_sound, _, external_created [10] (by decide), fun hsurvives => ?_⟩
  have hstable := (survives_created plainNkeys_sound plainBoot_sound rfl (external_created [10] (by decide))).mp hsurvives
  exact absurd (hstable.trimmed _ rfl).1 (by decide)

end Webchannel.TrustChain
