import Webchannel.Lib.JsonDouble
import Webchannel.Nats.Subjects

/-!
# Browser credentials

`mintNatsUserCreds` and `issueBrowserCredentials` (`nats-user-creds.ts`). The NKEY and JWT
libraries are parameters; a token is whatever the encoder makes of what it is given, and reads
the clock a second time for its issue time. An options object may change while a call is
pending, so it is a function of the moment.
-/

namespace Webchannel.Issuance

open Nats (Permissions NatsUserRole peerGrant subjectTokens)
open Register (isValidSubjectToken)

/-- A number of the language; `none` is NaN. -/
abbrev Number := Option Double

/-- What `Date.now()` answers, in milliseconds. -/
structure Instant where
  milliseconds : Int
  inRange : milliseconds.natAbs ≤ 8640000000000000

/-- `Math.floor(Date.now() / 1000)` -/
def Instant.seconds (t : Instant) : Int := t.milliseconds / 1000

structure KeyPair where
  publicKey : JsString
  seed : JsString
  rawSeed : Bytes
  deriving DecidableEq

/-- The issuer of a user: a key pair, or the public key that `fromPublic` wraps. -/
inductive Issuer where
  | keyPair (keys : KeyPair)
  | identity (publicKey : JsString)
  deriving DecidableEq

def Issuer.publicKey : Issuer → JsString
  | .keyPair keys => keys.publicKey
  | .identity publicKey => publicKey

/-- The arguments of `encodeUser`. -/
structure EncodeUser where
  name : JsString
  user : KeyPair
  issuer : Issuer
  permissions : Permissions
  signer : Option KeyPair
  exp : Option Double

/-- The claims of a decoded token that the code reads, and its permissions. -/
structure UserClaim where
  sub : Option (Json Double)
  iss : Option (Json Double)
  iat : Option (Json Double)
  exp : Option (Json Double)
  issuerAccount : Option (Json Double)
  permissions : Permissions

structure BrowserCredentialIssuance where
  tenant : JsString
  accountContext : JsString
  natsAccountPublicKey : JsString
  peerId : JsString
  userPubkey : JsString
  issuedAtSec : Double
  expiresAtSec : Json Double

/-- How a ledger answers. -/
inductive Answer where
  | recorded
  | fenced (scope : String)
  | rejected
  deriving DecidableEq, Repr

/-- What a call of `recordIssuance` did: a row may be stored although the call is rejected. -/
structure Response where
  stored : Bool
  answer : Answer
  deriving DecidableEq, Repr

/-- A ledger, by what it is told apart from the others. -/
abbrev LedgerId := Nat

/-- What the code takes from the platform and from its libraries. -/
structure Platform (Token : Type) where
  now : Instant
  /-- the clock when the encoder reads it -/
  encoderNow : Instant
  createUser : KeyPair
  fromSeed : JsString → Except String KeyPair
  fromPublic : JsString → Except String JsString
  encodeUser : EncodeUser → Except String Token
  /-- `none` where it throws -/
  decode : Token → Option UserClaim
  recordIssuance : LedgerId → BrowserCredentialIssuance → Response

variable {Token : Type}

/-! ## Minting -/

structure MintNatsUserCredsOptions where
  accountSeed : JsString
  tenant : JsString
  role : NatsUserRole := .browser
  peerId : Option JsString := none
  issuerAccountId : Option JsString := none
  ttlSeconds : Option Number := none

structure MintedNatsUserCreds (Token : Type) where
  userJwt : Token
  userPubkey : JsString
  userSeed : JsString
  userSeedRaw : Bytes
  permissions : Permissions

def roleName : NatsUserRole → String
  | .agent => "agent"
  | .browser => "browser"
  | .observer => "observer"

/-- A number in a condition: neither zero nor NaN. -/
def truthy (n : Number) : Option Double := n.filter fun d => d.1 ≠ .finite 0

/-- A string in a condition. -/
def nonEmpty (s : Option JsString) : Option JsString := s.filter (· ≠ [])

/-- `opts.ttlSeconds ? Math.floor(Date.now() / 1000) + opts.ttlSeconds : undefined`, in the
condition that the encoder's options are built under. -/
def expiry (now : Instant) (ttlSeconds : Option Number) : Option Double :=
  match ttlSeconds.bind truthy with
  | none => none
  | some ttl => truthy ((toDouble now.seconds).add ttl)

def mintNatsUserCreds (p : Platform Token) (opts : MintNatsUserCredsOptions) : Except String (MintedNatsUserCreds Token) := do
  Nats.assertValidSubjectToken opts.tenant "tenant"
  let signingKp ← p.fromSeed opts.accountSeed
  let userKp := p.createUser
  let perms ← Nats.mintNatsUserCreds opts.role opts.tenant opts.peerId
  let name := js (roleName opts.role) ++ js "-" ++ opts.tenant
  let exp := expiry p.now opts.ttlSeconds
  let userJwt ← match nonEmpty opts.issuerAccountId with
    | some issuerAccountId => do
      let identity ← p.fromPublic issuerAccountId
      p.encodeUser ⟨name, userKp, .identity identity, perms, some signingKp, exp⟩
    | none => p.encodeUser ⟨name, userKp, .keyPair signingKp, perms, none, exp⟩
  return ⟨userJwt, userKp.publicKey, userKp.seed, userKp.rawSeed, perms⟩

/-! ## Issuing -/

structure IssueBrowserCredentialsOptions where
  accountSeed : JsString
  tenant : JsString
  peerId : JsString
  issuerAccountId : Option JsString := none
  ttlSeconds : Option Number := none
  ledger : Option LedgerId := none
  accountContext : Option JsString := none

structure BrowserCredentials (Token : Type) where
  userJwt : Token
  userPubkey : JsString
  userSeedRaw : Bytes
  permissions : Permissions

structure MintedClaim where
  sub : JsString
  iat : Double
  exp : Json Double
  natsAccountPublicKey : JsString

/-- `a ?? b` -/
def orElse (a b : Option (Json Double)) : Option (Json Double) :=
  match a with
  | none | some .null => b
  | _ => a

/-- `Number.isInteger` -/
def isInteger (d : Double) : Bool :=
  match d.1 with
  | .finite q => q.den = 1
  | .infinite _ => false

def decodeMintedUserClaim (p : Platform Token) (userJwt : Token) : Except String MintedClaim :=
  match p.decode userJwt with
  | none => .error "issueBrowserCredentials: the freshly minted user JWT did not decode (credential withheld)"
  | some claim =>
    match claim.sub, orElse claim.issuerAccount claim.iss, claim.iat with
    | some (.str sub), some (.str natsAccountPublicKey), some (.num iat) =>
      if isInteger iat then .ok ⟨sub, iat, (orElse claim.exp (some .null)).getD .null, natsAccountPublicKey⟩
      else .error "issueBrowserCredentials: the freshly minted user JWT lacks a usable sub/iss/iat (credential withheld)"
    | _, _, _ => .error "issueBrowserCredentials: the freshly minted user JWT lacks a usable sub/iss/iat (credential withheld)"

/-- The checks before anything is minted. -/
def checkOptions (o : IssueBrowserCredentialsOptions) : Except String Unit :=
  if o.ttlSeconds.any (fun ttl => ¬ ttl.any fun d => d.isFinite ∧ ¬ d.le 0) then
    .error ("issueBrowserCredentials: ttlSeconds must be a finite positive number when provided " ++
      "(0/NaN/Infinity/negative would mint a non-expiring or malformed credential)")
  else if o.peerId = [] then
    .error "issueBrowserCredentials: peerId is required (the authenticated session subject)"
  else if o.ledger.isSome ∧ nonEmpty o.accountContext = none then
    .error ("issueBrowserCredentials: accountContext is required whenever ledger is provided " ++
      "(the audit label for this issuance)")
  else .ok ()

/-- `{ ledger, accountContext }`, where both are there. -/
def binding (o : IssueBrowserCredentialsOptions) : Option (LedgerId × JsString) :=
  match o.ledger, nonEmpty o.accountContext with
  | some ledger, some accountContext => some (ledger, accountContext)
  | _, _ => none

def mintOptions (o : IssueBrowserCredentialsOptions) : MintNatsUserCredsOptions :=
  { accountSeed := o.accountSeed
    tenant := o.tenant
    peerId := some o.peerId
    issuerAccountId := nonEmpty o.issuerAccountId
    ttlSeconds := (o.ttlSeconds.bind truthy).map some }

/-- The row for a minted token. -/
def issuanceRow (p : Platform Token) (o : IssueBrowserCredentialsOptions) (accountContext : JsString)
    (minted : MintedNatsUserCreds Token) : Except String BrowserCredentialIssuance := do
  let claim ← decodeMintedUserClaim p minted.userJwt
  if claim.sub ≠ minted.userPubkey then
    throw ("issueBrowserCredentials: minted JWT subject does not match the minted user public key " ++
      "(credential withheld)")
  return ⟨o.tenant, accountContext, claim.natsAccountPublicKey, o.peerId, minted.userPubkey, claim.iat, claim.exp⟩

/-- What the call makes of the answer of the ledger. -/
def settle : Answer → Except String Unit
  | .recorded => .ok ()
  | .fenced scope =>
    .error (s!"issueBrowserCredentials: issuance is fenced at {scope} scope; " ++
      "the minted credential was destroyed unreturned")
  | .rejected => .error "issueBrowserCredentials: issuance ledger write failed; the minted credential was destroyed unreturned"

structure LedgerCall where
  ledger : LedgerId
  row : BrowserCredentialIssuance
  response : Response

/-- What a call came to, and the calls of ledgers it made. -/
structure Issued (Token : Type) where
  result : Except String (BrowserCredentials Token)
  calls : List LedgerCall

def MintedNatsUserCreds.forBrowser (minted : MintedNatsUserCreds Token) : BrowserCredentials Token :=
  ⟨minted.userJwt, minted.userPubkey, minted.userSeedRaw, minted.permissions⟩

/-- `options t` is the options object at the moment `t` of the call; all of it is read at its start. -/
def issueBrowserCredentials (p : Platform Token) (options : Nat → IssueBrowserCredentialsOptions) : Issued Token :=
  let o := options 0
  match checkOptions o with
  | .error e => ⟨.error e, []⟩
  | .ok () =>
    match mintNatsUserCreds p (mintOptions o) with
    | .error e => ⟨.error e, []⟩
    | .ok minted =>
      match binding o with
      | none => ⟨.ok minted.forBrowser, []⟩
      | some (ledger, accountContext) =>
        match issuanceRow p o accountContext minted with
        | .error e => ⟨.error e, []⟩
        | .ok row =>
          let response := p.recordIssuance ledger row
          ⟨(settle response.answer).map fun () => minted.forBrowser, [⟨ledger, row, response⟩]⟩

/-! ## What is relied on -/

/-- The claims of a token that the encoder makes at some moment. -/
def claimOf (now : Instant) (call : EncodeUser) : UserClaim where
  sub := some (.str call.user.publicKey)
  iss := some (.str (call.signer.elim call.issuer.publicKey KeyPair.publicKey))
  iat := some (.num (toDouble now.seconds))
  exp := call.exp.map .num
  issuerAccount := call.signer.map fun _ => .str call.issuer.publicKey
  permissions := call.permissions

/-- A token is decoded to what was encoded. -/
def Inverts (p : Platform Token) : Prop := ∀ call token, p.encodeUser call = .ok token →
  p.decode token = some (claimOf p.encoderNow call)

/-! ## What is claimed of a credential -/

/-- The subjects below a tenant, any account and a peer. -/
def InSubtree (tenant peerId s : JsString) : Prop :=
  ∃ a y rest, subjectTokens s = js "webchannel" :: tenant :: a :: peerId :: y :: rest

/-- A row says what the token says. -/
structure RowOf (row : BrowserCredentialIssuance) (claim : UserClaim) : Prop where
  subtree : ∀ s, claim.permissions.mayPublish s = true ↔ InSubtree row.tenant row.peerId s
  sub : claim.sub = some (.str row.userPubkey)
  account : orElse claim.issuerAccount claim.iss = some (.str row.natsAccountPublicKey)
  iat : claim.iat = some (.num row.issuedAtSec)
  exp : row.expiresAtSec = claim.exp.getD .null

/-- Where a ledger was given it was called once, with the row of the token, and recorded it. -/
def Recorded (o : IssueBrowserCredentialsOptions) (claim : UserClaim) (calls : List LedgerCall) : Prop :=
  match o.ledger with
  | none => calls = []
  | some ledger =>
    ∃ row response, calls = [⟨ledger, row, response⟩] ∧ response.answer = .recorded ∧
      row.tenant = o.tenant ∧ row.peerId = o.peerId ∧ RowOf row claim

/-- A whole number of seconds after the issue time. -/
def WholeSecondsAfter (claim : UserClaim) (e : Json Double) : Prop :=
  ∃ iat exp : Double, ∃ t : Int, ∃ n : Nat, claim.iat = some (.num iat) ∧ e = .num exp ∧
    iat.1 = .finite t ∧ exp.1 = .finite ((t + n : Int) : Rat)

structure WellFormed (p : Platform Token) (o : IssueBrowserCredentialsOptions) (calls : List LedgerCall)
    (creds : BrowserCredentials Token) (claim : UserClaim) : Prop where
  decoded : p.decode creds.userJwt = some claim
  recorded : Recorded o claim calls
  publishes : ∀ s, claim.permissions.mayPublish s = true ↔ InSubtree o.tenant o.peerId s
  subscribes : ∀ s, claim.permissions.maySubscribe s = true ↔ InSubtree o.tenant o.peerId s
  absent : claim.exp = none ↔ o.ttlSeconds = none
  whole : ∀ e, claim.exp = some e → WholeSecondsAfter claim e

/-- The second of the call and the lifetime add up to a whole number, other than zero and not
before the second that the encoder reads. -/
def EndsOnSecond (p : Platform Token) : Option Number → Prop
  | none => True
  | some ttl => ∃ sum : Double, ∃ q : Int, ttl.bind (toDouble p.now.seconds).add = some sum ∧
      sum.1 = .finite q ∧ q ≠ 0 ∧ p.encoderNow.seconds ≤ q

/-! ## Minting -/

theorem Instant.natAbs_seconds (t : Instant) : t.seconds.natAbs ≤ 2 ^ 53 - 1 := by
  have h := t.inRange
  unfold Instant.seconds
  omega

/-- What is minted for a browser is what the encoder made, with the grant of the peer. -/
theorem mint_ok {p : Platform Token} {o : IssueBrowserCredentialsOptions} {minted : MintedNatsUserCreds Token}
    (h : mintNatsUserCreds p (mintOptions o) = .ok minted) :
    isValidSubjectToken o.tenant = true ∧ isValidSubjectToken o.peerId = true ∧
      ∃ call, p.encodeUser call = .ok minted.userJwt ∧ call.user.publicKey = minted.userPubkey ∧
        call.permissions = { pub := [peerGrant o.tenant o.peerId], sub := [peerGrant o.tenant o.peerId] } ∧
        call.exp = expiry p.now (mintOptions o).ttlSeconds := by
  unfold mintNatsUserCreds at h
  cases htenant : Nats.assertValidSubjectToken (mintOptions o).tenant "tenant" with
  | error e => rw [htenant] at h; cases h
  | ok _ =>
  rw [htenant] at h
  cases hseed : p.fromSeed (mintOptions o).accountSeed with
  | error e => rw [hseed] at h; cases h
  | ok signingKp =>
  rw [hseed] at h
  cases hperms : Nats.mintNatsUserCreds (mintOptions o).role (mintOptions o).tenant (mintOptions o).peerId with
  | error e => rw [hperms] at h; cases h
  | ok perms =>
  rw [hperms] at h
  obtain ⟨ht, hp, hperms⟩ := Nats.mint_browser hperms
  refine ⟨ht, hp, ?_⟩
  dsimp only [Bind.bind, Except.bind] at h
  cases hissuer : nonEmpty (mintOptions o).issuerAccountId with
  | none =>
    rw [hissuer] at h
    dsimp only at h
    generalize hcall : (EncodeUser.mk _ _ _ _ _ _) = call at h
    cases htoken : p.encodeUser call with
    | error e => rw [htoken] at h; cases h
    | ok token =>
      rw [htoken] at h
      cases h
      exact ⟨call, htoken, by rw [← hcall], by rw [← hcall, hperms]; rfl, by rw [← hcall]⟩
  | some issuerAccountId =>
    rw [hissuer] at h
    dsimp only at h
    cases hidentity : p.fromPublic issuerAccountId with
    | error e => rw [hidentity] at h; cases h
    | ok identity =>
      rw [hidentity] at h
      dsimp only at h
      generalize hcall : (EncodeUser.mk _ _ _ _ _ _) = call at h
      cases htoken : p.encodeUser call with
      | error e => rw [htoken] at h; cases h
      | ok token =>
        rw [htoken] at h
        cases h
        exact ⟨call, htoken, by rw [← hcall], by rw [← hcall, hperms]; rfl, by rw [← hcall]⟩

/-! ## Issuing -/

theorem checkOptions_ok {o : IssueBrowserCredentialsOptions} (h : checkOptions o = .ok ()) :
    (∀ ttl ∈ o.ttlSeconds, ∃ d, ttl = some d ∧ d.isFinite = true ∧ ¬ d.le 0 = true) ∧
      (o.ledger.isSome = true → nonEmpty o.accountContext ≠ none) := by
  unfold checkOptions at h
  split_ifs at h with httl hpeer hledger
  refine ⟨fun ttl hmem => ?_, fun hsome hnone => hledger ⟨hsome, hnone⟩⟩
  rw [hmem] at httl
  cases ttl with
  | none => exact absurd rfl httl
  | some d =>
    obtain ⟨hfinite, hpositive⟩ : d.isFinite = true ∧ ¬ d.le 0 = true := by simpa using httl
    exact ⟨d, rfl, hfinite, hpositive⟩

/-- How a call that hands out a credential went. -/
theorem issued_ok {p : Platform Token} {options : Nat → IssueBrowserCredentialsOptions} {creds : BrowserCredentials Token}
    (h : (issueBrowserCredentials p options).result = .ok creds) :
    checkOptions (options 0) = .ok () ∧ ∃ minted, mintNatsUserCreds p (mintOptions (options 0)) = .ok minted ∧
      creds = minted.forBrowser ∧
      ((binding (options 0) = none ∧ (issueBrowserCredentials p options).calls = []) ∨
        ∃ ledger accountContext row response, binding (options 0) = some (ledger, accountContext) ∧
          issuanceRow p (options 0) accountContext minted = .ok row ∧ response.answer = .recorded ∧
          (issueBrowserCredentials p options).calls = [⟨ledger, row, response⟩]) := by
  unfold issueBrowserCredentials at h ⊢
  dsimp only at h ⊢
  cases hcheck : checkOptions (options 0) with
  | error e => rw [hcheck] at h; cases h
  | ok _ =>
  rw [hcheck] at h
  cases hminted : mintNatsUserCreds p (mintOptions (options 0)) with
  | error e => rw [hminted] at h; cases h
  | ok minted =>
  rw [hminted] at h
  refine ⟨rfl, minted, rfl, ?_⟩
  cases hbinding : binding (options 0) with
  | none =>
    rw [hbinding] at h
    cases h
    exact ⟨rfl, .inl ⟨rfl, rfl⟩⟩
  | some bound =>
    obtain ⟨ledger, accountContext⟩ := bound
    rw [hbinding] at h
    dsimp only at h ⊢
    cases hrow : issuanceRow p (options 0) accountContext minted with
    | error e => rw [hrow] at h; cases h
    | ok row =>
      rw [hrow] at h
      dsimp only at h
      cases hanswer : (p.recordIssuance ledger row).answer with
      | recorded =>
        rw [hanswer] at h
        cases h
        exact ⟨rfl, .inr ⟨ledger, accountContext, row, _, rfl, hrow, hanswer, rfl⟩⟩
      | fenced scope => rw [hanswer] at h; cases h
      | rejected => rw [hanswer] at h; cases h

theorem binding_eq_none {o : IssueBrowserCredentialsOptions} (hcheck : checkOptions o = .ok ()) (h : binding o = none) :
    o.ledger = none := by
  unfold binding at h
  cases hledger : o.ledger with
  | none => rfl
  | some ledger =>
    cases hcontext : nonEmpty o.accountContext with
    | none => exact absurd hcontext ((checkOptions_ok hcheck).2 (by rw [hledger]; rfl))
    | some accountContext =>
      rw [hledger, hcontext] at h
      cases h

theorem binding_eq_some {o : IssueBrowserCredentialsOptions} {ledger : LedgerId} {accountContext : JsString}
    (h : binding o = some (ledger, accountContext)) : o.ledger = some ledger := by
  unfold binding at h
  split at h
  · cases h
    assumption
  · cases h

/-- The row of a token says what the token says. -/
theorem issuanceRow_ok {p : Platform Token} {o : IssueBrowserCredentialsOptions} {accountContext : JsString}
    {minted : MintedNatsUserCreds Token} {row : BrowserCredentialIssuance} {claim : UserClaim}
    (hdecode : p.decode minted.userJwt = some claim)
    (h : issuanceRow p o accountContext minted = .ok row) :
    row.tenant = o.tenant ∧ row.peerId = o.peerId ∧ claim.sub = some (.str row.userPubkey) ∧
      orElse claim.issuerAccount claim.iss = some (.str row.natsAccountPublicKey) ∧
      claim.iat = some (.num row.issuedAtSec) ∧ row.expiresAtSec = claim.exp.getD .null := by
  have hor : (orElse claim.exp (some .null)).getD .null = claim.exp.getD .null := by
    unfold orElse
    split
    · next heq => rw [heq]; rfl
    · next heq => rw [heq]
    · rfl
  unfold issuanceRow decodeMintedUserClaim at h
  rw [hdecode] at h
  dsimp only at h
  split at h
  case h_2 => cases h
  next sub account iat hsub haccount hiat =>
    split_ifs at h with hinteger
    · dsimp only [Bind.bind, Except.bind] at h
      split_ifs at h with hkey
      cases h
      exact ⟨rfl, rfl, by rw [hsub, not_not.mp hkey], haccount, hiat, hor⟩
    · cases h

/-! ## Lifetimes -/

/-- A lifetime that passes the check is added to the second of the call. -/
theorem expiry_checked {o : IssueBrowserCredentialsOptions} {now : Instant} {ttl : Number}
    (hcheck : checkOptions o = .ok ()) (httl : o.ttlSeconds = some ttl) :
    ∃ sum, ttl.bind (toDouble now.seconds).add = some sum ∧ expiry now (mintOptions o).ttlSeconds = truthy (some sum) := by
  obtain ⟨d, rfl, hfinite, hpositive⟩ := (checkOptions_ok hcheck).1 ttl httl
  -- A positive number is true in a condition.
  have htruthy : truthy (some d) = some d := by
    refine Option.filter_eq_some_iff.mpr ⟨rfl, decide_eq_true fun hzero => hpositive ?_⟩
    unfold Double.le
    rw [hzero]
    rfl
  have hsum : ∃ sum, (toDouble now.seconds).add d = some sum := by
    unfold Double.isFinite at hfinite
    unfold Double.add
    rw [toDouble_intCast now.natAbs_seconds]
    split at hfinite
    · next q hq => exact ⟨_, by rw [hq]⟩
    · cases hfinite
  obtain ⟨sum, hsum⟩ := hsum
  refine ⟨sum, hsum, ?_⟩
  unfold expiry mintOptions
  rw [httl]
  simp only [Option.bind_some, htruthy, Option.map_some, hsum]

theorem truthy_some (d : Double) : truthy (some d) = some d ↔ d.1 ≠ .finite 0 := by
  unfold truthy
  rw [Option.filter_eq_some_iff]
  simp

/-- The token of an absent lifetime has no expiry; that of another ends on a second exactly
where the sum does. -/
theorem lifetime_iff {p : Platform Token} {o : IssueBrowserCredentialsOptions} {claim : UserClaim}
    (hcheck : checkOptions o = .ok ()) (hiat : claim.iat = some (.num (toDouble p.encoderNow.seconds)))
    (hexp : claim.exp = (expiry p.now (mintOptions o).ttlSeconds).map .num) :
    ((claim.exp = none ↔ o.ttlSeconds = none) ∧ ∀ e, claim.exp = some e → WholeSecondsAfter claim e) ↔
      EndsOnSecond p o.ttlSeconds := by
  cases httl : o.ttlSeconds with
  | none =>
    have hnone : claim.exp = none := by
      rw [hexp]
      unfold expiry mintOptions
      rw [httl]
      rfl
    exact iff_of_true ⟨iff_of_true hnone rfl, fun e he => by rw [hnone] at he; cases he⟩ trivial
  | some ttl =>
    obtain ⟨sum, hsum, hexpiry⟩ := @expiry_checked _ p.now _ hcheck httl
    rw [hexpiry] at hexp
    constructor
    · rintro ⟨habsent, hwhole⟩
      have hnonzero : sum.1 ≠ .finite 0 := by
        intro hzero
        have hnone : truthy (some sum) = none := by
          unfold truthy
          rw [Option.filter_eq_none_iff]
          simp [hzero]
        rw [hnone] at hexp
        exact absurd (habsent.mp hexp) (Option.some_ne_none _)
      rw [(truthy_some sum).mpr hnonzero] at hexp
      obtain ⟨iat, exp, t, n, hiat', he, ht, hn⟩ := hwhole _ hexp
      cases he
      obtain rfl : toDouble p.encoderNow.seconds = iat := by
        rw [hiat] at hiat'
        cases hiat'
        rfl
      rw [toDouble_intCast p.encoderNow.natAbs_seconds] at ht
      have ht : p.encoderNow.seconds = t := by exact_mod_cast JsonNumber.finite.inj ht
      refine ⟨sum, t + n, hsum, hn, ?_, by omega⟩
      intro hzero
      exact hnonzero (by rw [hn, hzero]; rfl)
    · rintro ⟨sum', q, hsum', hq, hzero, hle⟩
      obtain rfl : sum = sum' := Option.some.inj (hsum.symm.trans hsum')
      have hnonzero : sum.1 ≠ .finite 0 := by
        rw [hq]
        intro heq
        exact hzero (by exact_mod_cast JsonNumber.finite.inj heq)
      rw [(truthy_some sum).mpr hnonzero] at hexp
      refine ⟨iff_of_false (by rw [hexp]; exact Option.some_ne_none _) (Option.some_ne_none _), fun e he => ?_⟩
      obtain rfl : Json.num sum = e := Option.some.inj (hexp.symm.trans he)
      refine ⟨_, sum, p.encoderNow.seconds, (q - p.encoderNow.seconds).toNat, hiat, rfl,
        toDouble_intCast p.encoderNow.natAbs_seconds, ?_⟩
      rw [hq, Int.toNat_of_nonneg (by omega)]
      congr 2
      omega

/-- A whole lifetime ends on a second. -/
theorem endsOnSecond_of_whole {p : Platform Token} {n : Int} (hn : n.natAbs ≤ 2 ^ 52) (hzero : p.now.seconds + n ≠ 0)
    (hle : p.encoderNow.seconds ≤ p.now.seconds + n) : EndsOnSecond p (some (some (toDouble n))) := by
  have hnow : p.now.seconds.natAbs ≤ 8640000000000 := by
    have h := p.now.inRange
    unfold Instant.seconds
    omega
  have hsum : (p.now.seconds + n).natAbs ≤ 2 ^ 53 - 1 := by omega
  exact ⟨_, _, Double.add_intCast (by omega) (by omega), toDouble_intCast hsum, hzero, hle⟩

/-- A credential that is handed out is recorded by the ledger, if there is one, just as its token
says, and grants its peer's subtree alone; it expires a whole number of seconds after its issue
time exactly where the lifetime ends on a second. -/
theorem issueBrowserCredentials_wellFormed_iff {p : Platform Token} (hp : Inverts p)
    (options : Nat → IssueBrowserCredentialsOptions) {creds : BrowserCredentials Token}
    (h : (issueBrowserCredentials p options).result = .ok creds) :
    (∃ claim, WellFormed p (options 0) (issueBrowserCredentials p options).calls creds claim) ↔
      EndsOnSecond p (options 0).ttlSeconds := by
  obtain ⟨hcheck, minted, hminted, rfl, hledger⟩ := issued_ok h
  obtain ⟨htenant, hpeer, call, htoken, hkey, hperms, hexp⟩ := mint_ok hminted
  have hdecode : p.decode minted.userJwt = some (claimOf p.encoderNow call) := hp call _ htoken
  have hlifetime := @lifetime_iff _ _ _ (claimOf p.encoderNow call) hcheck rfl (by rw [← hexp]; rfl)
  have hsubtree (s : JsString) : Nats.subjectMatches (peerGrant (options 0).tenant (options 0).peerId) s = true ↔
      InSubtree (options 0).tenant (options 0).peerId s :=
    Nats.peerGrant_matches (Nats.isPlain_of_valid htenant) (Nats.isPlain_of_valid hpeer)
  have hpublish (s : JsString) : (claimOf p.encoderNow call).permissions.mayPublish s = true ↔
      InSubtree (options 0).tenant (options 0).peerId s := by
    rw [← hsubtree s, show (claimOf p.encoderNow call).permissions = call.permissions from rfl, hperms, Nats.mayPublish_single]
  constructor
  · rintro ⟨claim, hwell⟩
    obtain rfl : claimOf p.encoderNow call = claim := Option.some.inj (hdecode.symm.trans hwell.decoded)
    exact hlifetime.mp ⟨hwell.absent, hwell.whole⟩
  · intro hends
    obtain ⟨habsent, hwhole⟩ := hlifetime.mpr hends
    refine ⟨claimOf p.encoderNow call, hdecode, ?_, hpublish, fun s => ?_, habsent, hwhole⟩
    · unfold Recorded
      obtain ⟨hbinding, hcalls⟩ | ⟨ledger, accountContext, row, response, hbinding, hrow, hanswer, hcalls⟩ := hledger
      · rw [binding_eq_none hcheck hbinding]
        exact hcalls
      · rw [binding_eq_some hbinding]
        obtain ⟨ht, hpeerId, hsub, haccount, hiat, hexp⟩ := issuanceRow_ok hdecode hrow
        refine ⟨row, response, hcalls, hanswer, ht, hpeerId, ⟨fun s => ?_, hsub, haccount, hiat, hexp⟩⟩
        rw [ht, hpeerId]
        exact hpublish s
    · rw [← hsubtree s, show (claimOf p.encoderNow call).permissions = call.permissions from rfl, hperms, Nats.maySubscribe_single]

/-! ### A platform whose tokens are what was encoded -/

def plainPlatform (milliseconds : Int) (h : milliseconds.natAbs ≤ 8640000000000000) : Platform EncodeUser where
  now := ⟨milliseconds, h⟩
  encoderNow := ⟨milliseconds, h⟩
  createUser := ⟨js "U1", js "SU1", []⟩
  fromSeed := fun seed => .ok ⟨js "A1", seed, []⟩
  fromPublic := .ok
  encodeUser := .ok
  decode := fun call => some (claimOf ⟨milliseconds, h⟩ call)
  recordIssuance := fun _ _ => ⟨true, .recorded⟩

theorem plainPlatform_inverts (milliseconds : Int) (h : milliseconds.natAbs ≤ 8640000000000000) :
    Inverts (plainPlatform milliseconds h) := by
  intro call token htoken
  cases htoken
  rfl

/-- Half a whole number is a double. -/
theorem isDouble_half {n : Int} (hn : n.natAbs ≤ 2 ^ 53 - 1) : (JsonNumber.finite (n / 2)).IsDouble := by
  refine ⟨⟨n, -1, by omega, by decide, by rw [zpow_neg_one]; ring⟩, ?_⟩
  calc |(n : Rat) / 2| ≤ |(n : Rat)| := by
        rw [abs_div, abs_two]
        exact half_le_self (abs_nonneg _)
    _ < 2 ^ 1024 := (isDouble_intCast hn).2

def oneAndAHalf : Double := ⟨.finite ((3 : Int) / 2), isDouble_half (by decide)⟩

/-- A peer that asks for a lifetime. -/
def asking (ttlSeconds : Double) : IssueBrowserCredentialsOptions where
  accountSeed := js "SA1"
  tenant := js "t"
  peerId := js "p"
  ttlSeconds := some (some ttlSeconds)
  ledger := some 0
  accountContext := some (js "login")

theorem exists_of_toBool {ε α : Type} {x : Except ε α} (h : x.toBool = true) : ∃ a, x = .ok a := by
  cases x with
  | error e => cases h
  | ok a => exact ⟨a, rfl⟩

/-- An hour's token is handed out and ends on a second. -/
theorem issueBrowserCredentials_hour :
    ∃ creds, (issueBrowserCredentials (plainPlatform 5000 (by decide)) fun _ => asking (toDouble ((3600 : Int) : Rat))).result =
        .ok creds ∧
      ∃ claim, WellFormed (plainPlatform 5000 (by decide)) (asking (toDouble ((3600 : Int) : Rat)))
        (issueBrowserCredentials (plainPlatform 5000 (by decide)) fun _ => asking (toDouble ((3600 : Int) : Rat))).calls creds
        claim := by
  obtain ⟨creds, h⟩ := exists_of_toBool (x := (issueBrowserCredentials (plainPlatform 5000 (by decide))
    fun _ => asking (toDouble ((3600 : Int) : Rat))).result) (by decide +kernel)
  refine ⟨creds, h, (issueBrowserCredentials_wellFormed_iff (plainPlatform_inverts _ _) _ h).mpr ?_⟩
  exact endsOnSecond_of_whole (by decide) (by decide) (by decide)

/-- A lifetime of one and a half seconds makes a token that expires between two seconds. -/
theorem expires_between_seconds :
    Inverts (plainPlatform 5000 (by decide)) ∧
      ∃ creds, (issueBrowserCredentials (plainPlatform 5000 (by decide)) fun _ => asking oneAndAHalf).result = .ok creds ∧
        ¬ ∃ claim, WellFormed (plainPlatform 5000 (by decide)) (asking oneAndAHalf)
          (issueBrowserCredentials (plainPlatform 5000 (by decide)) fun _ => asking oneAndAHalf).calls creds claim := by
  obtain ⟨creds, h⟩ := exists_of_toBool (x := (issueBrowserCredentials (plainPlatform 5000 (by decide))
    fun _ => asking oneAndAHalf).result) (by decide +kernel)
  refine ⟨plainPlatform_inverts _ _, creds, h, ?_⟩
  rintro ⟨claim, hwell⟩
  obtain ⟨hcheck, minted, hminted, rfl, -⟩ := issued_ok h
  obtain ⟨-, -, call, htoken, -, -, hexp⟩ := mint_ok hminted
  obtain rfl : claimOf _ call = claim := Option.some.inj ((plainPlatform_inverts _ _ call _ htoken).symm.trans hwell.decoded)
  obtain ⟨sum, q, hsum, hq, -⟩ := (@lifetime_iff _ _ _ (claimOf _ call) hcheck rfl (by rw [← hexp]; rfl)).mp
    ⟨hwell.absent, hwell.whole⟩
  -- Five seconds and one and a half are thirteen halves.
  have hadd : (toDouble ((5 : Int) : Rat)).add oneAndAHalf = some (toDouble (((13 : Int) : Rat) / 2)) := by
    unfold Double.add
    rw [toDouble_intCast (by decide)]
    norm_num [oneAndAHalf]
  have hsum' : sum = toDouble (((13 : Int) : Rat) / 2) := Option.some.inj (hsum.symm.trans hadd)
  rw [hsum', toDouble_self (isDouble_half (by decide))] at hq
  have hhalf : ((13 : Int) : Rat) / 2 = q := JsonNumber.finite.inj hq
  have hwhole : (13 : Int) = q * 2 := by exact_mod_cast (div_eq_iff (by norm_num)).mp hhalf
  omega

end Webchannel.Issuance
