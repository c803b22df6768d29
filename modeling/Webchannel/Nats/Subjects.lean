import Webchannel.Register.Handler

/-!
# Subjects and grants

The subjects of an account's channel (`nats-channel.ts`) and the permissions of the credentials that
`mintNatsUserCreds` (`nats-user-creds.ts`) mints. A subject is read token by token, as the relay reads it.
-/

namespace Webchannel.Nats

open Register (isValidSubjectToken isTokenUnit)

/-! ## Matching -/

/-- `subject.split(".")` -/
def subjectTokens (subject : JsString) : List JsString := subject.splitOn 46

/-- `*` stands for one token, and a final `>` for one or more. -/
def matchTokens : List JsString → List JsString → Bool
  | [], [] => true
  | [p], t :: ts => p = js ">" ∨ (p = js "*" ∨ p = t) ∧ ts = []
  | p :: ps, t :: ts => (p = js "*" ∨ p = t) ∧ matchTokens ps ts
  | _, _ => false

def subjectMatches (pattern subject : JsString) : Bool := matchTokens (subjectTokens pattern) (subjectTokens subject)

/-! ## Grants -/

/-- `assertValidSubjectToken`, with the message it throws. -/
def assertValidSubjectToken (token : JsString) (label : String) : Except String Unit :=
  if token = [] then .error s!"webchannel: {label} must be a non-empty string"
  else if isValidSubjectToken token then .ok ()
  else .error (s!"webchannel: {label} contains characters not allowed in a NATS subject token " ++
    "(allowed: A-Za-z0-9_-; rejected \".\", \"*\", \">\", whitespace, control chars)")

inductive NatsUserRole where
  | agent
  | browser
  | observer
  deriving DecidableEq, Repr

/-- The allow-lists; `denyPub` denies every publish. -/
structure Permissions where
  pub : List JsString
  sub : List JsString
  denyPub : Bool := false
  deriving DecidableEq

def tenantGrant (tenant : JsString) : JsString := js "webchannel." ++ tenant ++ js ".>"

def peerGrant (tenant peerId : JsString) : JsString := js "webchannel." ++ tenant ++ js ".*." ++ peerId ++ js ".>"

/-- The permissions that `mintNatsUserCreds` signs. -/
def mintNatsUserCreds (role : NatsUserRole) (tenant : JsString) (peerId : Option JsString) : Except String Permissions := do
  assertValidSubjectToken tenant "tenant"
  match role with
  | .agent => return { pub := [tenantGrant tenant], sub := [tenantGrant tenant] }
  | .observer => return { pub := [], sub := [tenantGrant tenant], denyPub := true }
  | .browser =>
    match peerId.filter (· ≠ []) with
    | none =>
      throw "mintNatsUserCreds: role 'browser' requires peerId (the authenticated JWT sub) to scope creds"
    | some peerId =>
      assertValidSubjectToken peerId "peerId"
      return { pub := [peerGrant tenant peerId], sub := [peerGrant tenant peerId] }

def Permissions.mayPublish (p : Permissions) (subject : JsString) : Bool :=
  p.denyPub = false ∧ p.pub.any fun pattern => subjectMatches pattern subject

def Permissions.maySubscribe (p : Permissions) (subject : JsString) : Bool :=
  p.sub.any fun pattern => subjectMatches pattern subject

/-! ## The channel -/

structure NatsChannel where
  tenant : JsString
  accountId : JsString
  encryptionRequired : Bool
  hasRegisterHandler : Bool
  deriving DecidableEq

namespace NatsChannel

variable (c : NatsChannel)

def base : JsString := js "webchannel." ++ c.tenant ++ js "." ++ c.accountId ++ js "."

def inboundSubject (peerId : JsString) : JsString := c.base ++ peerId ++ js ".in"

def outboundSubject (peerId : JsString) : JsString := c.base ++ peerId ++ js ".out"

/-- Where a peer publishes its register requests. -/
def registerSubject (peerId : JsString) : JsString := c.base ++ peerId ++ js ".register"

def registerWildcard : JsString := c.registerSubject (js "*")

def ownReginboxPrefix (peerId : JsString) : JsString := c.base ++ peerId ++ js ".reginbox."

/-- Where a message goes, and the peer it is taken to be from. -/
inductive Routed where
  | dropped
  | register (peerId : JsString)
  | encrypted (peerId : JsString)
  | plaintext (peerId : JsString)
  deriving DecidableEq

def Routed.peerId : Routed → Option JsString
  | .dropped => none
  | .register peerId => some peerId
  | .encrypted peerId => some peerId
  | .plaintext peerId => some peerId

def handleNatsMessage (subject : JsString) : Routed :=
  match subjectTokens subject with
  | t₀ :: t₁ :: t₂ :: peerId :: t₄ :: rest =>
    if (t₀ :: t₁ :: t₂ :: peerId :: t₄ :: rest).getLast? = some (js "register") then .register peerId
    else if c.encryptionRequired then .encrypted peerId
    else .plaintext peerId
  | _ => .dropped

/-- What the reply callback of a register request publishes. -/
def registerReply (peerId : JsString) (replyTo : Option JsString) (response : JsString) : Option (JsString × JsString) :=
  match replyTo.filter (· ≠ []) with
  | none => none
  | some replyTo =>
    if (c.ownReginboxPrefix peerId).isPrefixOf replyTo ∧
        isValidSubjectToken (replyTo.drop (c.ownReginboxPrefix peerId).length) then
      some (replyTo, response)
    else none

/-- What a message can make the channel publish as a register reply. -/
def handleRegister (subject : JsString) (replyTo : Option JsString) (response : JsString) : Option (JsString × JsString) :=
  match c.handleNatsMessage subject with
  | .register peerId => if c.hasRegisterHandler then c.registerReply peerId replyTo response else none
  | _ => none

/-- What the account subscribes to: `subscribeRegister` and one `registerPeer` for each peer. -/
def subscriptions (peers : List JsString) : List JsString := c.registerWildcard :: peers.map c.inboundSubject

/-- The relay delivers what matches a subscription. -/
def Delivers (peers : List JsString) (subject : JsString) : Prop :=
  ∃ pattern ∈ c.subscriptions peers, subjectMatches pattern subject = true

end NatsChannel

/-- What the channel of an account publishes or subscribes for one peer. -/
inductive PeerSubject (c : NatsChannel) (peerId : JsString) : JsString → Prop
  | inbound : PeerSubject c peerId (c.inboundSubject peerId)
  | outbound : PeerSubject c peerId (c.outboundSubject peerId)
  | register : PeerSubject c peerId (c.registerSubject peerId)
  | reply {replyTo : JsString} {response : JsString} {sent : JsString × JsString}
      (h : c.registerReply peerId (some replyTo) response = some sent) : PeerSubject c peerId replyTo

/-! ## Tokens -/

/-- A string that is one token and no wildcard. -/
structure IsPlain (token : JsString) : Prop where
  dotless : 46 ∉ token
  star : token ≠ js "*"
  rest : token ≠ js ">"

theorem isPlain_of_valid {token : JsString} (h : isValidSubjectToken token = true) : IsPlain token := by
  obtain ⟨hall, -, -⟩ := of_decide_eq_true h
  have hunit : ∀ u ∈ token, isTokenUnit u = true := List.all_eq_true.mp hall
  have hno : ∀ u : UInt16, isTokenUnit u = false → u ∉ token := by
    intro u hu hmem
    rw [hunit u hmem] at hu
    cases hu
  refine ⟨hno 46 (by decide), ?_, ?_⟩
  · rintro rfl
    exact hno 42 (by decide) (by decide)
  · rintro rfl
    exact hno 62 (by decide) (by decide)

/-- Plain tokens, joined by dots. -/
theorem subjectTokens_join {tokens : List JsString} (h : ∀ t ∈ tokens, 46 ∉ t) (hne : tokens ≠ []) :
    subjectTokens ([46].intercalate tokens) = tokens := List.splitOn_intercalate 46 h hne

theorem dotless_literal {s : String} (h : (js s).all (fun u => decide (u ≠ 46)) = true) : 46 ∉ js s := by
  intro hmem
  exact of_decide_eq_true (List.all_eq_true.mp h 46 hmem) rfl

namespace NatsChannel

variable {c : NatsChannel} {peerId : JsString}

/-- A subject of five tokens below the account. -/
theorem subjectTokens_peer (ht : 46 ∉ c.tenant) (ha : 46 ∉ c.accountId) (hp : 46 ∉ peerId) (suffix : List JsString)
    (hs : ∀ t ∈ suffix, 46 ∉ t) (hne : suffix ≠ []) :
    subjectTokens (c.base ++ peerId ++ 46 :: [46].intercalate suffix) =
      js "webchannel" :: c.tenant :: c.accountId :: peerId :: suffix := by
  have hjoin : c.base ++ peerId ++ 46 :: [46].intercalate suffix =
      [46].intercalate (js "webchannel" :: c.tenant :: c.accountId :: peerId :: suffix) := by
    rw [List.intercalate_cons_of_ne_nil (List.cons_ne_nil _ _), List.intercalate_cons_of_ne_nil (List.cons_ne_nil _ _),
      List.intercalate_cons_of_ne_nil (List.cons_ne_nil _ _), List.intercalate_cons_of_ne_nil hne]
    unfold base
    rw [show js "webchannel." = js "webchannel" ++ [46] by decide, show js "." = [46] by decide]
    simp only [List.append_assoc, List.cons_append, List.nil_append]
  rw [hjoin]
  refine subjectTokens_join ?_ (List.cons_ne_nil _ _)
  intro t hmem
  simp only [List.mem_cons] at hmem
  obtain rfl | rfl | rfl | rfl | hmem := hmem
  · exact dotless_literal (by decide)
  · exact ht
  · exact ha
  · exact hp
  · exact hs t hmem

/-- A subject whose last token is a plain word. -/
theorem subjectTokens_word (ht : 46 ∉ c.tenant) (ha : 46 ∉ c.accountId) (hp : 46 ∉ peerId) (word : String)
    (hword : (js word).all (fun u => decide (u ≠ 46)) = true) :
    subjectTokens (c.base ++ peerId ++ 46 :: js word) =
      [js "webchannel", c.tenant, c.accountId, peerId, js word] := by
  have h := subjectTokens_peer ht ha hp [js word]
    (fun t hmem => by rw [List.mem_singleton.mp hmem]; exact dotless_literal hword) (List.cons_ne_nil _ _)
  rw [List.intercalate_singleton] at h
  exact h

/-- A reply goes to a reginbox of the peer, under one token. -/
theorem registerReply_eq {replyTo : Option JsString} {response : JsString} {sent : JsString × JsString}
    (h : c.registerReply peerId replyTo response = some sent) :
    ∃ token, isValidSubjectToken token = true ∧ replyTo = some (c.ownReginboxPrefix peerId ++ token) ∧
      sent = (c.ownReginboxPrefix peerId ++ token, response) := by
  unfold registerReply at h
  cases hreply : replyTo.filter (· ≠ []) with
  | none =>
    rw [hreply] at h
    cases h
  | some target =>
    rw [hreply] at h
    dsimp only at h
    split at h
    · rename_i hown
      obtain ⟨token, rfl⟩ := List.isPrefixOf_iff_prefix.mp hown.1
      have hvalid := hown.2
      rw [List.drop_left] at hvalid
      have hsome : replyTo = some (c.ownReginboxPrefix peerId ++ token) :=
        (Option.filter_eq_some_iff.mp hreply).1
      exact ⟨token, hvalid, hsome, (Option.some.inj h).symm⟩
    · cases h

/-- The tokens of a subject of a peer. -/
theorem PeerSubject.tokens {s : JsString} (h : PeerSubject c peerId s) (ht : 46 ∉ c.tenant) (ha : 46 ∉ c.accountId)
    (hp : 46 ∉ peerId) :
    ∃ y rest, subjectTokens s = js "webchannel" :: c.tenant :: c.accountId :: peerId :: y :: rest := by
  cases h with
  | inbound => exact ⟨_, _, subjectTokens_word ht ha hp "in" (by decide)⟩
  | outbound => exact ⟨_, _, subjectTokens_word ht ha hp "out" (by decide)⟩
  | register => exact ⟨_, _, subjectTokens_word ht ha hp "register" (by decide)⟩
  | reply h =>
    obtain ⟨token, hvalid, hto, -⟩ := registerReply_eq h
    have htokens := subjectTokens_peer ht ha hp [js "reginbox", token]
      (fun t hmem => by
        obtain rfl | hmem := List.mem_cons.mp hmem
        · exact dotless_literal (by decide)
        · rw [List.mem_singleton.mp hmem]
          exact (isPlain_of_valid hvalid).dotless) (List.cons_ne_nil _ _)
    have hsubject : c.base ++ peerId ++ 46 :: [46].intercalate [js "reginbox", token] = c.ownReginboxPrefix peerId ++ token := by
      rw [List.intercalate_cons_of_ne_nil (List.cons_ne_nil _ _), List.intercalate_singleton]
      unfold ownReginboxPrefix
      rw [show js ".reginbox." = 46 :: (js "reginbox" ++ [46]) by decide]
      simp only [List.append_assoc, List.cons_append, List.nil_append]
    rw [Option.some.inj hto, ← hsubject, htokens]
    exact ⟨_, _, rfl⟩

end NatsChannel

/-! ## What a grant matches -/

theorem peerGrant_tokens {tenant peerId : JsString} (ht : 46 ∉ tenant) (hp : 46 ∉ peerId) :
    subjectTokens (peerGrant tenant peerId) = [js "webchannel", tenant, js "*", peerId, js ">"] := by
  have hjoin : peerGrant tenant peerId = [46].intercalate [js "webchannel", tenant, js "*", peerId, js ">"] := by
    rw [List.intercalate_cons_of_ne_nil (List.cons_ne_nil _ _), List.intercalate_cons_of_ne_nil (List.cons_ne_nil _ _),
      List.intercalate_cons_of_ne_nil (List.cons_ne_nil _ _), List.intercalate_cons_of_ne_nil (List.cons_ne_nil _ _),
      List.intercalate_singleton]
    unfold peerGrant
    rw [show js "webchannel." = js "webchannel" ++ [46] by decide, show js ".*." = [46] ++ (js "*" ++ [46]) by decide,
      show js ".>" = [46] ++ js ">" by decide]
    simp only [List.append_assoc]
  rw [hjoin]
  refine subjectTokens_join ?_ (List.cons_ne_nil _ _)
  intro t hmem
  simp only [List.mem_cons, List.not_mem_nil, or_false] at hmem
  obtain rfl | rfl | rfl | rfl | rfl := hmem
  · exact dotless_literal (by decide)
  · exact ht
  · exact dotless_literal (by decide)
  · exact hp
  · exact dotless_literal (by decide)

theorem tenantGrant_tokens {tenant : JsString} (ht : 46 ∉ tenant) :
    subjectTokens (tenantGrant tenant) = [js "webchannel", tenant, js ">"] := by
  have hjoin : tenantGrant tenant = [46].intercalate [js "webchannel", tenant, js ">"] := by
    rw [List.intercalate_cons_of_ne_nil (List.cons_ne_nil _ _), List.intercalate_cons_of_ne_nil (List.cons_ne_nil _ _),
      List.intercalate_singleton]
    unfold tenantGrant
    rw [show js "webchannel." = js "webchannel" ++ [46] by decide, show js ".>" = [46] ++ js ">" by decide]
    simp only [List.append_assoc]
  rw [hjoin]
  refine subjectTokens_join ?_ (List.cons_ne_nil _ _)
  intro t hmem
  simp only [List.mem_cons, List.not_mem_nil, or_false] at hmem
  obtain rfl | rfl | rfl := hmem
  · exact dotless_literal (by decide)
  · exact ht
  · exact dotless_literal (by decide)

theorem matchTokens_cons {p t : JsString} {ps ts : List JsString} (hps : ps ≠ []) :
    matchTokens (p :: ps) (t :: ts) = decide ((p = js "*" ∨ p = t) ∧ matchTokens ps ts = true) := by
  cases ps with
  | nil => exact absurd rfl hps
  | cons p' ps => rfl

theorem matchTokens_nil {p : JsString} {ps : List JsString} : matchTokens (p :: ps) [] = false := by
  cases ps <;> rfl

/-- One token of a pattern that is no wildcard, with more to come. -/
theorem matchTokens_plain {p : JsString} {ps ts : List JsString} (hp : p ≠ js "*") (hps : ps ≠ []) :
    matchTokens (p :: ps) ts = true ↔ ∃ rest, ts = p :: rest ∧ matchTokens ps rest = true := by
  cases ts with
  | nil =>
    rw [matchTokens_nil]
    exact iff_of_false Bool.false_ne_true fun ⟨_, h, _⟩ => List.cons_ne_nil _ _ h.symm
  | cons t ts =>
    rw [matchTokens_cons hps, decide_eq_true_iff, or_iff_right hp]
    constructor
    · rintro ⟨rfl, h⟩
      exact ⟨ts, rfl, h⟩
    · rintro ⟨rest, heq, h⟩
      obtain ⟨rfl, rfl⟩ := List.cons.inj heq
      exact ⟨rfl, h⟩

theorem matchTokens_star {ps ts : List JsString} (hps : ps ≠ []) :
    matchTokens (js "*" :: ps) ts = true ↔ ∃ t rest, ts = t :: rest ∧ matchTokens ps rest = true := by
  cases ts with
  | nil =>
    rw [matchTokens_nil]
    exact iff_of_false Bool.false_ne_true fun ⟨_, _, h, _⟩ => List.cons_ne_nil _ _ h.symm
  | cons t ts =>
    rw [matchTokens_cons hps, decide_eq_true_iff]
    constructor
    · rintro ⟨-, h⟩
      exact ⟨t, ts, rfl, h⟩
    · rintro ⟨t', rest, heq, h⟩
      obtain ⟨rfl, rfl⟩ := List.cons.inj heq
      exact ⟨.inl rfl, h⟩

theorem matchTokens_rest {ts : List JsString} : matchTokens [js ">"] ts = true ↔ ∃ t rest, ts = t :: rest := by
  cases ts with
  | nil => exact iff_of_false Bool.false_ne_true fun ⟨_, _, h⟩ => List.cons_ne_nil _ _ h.symm
  | cons t ts => exact iff_of_true (decide_eq_true (.inl rfl)) ⟨t, ts, rfl⟩

theorem matchTokens_word {p : JsString} {ts : List JsString} (hp : IsPlain p) : matchTokens [p] ts = true ↔ ts = [p] := by
  cases ts with
  | nil => exact iff_of_false Bool.false_ne_true fun h => List.cons_ne_nil _ _ h.symm
  | cons t ts =>
    unfold matchTokens
    rw [decide_eq_true_iff, or_iff_right hp.rest, or_iff_right hp.star]
    constructor
    · rintro ⟨rfl, rfl⟩
      rfl
    · intro h
      obtain ⟨rfl, rfl⟩ := List.cons.inj h
      exact ⟨rfl, rfl⟩

/-- The subjects of the grant of a peer are those below its tenant, any account, and itself. -/
theorem peerGrant_matches {tenant peerId s : JsString} (ht : IsPlain tenant) (hp : IsPlain peerId) :
    subjectMatches (peerGrant tenant peerId) s = true ↔
      ∃ a y rest, subjectTokens s = js "webchannel" :: tenant :: a :: peerId :: y :: rest := by
  unfold subjectMatches
  rw [peerGrant_tokens ht.dotless hp.dotless]
  constructor
  · intro h
    obtain ⟨_, hs, hroot⟩ := (matchTokens_plain (by decide) (List.cons_ne_nil _ _)).mp h
    obtain ⟨_, rfl, htenant⟩ := (matchTokens_plain ht.star (List.cons_ne_nil _ _)).mp hroot
    obtain ⟨a, _, rfl, haccount⟩ := (matchTokens_star (List.cons_ne_nil _ _)).mp htenant
    obtain ⟨_, rfl, hpeer⟩ := (matchTokens_plain hp.star (List.cons_ne_nil _ _)).mp haccount
    obtain ⟨y, rest, rfl⟩ := matchTokens_rest.mp hpeer
    exact ⟨a, y, rest, hs⟩
  · rintro ⟨a, y, rest, hs⟩
    rw [hs]
    refine (matchTokens_plain (by decide) (List.cons_ne_nil _ _)).mpr ⟨_, rfl, ?_⟩
    refine (matchTokens_plain ht.star (List.cons_ne_nil _ _)).mpr ⟨_, rfl, ?_⟩
    refine (matchTokens_star (List.cons_ne_nil _ _)).mpr ⟨_, _, rfl, ?_⟩
    exact (matchTokens_plain hp.star (List.cons_ne_nil _ _)).mpr ⟨_, rfl, matchTokens_rest.mpr ⟨_, _, rfl⟩⟩

theorem tenantGrant_matches {tenant s : JsString} (ht : IsPlain tenant) :
    subjectMatches (tenantGrant tenant) s = true ↔ ∃ y rest, subjectTokens s = js "webchannel" :: tenant :: y :: rest := by
  unfold subjectMatches
  rw [tenantGrant_tokens ht.dotless]
  constructor
  · intro h
    obtain ⟨_, hs, hroot⟩ := (matchTokens_plain (by decide) (List.cons_ne_nil _ _)).mp h
    obtain ⟨_, rfl, htenant⟩ := (matchTokens_plain ht.star (List.cons_ne_nil _ _)).mp hroot
    obtain ⟨y, rest, rfl⟩ := matchTokens_rest.mp htenant
    exact ⟨y, rest, hs⟩
  · rintro ⟨y, rest, hs⟩
    rw [hs]
    refine (matchTokens_plain (by decide) (List.cons_ne_nil _ _)).mpr ⟨_, rfl, ?_⟩
    exact (matchTokens_plain ht.star (List.cons_ne_nil _ _)).mpr ⟨_, rfl, matchTokens_rest.mpr ⟨_, _, rfl⟩⟩

/-! ## Minted permissions -/

theorem assertValidSubjectToken_ok {token : JsString} {label : String} :
    assertValidSubjectToken token label = .ok () ↔ isValidSubjectToken token = true := by
  unfold assertValidSubjectToken
  by_cases hempty : token = []
  · rw [if_pos hempty, hempty]
    exact iff_of_false (fun h => by cases h) (by decide)
  rw [if_neg hempty]
  by_cases hvalid : isValidSubjectToken token = true
  · rw [if_pos hvalid]
    exact iff_of_true rfl hvalid
  · rw [if_neg hvalid]
    exact iff_of_false (fun h => by cases h) hvalid

theorem mint_agent {tenant : JsString} {peerId : Option JsString} {perms : Permissions}
    (h : mintNatsUserCreds .agent tenant peerId = .ok perms) :
    isValidSubjectToken tenant = true ∧ perms = { pub := [tenantGrant tenant], sub := [tenantGrant tenant] } := by
  unfold mintNatsUserCreds at h
  cases htenant : assertValidSubjectToken tenant "tenant" with
  | error e =>
    rw [htenant] at h
    cases h
  | ok u =>
    rw [htenant] at h
    cases h
    exact ⟨assertValidSubjectToken_ok.mp htenant, rfl⟩

theorem mint_browser {tenant peerId : JsString} {perms : Permissions}
    (h : mintNatsUserCreds .browser tenant (some peerId) = .ok perms) :
    isValidSubjectToken tenant = true ∧ isValidSubjectToken peerId = true ∧
      perms = { pub := [peerGrant tenant peerId], sub := [peerGrant tenant peerId] } := by
  unfold mintNatsUserCreds at h
  cases htenant : assertValidSubjectToken tenant "tenant" with
  | error e =>
    rw [htenant] at h
    cases h
  | ok u =>
    rw [htenant] at h
    by_cases hempty : peerId = []
    · subst hempty
      cases h
    have hsome : (some peerId).filter (· ≠ []) = some peerId := Option.filter_eq_some_iff.mpr ⟨rfl, decide_eq_true hempty⟩
    dsimp only [Bind.bind, Except.bind] at h
    rw [hsome] at h
    cases hpeer : assertValidSubjectToken peerId "peerId" with
    | error e =>
      dsimp only at h
      rw [hpeer] at h
      cases h
    | ok u =>
      dsimp only at h
      rw [hpeer] at h
      cases h
      exact ⟨assertValidSubjectToken_ok.mp htenant, assertValidSubjectToken_ok.mp hpeer, rfl⟩

theorem mayPublish_single {pattern s : JsString} :
    ({ pub := [pattern], sub := [pattern] } : Permissions).mayPublish s = subjectMatches pattern s := by
  unfold Permissions.mayPublish
  rw [List.any_cons, List.any_nil, Bool.or_false]
  exact Bool.eq_iff_iff.mpr (decide_eq_true_iff.trans (and_iff_right rfl))

theorem maySubscribe_single {pattern s : JsString} :
    ({ pub := [pattern], sub := [pattern] } : Permissions).maySubscribe s = subjectMatches pattern s := by
  unfold Permissions.maySubscribe
  rw [List.any_cons, List.any_nil, Bool.or_false]

/-! ## The channel and the grants -/

namespace NatsChannel

variable {c : NatsChannel} {peerId s : JsString}

/-- A subject of a peer lies in the grant of that peer under that tenant, and in no other. -/
theorem PeerSubject.in_peerGrant (h : PeerSubject c peerId s) (ht : IsPlain c.tenant) (ha : IsPlain c.accountId)
    (hp : IsPlain peerId) {t p : JsString} (ht' : IsPlain t) (hp' : IsPlain p) :
    subjectMatches (peerGrant t p) s = true ↔ t = c.tenant ∧ p = peerId := by
  obtain ⟨y, rest, htokens⟩ := PeerSubject.tokens h ht.dotless ha.dotless hp.dotless
  rw [peerGrant_matches ht' hp', htokens]
  constructor
  · rintro ⟨a, y', rest', heq⟩
    simp only [List.cons.injEq, true_and] at heq
    exact ⟨heq.1.symm, heq.2.2.1.symm⟩
  · rintro ⟨rfl, rfl⟩
    exact ⟨_, _, _, rfl⟩

theorem PeerSubject.in_tenantGrant (h : PeerSubject c peerId s) (ht : IsPlain c.tenant) (ha : IsPlain c.accountId)
    (hp : IsPlain peerId) {t : JsString} (ht' : IsPlain t) : subjectMatches (tenantGrant t) s = true ↔ t = c.tenant := by
  obtain ⟨y, rest, htokens⟩ := PeerSubject.tokens h ht.dotless ha.dotless hp.dotless
  rw [tenantGrant_matches ht', htokens]
  constructor
  · rintro ⟨y', rest', heq⟩
    simp only [List.cons.injEq, true_and] at heq
    exact heq.1.symm
  · rintro rfl
    exact ⟨_, _, rfl⟩

/-- No subject lies in the grants of two peers. -/
theorem peerGrants_disjoint {t p t' p' : JsString} (ht : IsPlain t) (hp : IsPlain p) (ht' : IsPlain t') (hp' : IsPlain p')
    (h : subjectMatches (peerGrant t p) s = true) (h' : subjectMatches (peerGrant t' p') s = true) : t = t' ∧ p = p' := by
  obtain ⟨a, y, rest, htokens⟩ := (peerGrant_matches ht hp).mp h
  obtain ⟨a', y', rest', htokens'⟩ := (peerGrant_matches ht' hp').mp h'
  rw [htokens] at htokens'
  simp only [List.cons.injEq, true_and] at htokens'
  exact ⟨htokens'.1, htokens'.2.2.1⟩

/-! ## Routing -/

theorem handleNatsMessage_of_tokens {w t a last : JsString} (h : subjectTokens s = [w, t, a, peerId, last]) :
    c.handleNatsMessage s =
      if last = js "register" then .register peerId else if c.encryptionRequired then .encrypted peerId else .plaintext peerId := by
  unfold handleNatsMessage
  rw [h]
  dsimp only [List.getLast?]
  simp only [List.getLast_cons_cons, List.getLast_singleton, Option.some.injEq]

theorem handleNatsMessage_inbound (ht : 46 ∉ c.tenant) (ha : 46 ∉ c.accountId) (hp : 46 ∉ peerId) :
    c.handleNatsMessage (c.inboundSubject peerId) =
      if c.encryptionRequired then .encrypted peerId else .plaintext peerId := by
  have htokens : subjectTokens (c.inboundSubject peerId) = _ := subjectTokens_word ht ha hp "in" (by decide)
  rw [handleNatsMessage_of_tokens htokens, if_neg (by decide)]

theorem handleNatsMessage_register (ht : 46 ∉ c.tenant) (ha : 46 ∉ c.accountId) (hp : 46 ∉ peerId) :
    c.handleNatsMessage (c.registerSubject peerId) = .register peerId := by
  have htokens : subjectTokens (c.registerSubject peerId) = _ := subjectTokens_word ht ha hp "register" (by decide)
  rw [handleNatsMessage_of_tokens htokens, if_pos rfl]

/-- A subject is the join of its tokens. -/
theorem eq_of_tokens {s' : JsString} (h : subjectTokens s = subjectTokens s') : s = s' := by
  have hs : [46].intercalate (s.splitOn 46) = s := List.intercalate_splitOn 46
  have hs' : [46].intercalate (s'.splitOn 46) = s' := List.intercalate_splitOn 46
  unfold subjectTokens at h
  rw [h] at hs
  exact hs.symm.trans hs'

/-- No token holds a dot. -/
theorem dotless_of_mem : ∀ {s t : JsString}, t ∈ subjectTokens s → 46 ∉ t := by
  intro s
  unfold subjectTokens
  induction s with
  | nil =>
    intro t ht
    rw [List.splitOn_nil, List.mem_singleton] at ht
    rw [ht]
    exact List.not_mem_nil
  | cons u s ih =>
    intro t ht
    rw [List.splitOn_cons_eq_if_modifyHead] at ht
    by_cases hu : u = 46
    · rw [if_pos (beq_iff_eq.mpr hu)] at ht
      obtain rfl | ht := List.mem_cons.mp ht
      · exact List.not_mem_nil
      · exact ih ht
    · rw [if_neg (fun h => hu (beq_iff_eq.mp h))] at ht
      cases hsplit : s.splitOn 46 with
      | nil => exact absurd hsplit (List.splitOn_ne_nil 46 s)
      | cons w ws =>
        rw [hsplit] at ih ht
        obtain rfl | ht := List.mem_cons.mp ht
        · intro hmem
          obtain heq | hmem := List.mem_cons.mp hmem
          · exact hu heq.symm
          · exact ih (List.mem_cons_self ..) hmem
        · exact ih (List.mem_cons_of_mem _ ht)

theorem inboundSubject_matches (ht : IsPlain c.tenant) (ha : IsPlain c.accountId) (hp : IsPlain peerId) :
    subjectMatches (c.inboundSubject peerId) s = true ↔ s = c.inboundSubject peerId := by
  have htokens : subjectTokens (c.inboundSubject peerId) = _ := subjectTokens_word ht.dotless ha.dotless hp.dotless "in" (by decide)
  constructor
  · intro h
    unfold subjectMatches at h
    rw [htokens] at h
    obtain ⟨_, hs, hroot⟩ := (matchTokens_plain (by decide) (List.cons_ne_nil _ _)).mp h
    obtain ⟨_, rfl, htenant⟩ := (matchTokens_plain ht.star (List.cons_ne_nil _ _)).mp hroot
    obtain ⟨_, rfl, haccount⟩ := (matchTokens_plain ha.star (List.cons_ne_nil _ _)).mp htenant
    obtain ⟨_, rfl, hpeer⟩ := (matchTokens_plain hp.star (List.cons_ne_nil _ _)).mp haccount
    rw [(matchTokens_word ⟨by decide, by decide, by decide⟩).mp hpeer] at hs
    exact eq_of_tokens (hs.trans htokens.symm)
  · rintro rfl
    unfold subjectMatches
    rw [htokens]
    refine (matchTokens_plain (by decide) (List.cons_ne_nil _ _)).mpr ⟨_, rfl, ?_⟩
    refine (matchTokens_plain ht.star (List.cons_ne_nil _ _)).mpr ⟨_, rfl, ?_⟩
    refine (matchTokens_plain ha.star (List.cons_ne_nil _ _)).mpr ⟨_, rfl, ?_⟩
    refine (matchTokens_plain hp.star (List.cons_ne_nil _ _)).mpr ⟨_, rfl, ?_⟩
    exact (matchTokens_word ⟨by decide, by decide, by decide⟩).mpr rfl

/-- The wildcard takes the register subject of every peer, and nothing else. -/
theorem registerWildcard_matches (ht : IsPlain c.tenant) (ha : IsPlain c.accountId) :
    subjectMatches c.registerWildcard s = true ↔ ∃ q, 46 ∉ q ∧ s = c.registerSubject q := by
  have htokens : subjectTokens c.registerWildcard = _ :=
    subjectTokens_word ht.dotless ha.dotless (dotless_literal (by decide)) "register" (by decide)
  unfold subjectMatches
  rw [htokens]
  constructor
  · intro h
    obtain ⟨_, hs, hroot⟩ := (matchTokens_plain (by decide) (List.cons_ne_nil _ _)).mp h
    obtain ⟨_, rfl, htenant⟩ := (matchTokens_plain ht.star (List.cons_ne_nil _ _)).mp hroot
    obtain ⟨_, rfl, haccount⟩ := (matchTokens_plain ha.star (List.cons_ne_nil _ _)).mp htenant
    obtain ⟨q, _, rfl, hpeer⟩ := (matchTokens_star (List.cons_ne_nil _ _)).mp haccount
    rw [(matchTokens_word ⟨by decide, by decide, by decide⟩).mp hpeer] at hs
    have hq : 46 ∉ q := dotless_of_mem (s := s) (by rw [hs]; simp only [List.mem_cons, true_or, or_true])
    exact ⟨q, hq, eq_of_tokens (hs.trans (subjectTokens_word ht.dotless ha.dotless hq "register" (by decide)).symm)⟩
  · rintro ⟨q, hq, rfl⟩
    have hregister : subjectTokens (c.registerSubject q) = _ := subjectTokens_word ht.dotless ha.dotless hq "register" (by decide)
    rw [hregister]
    refine (matchTokens_plain (by decide) (List.cons_ne_nil _ _)).mpr ⟨_, rfl, ?_⟩
    refine (matchTokens_plain ht.star (List.cons_ne_nil _ _)).mpr ⟨_, rfl, ?_⟩
    refine (matchTokens_plain ha.star (List.cons_ne_nil _ _)).mpr ⟨_, rfl, ?_⟩
    refine (matchTokens_star (List.cons_ne_nil _ _)).mpr ⟨_, _, rfl, ?_⟩
    exact (matchTokens_word ⟨by decide, by decide, by decide⟩).mpr rfl

/-- What is delivered is taken to be from the peer whose subject it is. -/
theorem delivered (ht : IsPlain c.tenant) (ha : IsPlain c.accountId) {peers : List JsString} (hpeers : ∀ q ∈ peers, IsPlain q)
    (h : c.Delivers peers s) :
    ∃ q, 46 ∉ q ∧ (q ∈ peers ∧ s = c.inboundSubject q ∧
        c.handleNatsMessage s = (if c.encryptionRequired then .encrypted q else .plaintext q) ∨
      s = c.registerSubject q ∧ c.handleNatsMessage s = .register q) := by
  obtain ⟨pattern, hmem, hmatch⟩ := h
  obtain rfl | hmem := List.mem_cons.mp hmem
  · obtain ⟨q, hq, rfl⟩ := (registerWildcard_matches ht ha).mp hmatch
    exact ⟨q, hq, .inr ⟨rfl, handleNatsMessage_register ht.dotless ha.dotless hq⟩⟩
  · obtain ⟨q, hq, rfl⟩ := List.mem_map.mp hmem
    obtain rfl := (inboundSubject_matches ht ha (hpeers q hq)).mp hmatch
    have hdot := (hpeers q hq).dotless
    exact ⟨q, hdot, .inl ⟨hq, rfl, handleNatsMessage_inbound ht.dotless ha.dotless hdot⟩⟩

/-- The peer that a subject belongs to, whichever of its subjects it is. -/
theorem PeerSubject.unique {p q : JsString} (hp : PeerSubject c p s) (hq : PeerSubject c q s) (ht : 46 ∉ c.tenant)
    (ha : 46 ∉ c.accountId) (hpd : 46 ∉ p) (hqd : 46 ∉ q) : p = q := by
  obtain ⟨y, rest, htokens⟩ := PeerSubject.tokens hp ht ha hpd
  obtain ⟨y', rest', htokens'⟩ := PeerSubject.tokens hq ht ha hqd
  rw [htokens] at htokens'
  simp only [List.cons.injEq, true_and] at htokens'
  exact htokens'.1

/-- A register reply is published to a reginbox of the peer that asked. -/
theorem handleRegister_own (ht : IsPlain c.tenant) (ha : IsPlain c.accountId) {peers : List JsString}
    (hpeers : ∀ q ∈ peers, IsPlain q) (h : c.Delivers peers s) {replyTo : Option JsString} {response : JsString}
    {sent : JsString × JsString} (hsent : c.handleRegister s replyTo response = some sent) :
    ∃ q token, 46 ∉ q ∧ s = c.registerSubject q ∧ isValidSubjectToken token = true ∧
      sent = (c.ownReginboxPrefix q ++ token, response) := by
  obtain ⟨q, hq, hroute⟩ := delivered ht ha hpeers h
  unfold handleRegister at hsent
  obtain ⟨-, -, hroute⟩ | ⟨hs, hroute⟩ := hroute
  · rw [hroute] at hsent
    split_ifs at hsent
  · rw [hroute] at hsent
    dsimp only at hsent
    split_ifs at hsent
    obtain ⟨token, hvalid, -, hsent⟩ := registerReply_eq hsent
    exact ⟨q, token, hq, hs, hvalid, hsent⟩

/-- The subjects of one peer are open to that peer, under that tenant, and to the agent of the tenant, and are
taken to be that peer's. -/
theorem subjects_isolated {c : NatsChannel} (ht : isValidSubjectToken c.tenant = true)
    (ha : isValidSubjectToken c.accountId = true) :
    (∀ peerId s, isValidSubjectToken peerId = true → PeerSubject c peerId s →
      (∀ t p perms, mintNatsUserCreds .browser t (some p) = .ok perms →
        (perms.mayPublish s = true ↔ t = c.tenant ∧ p = peerId) ∧
        (perms.maySubscribe s = true ↔ t = c.tenant ∧ p = peerId)) ∧
      (∀ t peer perms, mintNatsUserCreds .agent t peer = .ok perms →
        (perms.mayPublish s = true ↔ t = c.tenant) ∧ (perms.maySubscribe s = true ↔ t = c.tenant))) ∧
    (∀ t p perms t' p' perms' s, mintNatsUserCreds .browser t (some p) = .ok perms →
      mintNatsUserCreds .browser t' (some p') = .ok perms' →
      (perms.mayPublish s = true ∨ perms.maySubscribe s = true) →
      (perms'.mayPublish s = true ∨ perms'.maySubscribe s = true) → t = t' ∧ p = p') ∧
    (∀ peers s, (∀ q ∈ peers, isValidSubjectToken q = true) → c.Delivers peers s →
      ∃ q, PeerSubject c q s ∧ (c.handleNatsMessage s).peerId = some q ∧
        ∀ q', 46 ∉ q' → PeerSubject c q' s → q' = q) ∧
    (∀ peers s replyTo response sent, (∀ q ∈ peers, isValidSubjectToken q = true) → c.Delivers peers s →
      c.handleRegister s replyTo response = some sent →
      ∃ q token, s = c.registerSubject q ∧ isValidSubjectToken token = true ∧
        sent = (c.ownReginboxPrefix q ++ token, response) ∧
        ∀ t p perms, mintNatsUserCreds .browser t (some p) = .ok perms → perms.mayPublish s = true → p = q) := by
  have hT := isPlain_of_valid ht
  have hA := isPlain_of_valid ha
  refine ⟨?_, ?_, ?_, ?_⟩
  · intro peerId s hpeer hs
    have hP := isPlain_of_valid hpeer
    constructor
    · intro t p perms hmint
      obtain ⟨ht', hp', rfl⟩ := mint_browser hmint
      rw [mayPublish_single, maySubscribe_single]
      have hin := PeerSubject.in_peerGrant hs hT hA hP (isPlain_of_valid ht') (isPlain_of_valid hp')
      exact ⟨hin, hin⟩
    · intro t peer perms hmint
      obtain ⟨ht', rfl⟩ := mint_agent hmint
      rw [mayPublish_single, maySubscribe_single]
      have hin := PeerSubject.in_tenantGrant hs hT hA hP (isPlain_of_valid ht')
      exact ⟨hin, hin⟩
  · intro t p perms t' p' perms' s hmint hmint' hs hs'
    obtain ⟨ht, hp, rfl⟩ := mint_browser hmint
    obtain ⟨ht', hp', rfl⟩ := mint_browser hmint'
    rw [mayPublish_single, maySubscribe_single, or_self] at hs hs'
    exact peerGrants_disjoint (isPlain_of_valid ht) (isPlain_of_valid hp) (isPlain_of_valid ht') (isPlain_of_valid hp') hs hs'
  · intro peers s hpeers hdelivers
    obtain ⟨q, hq, hroute⟩ := delivered hT hA (fun q hmem => isPlain_of_valid (hpeers q hmem)) hdelivers
    obtain ⟨hs, hpeer⟩ : PeerSubject c q s ∧ (c.handleNatsMessage s).peerId = some q := by
      obtain ⟨-, rfl, hroute⟩ | ⟨rfl, hroute⟩ := hroute
      · rw [hroute]
        refine ⟨.inbound, ?_⟩
        split <;> rfl
      · rw [hroute]
        exact ⟨.register, rfl⟩
    exact ⟨q, hs, hpeer, fun q' hq' hs' => PeerSubject.unique hs' hs hT.dotless hA.dotless hq' hq⟩
  · intro peers s replyTo response sent hpeers hdelivers hsent
    obtain ⟨q, token, hq, rfl, hvalid, rfl⟩ :=
      handleRegister_own hT hA (fun q hmem => isPlain_of_valid (hpeers q hmem)) hdelivers hsent
    refine ⟨q, token, rfl, hvalid, rfl, ?_⟩
    intro t p perms hmint hmay
    obtain ⟨ht', hp', rfl⟩ := mint_browser hmint
    rw [mayPublish_single] at hmay
    obtain ⟨a, y, rest, htokens⟩ := (peerGrant_matches (isPlain_of_valid ht') (isPlain_of_valid hp')).mp hmay
    have hregister : subjectTokens (c.registerSubject q) = _ := subjectTokens_word hT.dotless hA.dotless hq "register" (by decide)
    rw [hregister] at htokens
    simp only [List.cons.injEq, true_and] at htokens
    exact htokens.2.2.1.symm

/-- The account `a` of the tenant `t`, and its peer `p`. -/
theorem subjects_isolated_account :
    subjectMatches (peerGrant (js "t") (js "p"))
      (NatsChannel.inboundSubject { tenant := js "t", accountId := js "a", encryptionRequired := true, hasRegisterHandler := true }
        (js "p")) = true := by
  have hmint : mintNatsUserCreds .browser (js "t") (some (js "p")) =
      .ok { pub := [peerGrant (js "t") (js "p")], sub := [peerGrant (js "t") (js "p")] } := by decide
  have hisolated := (subjects_isolated
    (c := { tenant := js "t", accountId := js "a", encryptionRequired := true, hasRegisterHandler := true })
    (by decide) (by decide)).1 (js "p") _ (by decide) .inbound
  rw [← mayPublish_single]
  exact ((hisolated.1 _ _ _ hmint).1).mpr ⟨rfl, rfl⟩

end NatsChannel

end Webchannel.Nats
