import Mathlib.Logic.Relation
import Webchannel.Register.Answers
import Webchannel.Register.Nonces

/-!
# Every proof is spent once

The handlers of one account share a store and interleave at their `await`. A section is what one
of them does after it: it runs alone, and the history keeps each section with the store before
and after it. The registrations and teardowns of a run are matched with the nonces they consume.
-/

namespace Webchannel.Register

open Webchannel.Effect

/-! ## The peer effects of a section -/

/-- A registration or a teardown. -/
def Effect.peerEffect : Effect → Option (PopOp × JsString)
  | .registerPeer peerId => some (.register, peerId)
  | .unregisterPeer peerId => some (.unregister, peerId)
  | _ => none

def State.peerEffects (s : State) : List (PopOp × JsString) := s.effects.filterMap Effect.peerEffect

/-- The code adds the peer effects `l` and keeps the store, whether it returns or throws. -/
def Adds {α : Type} (l : List (PopOp × JsString)) (m : Handler α) : Prop :=
  ∀ s, (exec m s).2.store = s.store ∧ (exec m s).2.peerEffects = s.peerEffects ++ l

variable {α β : Type} {l : List (PopOp × JsString)} {m : Handler α} {f : α → Handler β}

theorem Adds.pure (a : α) : Adds [] (Pure.pure a : Handler α) := fun _ => ⟨rfl, (List.append_nil _).symm⟩

theorem Adds.throw (err : Thrown) : Adds [] (throw err : Handler α) := fun _ => ⟨rfl, (List.append_nil _).symm⟩

theorem Adds.perform (e : Effect) : Adds e.peerEffect.toList (perform e) := by
  intro s
  refine ⟨rfl, ?_⟩
  change (s.effects ++ [e]).filterMap Effect.peerEffect = _
  rw [List.filterMap_append]
  cases h : e.peerEffect <;> simp [State.peerEffects, h]

theorem Adds.reply (response : JsonValue) : Adds [] (reply response) := Adds.perform (.reply response)

theorem Adds.bind (hm : Adds l m) (hf : ∀ a, Adds [] (f a)) : Adds l (m >>= f) := by
  intro s
  rw [exec_bind]
  have hs := hm s
  rcases h : exec m s with ⟨e | a, t⟩
  · rw [h] at hs
    exact hs
  · rw [h] at hs
    have ht := hf a t
    exact ⟨ht.1.trans hs.1, by rw [ht.2, hs.2, List.append_nil]⟩

theorem Adds.tryCatch {h : Thrown → Handler α} (hm : Adds l m) (hh : ∀ err, Adds [] (h err)) :
    Adds l (tryCatch m h) := by
  intro s
  rw [exec_tryCatch]
  have hs := hm s
  rcases hx : exec m s with ⟨e | a, t⟩
  · rw [hx] at hs
    have ht := hh e t
    exact ⟨ht.1.trans hs.1, by rw [ht.2, hs.2, List.append_nil]⟩
  · rw [hx] at hs
    exact hs

theorem Adds.inspect (result : Option α) : Adds [] (inspect result) := by
  cases result with
  | none => exact .throw typeError
  | some a => exact .pure a

theorem Adds.call (e : Effect) (outcome : Option Thrown) : Adds e.peerEffect.toList (call e outcome) := by
  refine Adds.bind (.perform e) fun _ => ?_
  cases outcome with
  | none => exact .pure ()
  | some err => exact .throw err

theorem adds_admitPeer (runtime : Runtime) (deps : RegisterHandlerDeps) (peerId : JsString) (key : Bytes)
    (clientNonce : JsString) :
    Adds [(.register, peerId)] (admitPeer runtime deps peerId key clientNonce) := by
  refine Adds.bind (.call (.registerPeer peerId) _) fun _ => Adds.bind (.perform _) fun _ => ?_
  split
  · exact .throw _
  · exact .reply _
  · exact Adds.bind (.call (.sendHistorySnapshot peerId) _) fun _ =>
      Adds.bind (.call (.sendApprovalSnapshot peerId) _) fun _ => .reply _

theorem adds_admissionFailed (deps : RegisterHandlerDeps) (err : Thrown) : Adds [] (admissionFailed deps err) := by
  refine Adds.bind (.inspect _) fun isCapacity => ?_
  split
  · refine Adds.bind (.inspect _) fun status => Adds.bind (.reply _) fun _ => ?_
    unfold reportCapacity
    split
    · exact .pure ()
    · exact Adds.tryCatch (.call (.capacityReject status) _) fun _ => .pure ()
  · exact Adds.bind (.inspect _) fun _ => .reply _

/-! ## What a section does -/

/-- The proof of the request verifies for the operation and the identity. -/
structure Proves (runtime : Runtime) (deps : RegisterHandlerDeps) (request : Request)
    (verified : Except Thrown (Option JwtIdentity)) (now : Int) (store : PopChallengeStore) (op : PopOp)
    (peerId : JsString) : Prop where
  identity : ∃ identity jwk, verified = .ok (some identity) ∧ identity.peerId = peerId ∧
    deps.subjectPeerId = peerId ∧ identity.tenant = some deps.tenant ∧ isValidSubjectToken peerId = true ∧
    identity.popPublicJwk = some jwk ∧
    (store.verify runtime.toSignatureRuntime op peerId (request.parsed.readString "nonce")
      (request.parsed.readString "signature") jwk now).1.ok = true

/-- The store and the peer effects that a section leaves. -/
inductive Leaves (runtime : Runtime) (deps : RegisterHandlerDeps) (request : Request)
    (verified : Except Thrown (Option JwtIdentity)) (moment : Moment) (store : PopChallengeStore) :
    PopChallengeStore → List (PopOp × JsString) → Prop where
  /-- nothing -/
  | nothing : Leaves runtime deps request verified moment store store []
  /-- a challenge of the identity -/
  | issued (identity : JwtIdentity) (hop : request.op = .challenge) (hverified : verified = .ok (some identity)) :
    Leaves runtime deps request verified moment store
      (store.issue identity.peerId moment.random moment.first moment.second) []
  /-- a nonce that was consumed in vain -/
  | burnt (hop : request.op ≠ .challenge) (peerId nonce : JsString) :
    Leaves runtime deps request verified moment store (store.deleteNonce peerId nonce) []
  /-- a nonce that was consumed for its operation -/
  | spent (hop : request.op ≠ .challenge) (op : PopOp) (peerId : JsString)
      (h : Proves runtime deps request verified moment.first store op peerId) :
    Leaves runtime deps request verified moment store
      (store.deleteNonce peerId (request.parsed.readString "nonce")) [(op, peerId)]

theorem admits_eq_true {deps : RegisterHandlerDeps} {identity : JwtIdentity} (h : admits deps identity = true) :
    identity.tenant = some deps.tenant ∧ deps.subjectPeerId = identity.peerId ∧
      isValidSubjectToken identity.peerId = true := by
  unfold admits at h
  simp only [decide_eq_true_eq] at h
  obtain ⟨htenant, hsubject, htoken⟩ := h
  refine ⟨?_, hsubject, htoken⟩
  unfold identityMatchesTenantScope at htenant
  split at htenant
  · rename_i t ht
    simp only [decide_eq_true_eq] at htenant
    rw [ht, htenant.2]
  · cases htenant

/-- With the proof required, an operation that passes has consumed the nonce of its request. -/
theorem possession_cases {runtime : Runtime} {deps : RegisterHandlerDeps} {op : PopOp} {identity : JwtIdentity}
    {parsed : JsonValue} {now : Int} {store : PopChallengeStore} (hpop : deps.requirePoP = true) :
    (possession runtime deps op identity parsed now store).1 = false ∧
        ((possession runtime deps op identity parsed now store).2 = store ∨
          ∃ nonce, (possession runtime deps op identity parsed now store).2 = store.deleteNonce identity.peerId nonce) ∨
      (possession runtime deps op identity parsed now store).1 = true ∧
        (possession runtime deps op identity parsed now store).2 =
          store.deleteNonce identity.peerId (parsed.readString "nonce") ∧
        ∃ jwk, identity.popPublicJwk = some jwk ∧
          (store.verify runtime.toSignatureRuntime op identity.peerId (parsed.readString "nonce")
            (parsed.readString "signature") jwk now).1.ok = true := by
  unfold possession
  cases hjwk : identity.popPublicJwk with
  | none =>
    rw [if_pos (by simp [popRequirementUnmet, hpop])]
    exact .inl ⟨rfl, .inl rfl⟩
  | some jwk =>
    rw [if_neg (by simp [popRequirementUnmet])]
    dsimp only
    split
    · exact .inl ⟨rfl, .inl rfl⟩
    · dsimp only
      cases hok : (store.verify runtime.toSignatureRuntime op identity.peerId (parsed.readString "nonce")
          (parsed.readString "signature") jwk now).1.ok with
      | false =>
        obtain hstore | hstore := PopChallengeStore.verify_store runtime.toSignatureRuntime store op
          identity.peerId (parsed.readString "nonce") (parsed.readString "signature") jwk now
        · exact .inl ⟨rfl, .inl hstore⟩
        · exact .inl ⟨rfl, .inr ⟨_, hstore⟩⟩
      | true => exact .inr ⟨rfl, (PopChallengeStore.verify_ok hok).2.1, jwk, rfl, hok⟩

/-- Code that adds no peer effect, in a fresh section. -/
theorem Adds.leaves_nothing {runtime : Runtime} {deps : RegisterHandlerDeps} {request : Request}
    {verified : Except Thrown (Option JwtIdentity)} {moment : Moment} {store : PopChallengeStore}
    {m : Handler Unit} (h : Adds [] m) :
    Leaves runtime deps request verified moment store (exec m ⟨store, []⟩).2.store
      (exec m ⟨store, []⟩).2.peerEffects := by
  obtain ⟨hstore, heffects⟩ := h ⟨store, []⟩
  rw [hstore, heffects]
  exact .nothing

/-- An operation behind the gate and the proof: it runs where the proof verifies, and the rest adds
nothing. -/
theorem provePossession_leaves {runtime : Runtime} {deps : RegisterHandlerDeps} {request : Request}
    {identity : JwtIdentity} {moment : Moment} {store : PopChallengeStore} {op : PopOp}
    (hpop : deps.requirePoP = true) (hadmits : admits deps identity = true) (hop : request.op ≠ .challenge)
    {f : Bool → Handler Unit} (hno : Adds [] (f false))
    (hyes : Adds [] (f true) ∨ Adds [(op, identity.peerId)] (f true)) :
    let t := (exec (provePossession runtime deps op identity request.parsed moment.first >>= f) ⟨store, []⟩).2
    Leaves runtime deps request (.ok (some identity)) moment store t.store t.peerEffects := by
  dsimp only
  rw [exec_bind_ok (exec_provePossession _ _ _ _ _ _ _)]
  dsimp only
  obtain ⟨hfalse, hstore⟩ | ⟨htrue, hstore, jwk, hjwk, hok⟩ :=
    @possession_cases runtime deps op identity request.parsed moment.first store hpop
  · rw [hfalse]
    obtain ⟨hs, he⟩ := hno ⟨(possession runtime deps op identity request.parsed moment.first store).2, []⟩
    rw [hs, he]
    obtain hstore | ⟨nonce, hstore⟩ := hstore
    · rw [hstore]
      exact .nothing
    · rw [hstore]
      exact .burnt hop identity.peerId nonce
  · rw [htrue]
    obtain hnothing | hadds := hyes
    · obtain ⟨hs, he⟩ := hnothing ⟨(possession runtime deps op identity request.parsed moment.first store).2, []⟩
      rw [hs, he, hstore]
      exact .burnt hop identity.peerId _
    · obtain ⟨hs, he⟩ := hadds ⟨(possession runtime deps op identity request.parsed moment.first store).2, []⟩
      rw [hs, he, hstore]
      obtain ⟨htenant, hsubject, htoken⟩ := admits_eq_true hadmits
      exact .spent hop op identity.peerId ⟨identity, jwk, rfl, rfl, hsubject, htenant, htoken, hjwk, hok⟩

theorem resumeRequest_leaves {runtime : Runtime} {deps : RegisterHandlerDeps} {request : Request}
    {verified : Except Thrown (Option JwtIdentity)} {moment : Moment} {store : PopChallengeStore}
    (hpop : deps.requirePoP = true) :
    let t := (exec (resumeRequest runtime deps request verified moment) ⟨store, []⟩).2
    Leaves runtime deps request verified moment store t.store t.peerEffects := by
  dsimp only
  unfold resumeRequest
  by_cases hunregister : request.op = .unregister
  · rw [if_pos hunregister]
    have hop : request.op ≠ .challenge := by
      rw [hunregister]
      decide
    cases verified with
    | error err => exact Adds.leaves_nothing (.pure ())
    | ok identity =>
      cases identity with
      | none => exact Adds.leaves_nothing (.pure ())
      | some identity =>
        unfold resumeUnregister
        dsimp only
        by_cases hadmits : admits deps identity = true
        · rw [if_pos hadmits]
          exact provePossession_leaves hpop hadmits hop (.pure ()) (.inr (.perform (.unregisterPeer identity.peerId)))
        · rw [if_neg hadmits]
          exact Adds.leaves_nothing (.pure ())
  · rw [if_neg hunregister]
    cases verified with
    | error err =>
      refine Adds.leaves_nothing (Adds.bind (.inspect _) fun transient => ?_)
      split
      · exact .reply _
      · exact .reply _
    | ok identity =>
      cases identity with
      | none => exact Adds.leaves_nothing (.reply _)
      | some identity =>
        dsimp only
        by_cases hadmits : admits deps identity = false
        · rw [if_pos hadmits]
          exact Adds.leaves_nothing (.reply _)
        rw [if_neg hadmits]
        by_cases hchallenge : request.op = .challenge
        · rw [if_pos hchallenge]
          exact .issued identity hchallenge rfl
        · rw [if_neg hchallenge]
          unfold resumeRegister
          split
          · exact Adds.leaves_nothing (.reply _)
          · split
            · exact Adds.leaves_nothing (.reply _)
            · rename_i clientNonce _
              refine provePossession_leaves hpop (by simpa using hadmits) hchallenge (.reply _) ?_
              rw [if_pos rfl]
              split
              · exact .inl (.reply _)
              · dsimp only
                split
                · exact .inl (.reply _)
                · exact .inr (.tryCatch (adds_admitPeer runtime deps _ _ clientNonce) (adds_admissionFailed deps))

/-! ## The handlers of an account -/

/-- What a handler did after its `await`, between two states of the store. -/
structure Section where
  deps : RegisterHandlerDeps
  request : Request
  verified : Except Thrown (Option JwtIdentity)
  moment : Moment
  before : PopChallengeStore
  after : PopChallengeStore
  peerEffects : List (PopOp × JsString)

structure System where
  store : PopChallengeStore
  clock : Int
  waiting : List (RegisterHandlerDeps × Request)
  history : List Section

def System.initial (ttlMs : Int) (maxNoncesPerPeer : Nat) (clock : Int) : System :=
  ⟨⟨ttlMs, maxNoncesPerPeer, .empty⟩, clock, [], []⟩

/-- The handler of a request up to its `await`. -/
def System.deliver (runtime : Runtime) (s : System) (deps : RegisterHandlerDeps) : System :=
  match exec (startRequest runtime deps.payload) ⟨s.store, []⟩ with
  | (.ok (some request), t) => { s with store := t.store, waiting := s.waiting ++ [(deps, request)] }
  | (_, t) => { s with store := t.store }

/-- The rest of the handler that waits at place `i`. -/
def System.settle (runtime : Runtime) (s : System) (i : Nat) (verified : Except Thrown (Option JwtIdentity))
    (moment : Moment) : System :=
  match s.waiting[i]? with
  | none => s
  | some (deps, request) =>
    let t := (exec (resumeRequest runtime deps request verified moment) ⟨s.store, []⟩).2
    { store := t.store
      clock := moment.second
      waiting := s.waiting.eraseIdx i
      history := s.history ++ [⟨deps, request, verified, moment, s.store, t.store, t.peerEffects⟩] }

/-- Any request may arrive and any handler that waits may go on, at a time that is not earlier than the
last one and with a nonce that was never drawn. -/
inductive Step (runtime : Runtime) (tenant : JsString) : System → System → Prop where
  | deliver (s : System) (deps : RegisterHandlerDeps) (hpop : deps.requirePoP = true) (htenant : deps.tenant = tenant) :
    Step runtime tenant s (s.deliver runtime deps)
  | settle (s : System) (i : Nat) (verified : Except Thrown (Option JwtIdentity)) (moment : Moment)
      (hclock : s.clock ≤ moment.first) (htime : moment.first ≤ moment.second)
      (hfresh : ∀ done ∈ s.history, done.moment.random ≠ moment.random) :
    Step runtime tenant s (s.settle runtime i verified moment)

def Reachable (runtime : Runtime) (tenant : JsString) : System → System → Prop :=
  Relation.ReflTransGen (Step runtime tenant)

/-- A registration or a teardown of a run. -/
structure PeerEffect where
  section_ : Section
  op : PopOp
  peerId : JsString

/-- The nonce that the request names. -/
def PeerEffect.nonce (e : PeerEffect) : JsString := e.section_.request.parsed.readString "nonce"

def PeerEffect.payload (e : PeerEffect) : JsString := e.section_.deps.payload

def Section.effects (done : Section) : List PeerEffect := done.peerEffects.map fun x => ⟨done, x.1, x.2⟩

def System.effects (s : System) : List PeerEffect := s.history.flatMap Section.effects

/-- The section is a challenge that gave the nonce to the peer. -/
structure Section.Issues (done : Section) (p n : JsString) (expiresAt : Int) : Prop where
  op : done.request.op = .challenge
  identity : ∃ identity, done.verified = .ok (some identity) ∧ identity.peerId = p
  nonce : done.moment.random = n
  expiry : expiresAt = done.moment.second + done.before.ttlMs

/-- The section consumes a nonce that an earlier challenge gave to the peer and that has not expired. -/
def Consumes (history : List Section) (done : Section) (p n : JsString) : Prop :=
  ∃ earlier later expiresAt, history = earlier ++ done :: later ∧
    (∃ challenge ∈ earlier, challenge.Issues p n expiresAt) ∧
    done.before.find p n = some expiresAt ∧ ¬ expiresAt < done.moment.first ∧ done.after.find p n = none

/-- The request carries a signature, valid under the key of its verified token, of the message for this
operation, peer and nonce; the token is the subject's and of the tenant. -/
def Signs (runtime : Runtime) (tenant : JsString) (done : Section) (op : PopOp) (p n : JsString) : Prop :=
  ∃ identity jwk pub, done.verified = .ok (some identity) ∧ identity.peerId = p ∧ done.deps.subjectPeerId = p ∧
    identity.tenant = some tenant ∧ identity.popPublicJwk = some jwk ∧
    runtime.createPublicKey jwk = some pub ∧
    runtime.edVerify (encodeUtf8 (popSignedMessage op p n)) pub
      (runtime.fromBase64Url (done.request.parsed.readString "signature")) = true

/-- A challenge of another peer leaves the nonces that have not expired. -/
def Section.KeepsOthers (done : Section) : Prop :=
  done.request.op = .challenge → ∀ identity, done.verified = .ok (some identity) →
    ∀ p ≠ identity.peerId, ∀ n expiresAt, done.before.find p n = some expiresAt →
      ¬ expiresAt < done.moment.first → done.after.find p n = some expiresAt

/-- The invariant of the runs. -/
structure Inv (runtime : Runtime) (tenant : JsString) (cap : Nat) (s : System) : Prop where
  config : s.store.maxNoncesPerPeer = cap
  waiting : ∀ w ∈ s.waiting, w.1.requirePoP = true ∧ w.1.tenant = tenant ∧
    runtime.parse w.1.payload = some w.2.parsed
  payload : ∀ done ∈ s.history, runtime.parse done.deps.payload = some done.request.parsed
  fresh : (s.history.map fun done => done.moment.random).Nodup
  issued : ∀ p n e, s.store.find p n = some e → ∃ done ∈ s.history, done.Issues p n e
  gone : ∀ e ∈ s.effects, ∀ p, s.store.find p e.nonce = none
  nodup : (s.effects.map PeerEffect.nonce).Nodup
  consumed : ∀ e ∈ s.effects, Consumes s.history e.section_ e.peerId e.nonce
  signed : ∀ e ∈ s.effects, Signs runtime tenant e.section_ e.op e.peerId e.nonce
  others : ∀ done ∈ s.history, done.KeepsOthers
  bounded : ∀ p, (s.store.bucket p).size ≤ max cap 1

theorem inv_initial (runtime : Runtime) (tenant : JsString) (ttlMs : Int) (cap : Nat) (clock : Int) :
    Inv runtime tenant cap (System.initial ttlMs cap clock) := by
  refine ⟨rfl, ?_, ?_, List.nodup_nil, ?_, ?_, List.nodup_nil, ?_, ?_, ?_, fun _ => Nat.zero_le _⟩
  · intro w hw
    cases hw
  · intro done hdone
    cases hdone
  · intro p n e h
    have hnone : (System.initial ttlMs cap clock).store.find p n = none := rfl
    rw [hnone] at h
    cases h
  · intro e he
    cases he
  · intro e he
    cases he
  · intro e he
    cases he
  · intro done hdone
    cases hdone

theorem adds_startRequest (runtime : Runtime) (payload : JsString) : Adds [] (startRequest runtime payload) := by
  have hanswer : Adds [] (answer REGISTER_UNAUTHORIZED : Handler (Option Request)) :=
    Adds.bind (.reply _) fun _ => .pure none
  unfold startRequest
  split
  · exact hanswer
  · rename_i parsed _
    have hread : Adds [] (readOp parsed) := by
      unfold readOp
      split
      · exact .throw typeError
      · exact .pure _
    refine Adds.bind hread fun op => ?_
    dsimp only
    split
    · exact .pure _
    · split
      · split
        · exact hanswer
        · exact .pure _
      · split
        · split
          · exact hanswer
          · exact .pure _
        · exact hanswer

theorem startRequest_parsed {runtime : Runtime} {payload : JsString} {s t : State} {request : Request}
    (h : exec (startRequest runtime payload) s = (.ok (some request), t)) :
    runtime.parse payload = some request.parsed := by
  cases hparse : runtime.parse payload with
  | none =>
    unfold startRequest at h
    rw [hparse] at h
    cases h
  | some parsed =>
    cases hrequest : requestOf parsed with
    | some request' =>
      rw [startRequest_of_requestOf hparse hrequest s] at h
      obtain rfl := Option.some.inj (Except.ok.inj (Prod.mk.inj h).1)
      unfold requestOf at hrequest
      split at hrequest
      · cases hrequest
      · dsimp only at hrequest
        split at hrequest
        · cases hrequest
        · obtain rfl := Option.some.inj hrequest
          rfl
    | none =>
      by_cases hnull : runtime.parse payload = some .null
      · unfold startRequest at h
        rw [hnull] at h
        cases h
      · have hnone : ∀ p, runtime.parse payload = some p → requestOf p = none := by
          intro p hp
          obtain rfl : parsed = p := Option.some.inj (hparse.symm.trans hp)
          exact hrequest
        obtain ⟨u, hu, -⟩ := startRequest_answers hnull hnone s
        rw [h] at hu
        cases hu

/-- A delivery at most makes one more handler wait. -/
theorem deliver_eq (runtime : Runtime) (s : System) (deps : RegisterHandlerDeps) :
    ∃ l : List (RegisterHandlerDeps × Request), s.deliver runtime deps = { s with waiting := s.waiting ++ l } ∧
      ∀ w ∈ l, w.1 = deps ∧ runtime.parse deps.payload = some w.2.parsed := by
  have hstore := (adds_startRequest runtime deps.payload ⟨s.store, []⟩).1
  unfold System.deliver
  split
  · rename_i request t hexec
    rw [hexec] at hstore
    have hs : t.store = s.store := hstore
    refine ⟨[(deps, request)], by rw [hs], fun w hw => ?_⟩
    obtain rfl := List.mem_singleton.mp hw
    exact ⟨rfl, startRequest_parsed hexec⟩
  · rename_i r t _ hexec
    rw [hexec] at hstore
    have hs : t.store = s.store := hstore
    exact ⟨[], by rw [hs, List.append_nil], nofun⟩

theorem inv_deliver {runtime : Runtime} {tenant : JsString} {cap : Nat} {s : System} {deps : RegisterHandlerDeps}
    (h : Inv runtime tenant cap s) (hpop : deps.requirePoP = true) (htenant : deps.tenant = tenant) :
    Inv runtime tenant cap (s.deliver runtime deps) := by
  obtain ⟨l, hl, hnew⟩ := deliver_eq runtime s deps
  rw [hl]
  refine { h with waiting := fun w hw => ?_ }
  obtain hw | hw := List.mem_append.mp hw
  · exact h.waiting w hw
  · obtain ⟨rfl, hparse⟩ := hnew w hw
    exact ⟨hpop, htenant, hparse⟩

/-- A consumption stays one when the history grows. -/
theorem Consumes.append {history : List Section} {done next : Section} {p n : JsString}
    (h : Consumes history done p n) : Consumes (history ++ [next]) done p n := by
  obtain ⟨earlier, later, expiresAt, hhistory, hrest⟩ := h
  exact ⟨earlier, later ++ [next], expiresAt, by rw [hhistory]; simp, hrest⟩

/-- A nonce that the store holds was given to one peer only. -/
theorem Inv.peer_unique {runtime : Runtime} {tenant : JsString} {cap : Nat} {s : System} {p q n : JsString}
    {e e' : Int} (h : Inv runtime tenant cap s) (hp : s.store.find p n = some e) (hq : s.store.find q n = some e') :
    p = q := by
  obtain ⟨done, hdone, hissues⟩ := h.issued p n e hp
  obtain ⟨done', hdone', hissues'⟩ := h.issued q n e' hq
  obtain rfl : done = done' :=
    List.inj_on_of_nodup_map h.fresh hdone hdone' (hissues.nonce.trans hissues'.nonce.symm)
  obtain ⟨identity, hverified, hp⟩ := hissues.identity
  obtain ⟨identity', hverified', hq⟩ := hissues'.identity
  rw [hverified] at hverified'
  cases hverified'
  exact hp.symm.trans hq

/-- The nonce of an effect was given out in the history. -/
theorem Inv.nonce_mem {runtime : Runtime} {tenant : JsString} {cap : Nat} {s : System} {e : PeerEffect}
    (h : Inv runtime tenant cap s) (he : e ∈ s.effects) : ∃ done ∈ s.history, done.moment.random = e.nonce := by
  obtain ⟨earlier, later, expiresAt, hhistory, ⟨challenge, hchallenge, hissues⟩, -⟩ := h.consumed e he
  exact ⟨challenge, by rw [hhistory]; exact List.mem_append_left _ hchallenge, hissues.nonce⟩

/-- What a section adds to the run. -/
structure Extends (s t : System) (next : Section) : Prop where
  store : t.store = next.after
  before : next.before = s.store
  waiting : ∀ w ∈ t.waiting, w ∈ s.waiting
  history : t.history = s.history ++ [next]
  fresh : ∀ done ∈ s.history, done.moment.random ≠ next.moment.random

theorem Extends.effects {s t : System} {next : Section} (h : Extends s t next) :
    t.effects = s.effects ++ next.effects := by
  unfold System.effects
  rw [h.history, List.flatMap_append, List.flatMap_cons, List.flatMap_nil, List.append_nil]

/-- A section whose one effect is paid with a nonce of the store. -/
structure Pays (runtime : Runtime) (tenant : JsString) (s : System) (next : Section) (e : PeerEffect) : Prop where
  effects : next.effects = [e]
  same : e.section_ = next
  after : next.after = s.store.deleteNonce e.peerId e.nonce
  live : ∃ expiresAt, s.store.find e.peerId e.nonce = some expiresAt ∧ ¬ expiresAt < next.moment.first
  signed : Signs runtime tenant next e.op e.peerId e.nonce

theorem Pays.consumes {runtime : Runtime} {tenant : JsString} {cap : Nat} {s t : System} {next : Section}
    {e : PeerEffect} (h : Inv runtime tenant cap s) (hext : Extends s t next) (hpays : Pays runtime tenant s next e) :
    Consumes t.history next e.peerId e.nonce := by
  obtain ⟨expiresAt, hfind, hlive⟩ := hpays.live
  refine ⟨s.history, [], expiresAt, hext.history, h.issued _ _ _ hfind, by rw [hext.before]; exact hfind, hlive, ?_⟩
  rw [hpays.after, PopChallengeStore.find_deleteNonce, if_pos ⟨rfl, rfl⟩]

/-- The nonce that pays is nowhere in the store afterwards. -/
theorem Pays.gone {runtime : Runtime} {tenant : JsString} {cap : Nat} {s : System} {next : Section}
    {e : PeerEffect} (h : Inv runtime tenant cap s) (hpays : Pays runtime tenant s next e) (p : JsString) :
    next.after.find p e.nonce = none := by
  obtain ⟨expiresAt, hfind, -⟩ := hpays.live
  rw [hpays.after, PopChallengeStore.find_deleteNonce]
  split
  · rfl
  · rename_i hp
    by_contra hsome
    obtain ⟨e', hfind'⟩ := Option.ne_none_iff_exists'.mp hsome
    exact hp ⟨h.peer_unique hfind' hfind, rfl⟩

theorem Pays.not_mem {runtime : Runtime} {tenant : JsString} {cap : Nat} {s : System} {next : Section}
    {e : PeerEffect} (h : Inv runtime tenant cap s) (hpays : Pays runtime tenant s next e) :
    e.nonce ∉ s.effects.map PeerEffect.nonce := by
  intro hmem
  obtain ⟨e', he', hnonce⟩ := List.mem_map.mp hmem
  obtain ⟨expiresAt, hfind, -⟩ := hpays.live
  rw [← hnonce, h.gone e' he'] at hfind
  cases hfind

/-- The invariant after a section that has no effect or pays for its one. -/
theorem Inv.extend {runtime : Runtime} {tenant : JsString} {cap : Nat} {s t : System} {next : Section}
    (h : Inv runtime tenant cap s) (hext : Extends s t next)
    (hpays : next.effects = [] ∨ ∃ e, Pays runtime tenant s next e)
    (hparse : runtime.parse next.deps.payload = some next.request.parsed)
    (hconfig : next.after.maxNoncesPerPeer = cap)
    (hissued : ∀ p n e, next.after.find p n = some e → s.store.find p n = some e ∨ next.Issues p n e)
    (hothers : next.KeepsOthers) (hbounded : ∀ p, (next.after.bucket p).size ≤ max cap 1) :
    Inv runtime tenant cap t := by
  have hmem {done : Section} (hd : done ∈ t.history) : done ∈ s.history ∨ done = next := by
    rw [hext.history, List.mem_append, List.mem_singleton] at hd
    exact hd
  have heffect {e : PeerEffect} (he : e ∈ t.effects) : e ∈ s.effects ∨ Pays runtime tenant s next e := by
    rw [hext.effects, List.mem_append] at he
    refine he.imp_right fun he => ?_
    obtain hnone | ⟨e', he'⟩ := hpays
    · rw [hnone] at he
      cases he
    · rw [he'.effects, List.mem_singleton] at he
      rw [he]
      exact he'
  refine ⟨by rw [hext.store, hconfig], fun w hw => h.waiting w (hext.waiting w hw), ?_, ?_, ?_, ?_, ?_, ?_, ?_, ?_, ?_⟩
  · intro done hd
    obtain hd | rfl := hmem hd
    · exact h.payload done hd
    · exact hparse
  · rw [hext.history, List.map_append, List.map_singleton]
    refine h.fresh.append (List.nodup_singleton _) fun n hn hn' => ?_
    obtain ⟨done, hdone, rfl⟩ := List.mem_map.mp hn
    exact hext.fresh done hdone (List.mem_singleton.mp hn')
  · intro p n e hfind
    rw [hext.store] at hfind
    rw [hext.history]
    obtain hfind | hissues := hissued p n e hfind
    · obtain ⟨done, hdone, hissues⟩ := h.issued p n e hfind
      exact ⟨done, List.mem_append_left _ hdone, hissues⟩
    · exact ⟨next, List.mem_append_right _ (List.mem_singleton.mpr rfl), hissues⟩
  · intro e he p
    rw [hext.store]
    obtain he | he := heffect he
    · by_contra hsome
      obtain ⟨expiresAt, hfind⟩ := Option.ne_none_iff_exists'.mp hsome
      obtain hfind | hissues := hissued p e.nonce expiresAt hfind
      · rw [h.gone e he p] at hfind
        cases hfind
      · obtain ⟨done, hdone, hrandom⟩ := h.nonce_mem he
        exact hext.fresh done hdone (hrandom.trans hissues.nonce.symm)
    · exact he.gone h p
  · rw [hext.effects, List.map_append]
    obtain hnone | ⟨e, he⟩ := hpays
    · rw [hnone, List.map_nil, List.append_nil]
      exact h.nodup
    · rw [he.effects, List.map_singleton]
      refine h.nodup.append (List.nodup_singleton _) fun n hn hn' => ?_
      rw [List.mem_singleton.mp hn'] at hn
      exact he.not_mem h hn
  · intro e he
    obtain he | he := heffect he
    · rw [hext.history]
      exact (h.consumed e he).append
    · rw [he.same]
      exact he.consumes h hext
  · intro e he
    obtain he | he := heffect he
    · exact h.signed e he
    · rw [he.same]
      exact he.signed
  · intro done hd
    obtain hd | rfl := hmem hd
    · exact h.others done hd
    · exact hothers
  · intro p
    rw [hext.store]
    exact hbounded p

theorem inv_settle {runtime : Runtime} {tenant : JsString} {cap : Nat} {s : System} {i : Nat}
    {verified : Except Thrown (Option JwtIdentity)} {moment : Moment} (h : Inv runtime tenant cap s)
    (hfresh : ∀ done ∈ s.history, done.moment.random ≠ moment.random) :
    Inv runtime tenant cap (s.settle runtime i verified moment) := by
  unfold System.settle
  split
  · exact h
  · rename_i deps request hwaiting
    obtain ⟨hpop, htenant, hparse⟩ := h.waiting _ (List.mem_of_getElem? hwaiting)
    have hleaves := @resumeRequest_leaves runtime deps request verified moment s.store hpop
    dsimp only at hleaves ⊢
    generalize (exec (resumeRequest runtime deps request verified moment) ⟨s.store, []⟩).2 = u at hleaves ⊢
    obtain ⟨after, effects⟩ := u
    dsimp only at hleaves ⊢
    generalize State.peerEffects ⟨after, effects⟩ = peerEffects at hleaves ⊢
    have hext : Extends s ⟨after, moment.second, s.waiting.eraseIdx i,
        s.history ++ [⟨deps, request, verified, moment, s.store, after, peerEffects⟩]⟩
        ⟨deps, request, verified, moment, s.store, after, peerEffects⟩ :=
      ⟨rfl, rfl, fun w hw => List.mem_of_mem_eraseIdx hw, rfl, hfresh⟩
    cases hleaves with
    | nothing =>
      exact h.extend hext (.inl rfl) hparse h.config (fun _ _ _ hfind => .inl hfind)
        (fun _ _ _ _ _ _ _ hfind _ => hfind) h.bounded
    | issued identity hop hverified =>
      refine h.extend hext (.inl rfl) hparse h.config ?_ ?_ ?_
      · intro p n e hfind
        obtain ⟨rfl, rfl, rfl⟩ | hfind := PopChallengeStore.find_of_find_issue hfind
        · exact .inr ⟨hop, ⟨identity, hverified, rfl⟩, rfl, rfl⟩
        · exact .inl hfind
      · intro _ identity' hverified' p hp n e hfind hlive
        dsimp only at hverified' hfind hlive ⊢
        rw [hverified] at hverified'
        cases hverified'
        exact PopChallengeStore.find_issue_of_ne hp hfind hlive
      · exact PopChallengeStore.size_bucket_issue_le (by rw [h.config]) h.bounded
    | burnt hop peerId nonce =>
      refine h.extend hext (.inl rfl) hparse h.config ?_ (fun hchallenge => absurd hchallenge hop) ?_
      · intro p n e hfind
        dsimp only at hfind
        rw [PopChallengeStore.find_deleteNonce] at hfind
        split at hfind
        · cases hfind
        · exact .inl hfind
      · intro p
        exact Nat.le_trans (PopChallengeStore.size_bucket_deleteNonce_le _ _ _ _) (h.bounded p)
    | spent hop op peerId hproves =>
      obtain ⟨identity, jwk, hverified, hpeer, hsubject, htenant', -, hjwk, hok⟩ := hproves.identity
      obtain ⟨hlive, -, hsignature⟩ := PopChallengeStore.verify_ok hok
      obtain ⟨-, -, pub, hpub, hverify⟩ := PopChallengeStore.verifySignature_ok hsignature
      refine h.extend hext (.inr ⟨⟨_, op, peerId⟩, rfl, rfl, rfl, hlive, ?_⟩) hparse h.config ?_
        (fun hchallenge => absurd hchallenge hop) ?_
      · exact ⟨identity, jwk, pub, hverified, hpeer, hsubject, by rw [htenant', htenant], hjwk, hpub, hverify⟩
      · intro p n e hfind
        dsimp only at hfind
        rw [PopChallengeStore.find_deleteNonce] at hfind
        split at hfind
        · cases hfind
        · exact .inl hfind
      · intro p
        exact Nat.le_trans (PopChallengeStore.size_bucket_deleteNonce_le _ _ _ _) (h.bounded p)

theorem Reachable.inv {runtime : Runtime} {tenant : JsString} {ttlMs : Int} {cap : Nat} {clock : Int} {s : System}
    (h : Reachable runtime tenant (System.initial ttlMs cap clock) s) : Inv runtime tenant cap s := by
  induction h with
  | refl => exact inv_initial runtime tenant ttlMs cap clock
  | tail _ hstep ih =>
    cases hstep with
    | deliver deps hpop htenant => exact inv_deliver ih hpop htenant
    | settle i verified moment hclock htime hfresh => exact inv_settle ih hfresh

/-! ## The signed message -/

/-- The beginnings of the two messages differ. -/
theorem popSignedMessage_op {op op' : PopOp} (h : op ≠ op') (p n p' n' : JsString) :
    encodeUtf8 (popSignedMessage op p n) ≠ encodeUtf8 (popSignedMessage op' p' n') := by
  -- The byte behind "webchannel-pop:" is the first letter of the operation.
  have hmessage (op : PopOp) (p n : JsString) : ∃ rest, encodeUtf8 (popSignedMessage op p n) =
      (js "webchannel-pop:").map UInt16.toUInt8 ++ (if op = .register then 114 else 117) :: rest := by
    unfold popSignedMessage
    rw [List.append_assoc, List.append_assoc, List.append_assoc, List.append_assoc, encodeUtf8_append (ascii_of_all (by decide))]
    cases op with
    | register =>
      have htext : PopOp.register.text = 114 :: js "egister" := rfl
      rw [htext, List.cons_append, encodeUtf8_cons (by decide)]
      exact ⟨_, rfl⟩
    | unregister =>
      have htext : PopOp.unregister.text = 117 :: js "nregister" := rfl
      rw [htext, List.cons_append, encodeUtf8_cons (by decide)]
      exact ⟨_, rfl⟩
  obtain ⟨rest, hrest⟩ := hmessage op p n
  obtain ⟨rest', hrest'⟩ := hmessage op' p' n'
  intro heq
  rw [hrest, hrest'] at heq
  have hletter := (List.cons.inj (List.append_cancel_left heq)).1
  cases op <;> cases op' <;> first | exact h rfl | cases hletter

/-! ## Every run -/

/-- In every run with the proof required, each registration and each teardown is paid with its own nonce,
which a challenge gave to that peer, which had not expired and which the run itself consumed, under a
signature for just that operation; no payload has an effect twice; a challenge of another peer removes
no nonce that has not expired; and the nonces of a peer stay within the cap, or one where it is zero. -/
theorem proofs_spent_once {runtime : Runtime} {tenant : JsString} {ttlMs : Int} {cap : Nat} {clock : Int}
    {s : System} (h : Reachable runtime tenant (System.initial ttlMs cap clock) s) :
    (∀ e ∈ s.effects, Consumes s.history e.section_ e.peerId e.nonce ∧
      Signs runtime tenant e.section_ e.op e.peerId e.nonce) ∧
    (s.effects.map PeerEffect.nonce).Nodup ∧
    (s.effects.map PeerEffect.payload).Nodup ∧
    (∀ e ∈ s.effects, ∀ op p n, op ≠ e.op →
      encodeUtf8 (popSignedMessage op p n) ≠ encodeUtf8 (popSignedMessage e.op e.peerId e.nonce)) ∧
    (∀ done ∈ s.history, done.KeepsOthers) ∧
    ∀ p, (s.store.bucket p).size ≤ max cap 1 := by
  have hinv := h.inv
  refine ⟨fun e he => ⟨hinv.consumed e he, hinv.signed e he⟩, hinv.nodup, ?_, fun e _ op p n hop =>
    popSignedMessage_op hop p n e.peerId e.nonce, hinv.others, hinv.bounded⟩
  have hpayload : ∀ e ∈ s.effects, ∀ e' ∈ s.effects, e.payload = e'.payload → e.nonce = e'.nonce := by
    intro e he e' he' hsame
    have hparse := hinv.payload e.section_ ?_
    · have hparse' := hinv.payload e'.section_ ?_
      · have : e.section_.request.parsed = e'.section_.request.parsed := by
          unfold PeerEffect.payload at hsame
          rw [hsame] at hparse
          exact Option.some.inj (hparse.symm.trans hparse')
        unfold PeerEffect.nonce
        rw [this]
      · obtain ⟨earlier, later, _, hhistory, -⟩ := hinv.consumed e' he'
        rw [hhistory]
        exact List.mem_append_right _ (List.mem_cons_self ..)
    · obtain ⟨earlier, later, _, hhistory, -⟩ := hinv.consumed e he
      rw [hhistory]
      exact List.mem_append_right _ (List.mem_cons_self ..)
  have hpairwise := List.pairwise_map.mp hinv.nodup
  exact List.pairwise_map.mpr (hpairwise.imp_of_mem fun he he' hne hsame => hne (hpayload _ he _ he' hsame))

/-! ### Runs of one account -/

def sampleChallenge : JsString := js "\x7b\"op\":\"challenge\",\"token\":\"t\"\x7d"

def sampleRegister : JsString :=
  js "\x7b\"op\":\"register\",\"token\":\"t\",\"nonce\":\"n1\",\"signature\":\"AA\",\"protocolVersion\":3,\"clientNonce\":\"AAAAAAAAAAAAAAAAAAAAAA\"\x7d"

/-- A runtime that knows two payloads, the letter A and one signature. -/
def sampleRuntime : Runtime where
  PublicKey := JsString
  createPublicKey jwk := some jwk.x
  fromBase64Url s := List.replicate (s.length * 3 / 4) 0
  edVerify msg _ sig := msg = encodeUtf8 (popSignedMessage .register (js "p1") (js "n1")) ∧ sig = [0]
  parse s :=
    if s = sampleChallenge then some (.obj [(js "op", .str (js "challenge")), (js "token", .str (js "t"))])
    else if s = sampleRegister then
      some (.obj [(js "op", .str (js "register")), (js "token", .str (js "t")), (js "nonce", .str (js "n1")),
        (js "signature", .str (js "AA")), (js "protocolVersion", .num (.finite 3)),
        (js "clientNonce", .str (List.replicate 22 65))])
    else none
  pluginVersion := none

def sampleDeps (peerId payload : JsString) : RegisterHandlerDeps :=
  { nullDeps with subjectPeerId := peerId, payload := payload }

def sampleIdentity (peerId : JsString) : JwtIdentity :=
  ⟨peerId, some (js "t1"), some (List.replicate 43 65), some ⟨js "OKP", js "Ed25519", js "AA"⟩⟩

/-- One request from its delivery to its end. -/
def System.request (s : System) (peerId payload nonce : JsString) (now : Int) : System :=
  (s.deliver sampleRuntime (sampleDeps peerId payload)).settle sampleRuntime 0 (.ok (some (sampleIdentity peerId)))
    ⟨now, now, nonce⟩

theorem deliver_history (runtime : Runtime) (s : System) (deps : RegisterHandlerDeps) :
    (s.deliver runtime deps).history = s.history ∧ (s.deliver runtime deps).clock = s.clock := by
  obtain ⟨l, hl, -⟩ := deliver_eq runtime s deps
  rw [hl]
  exact ⟨rfl, rfl⟩

theorem reachable_request {s t : System} {peerId payload nonce : JsString} {now : Int}
    (h : Reachable sampleRuntime (js "t1") s t) (hclock : t.clock ≤ now)
    (hfresh : ∀ done ∈ t.history, done.moment.random ≠ nonce) :
    Reachable sampleRuntime (js "t1") s (t.request peerId payload nonce now) := by
  have hdeliver := deliver_history sampleRuntime t (sampleDeps peerId payload)
  refine (h.tail (.deliver t _ rfl rfl)).tail (.settle _ 0 _ _ ?_ (Int.le_refl _) ?_)
  · rw [hdeliver.2]
    exact hclock
  · rw [hdeliver.1]
    exact hfresh

/-- A challenge, a registration and the same registration again. -/
def replayRun : System :=
  (((System.initial 120000 8 0).request (js "p1") sampleChallenge (js "n1") 0).request
    (js "p1") sampleRegister (js "n2") 5).request (js "p1") sampleRegister (js "n3") 6

theorem replayRun_reachable : Reachable sampleRuntime (js "t1") (System.initial 120000 8 0) replayRun :=
  reachable_request (reachable_request (reachable_request .refl (by decide +kernel) (by decide +kernel)) (by decide +kernel) (by decide +kernel))
    (by decide +kernel) (by decide +kernel)

theorem proofs_spent_once_replay :
    replayRun.effects.length = 1 ∧ (replayRun.effects.map PeerEffect.nonce).Nodup :=
  ⟨by decide +kernel, (proofs_spent_once replayRun_reachable).2.1⟩

/-- A challenge of one peer, and long after it one of another. -/
def sweepRun : System :=
  ((System.initial 10 8 0).request (js "p1") sampleChallenge (js "n1") 0).request
    (js "p2") sampleChallenge (js "n2") 100

def capZeroRun : System := (System.initial 10 0 0).request (js "p1") sampleChallenge (js "n1") 0

/-- The sweep of a challenge takes an expired nonce from another peer, and a cap of zero leaves one nonce. -/
theorem challenge_sweeps_other_peers :
    (Reachable sampleRuntime (js "t1") (System.initial 10 8 0) sweepRun ∧
      ∃ done ∈ sweepRun.history, done.request.op = .challenge ∧
        (∃ identity, done.verified = .ok (some identity) ∧ identity.peerId ≠ js "p1") ∧
        done.before.find (js "p1") (js "n1") = some 10 ∧ done.after.find (js "p1") (js "n1") = none) ∧
    Reachable sampleRuntime (js "t1") (System.initial 10 0 0) capZeroRun ∧
      (capZeroRun.store.bucket (js "p1")).size = 1 := by
  refine ⟨⟨?_, ?_⟩, ?_, by decide +kernel⟩
  · exact reachable_request (reachable_request .refl (by decide +kernel) (by decide +kernel)) (by decide +kernel)
      (by decide +kernel)
  · have hlast : sweepRun.history[1]?.any (fun done => decide (done.request.op = .challenge) &&
        done.verified.toOption.join.any (fun identity => decide (identity.peerId ≠ js "p1")) &&
        decide (done.before.find (js "p1") (js "n1") = some 10) &&
        decide (done.after.find (js "p1") (js "n1") = none)) = true := by
      decide +kernel
    obtain ⟨done, hdone, hfacts⟩ := (Option.any_eq_true _ _).mp hlast
    simp only [Bool.and_eq_true, decide_eq_true_eq] at hfacts
    obtain ⟨⟨⟨hop, hverified⟩, hbefore⟩, hafter⟩ := hfacts
    refine ⟨done, List.mem_of_getElem? hdone, hop, ?_, hbefore, hafter⟩
    obtain ⟨identity, hjoined, hne⟩ := (Option.any_eq_true _ _).mp hverified
    refine ⟨identity, ?_, of_decide_eq_true hne⟩
    cases hresult : done.verified with
    | error e => simp [hresult, Except.toOption] at hjoined
    | ok found => rw [← show found = some identity by simpa [hresult, Except.toOption] using hjoined]
  · exact reachable_request .refl (by decide +kernel) (by decide +kernel)

end Webchannel.Register
