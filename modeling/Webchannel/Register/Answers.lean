import Webchannel.Register.Handler

/-!
# The register hop answers

Every exit of the handler is counted: how many replies it adds, and whether it ends by a throw.
The handler itself throws where it reads a property of `null`, and where the value that it
caught cannot be inspected.
-/

namespace Webchannel.Register

open Webchannel.Effect

def Effect.isReply : Effect → Bool
  | .reply _ => true
  | _ => false

/-- The number of replies so far. -/
def State.replies (s : State) : Nat := s.effects.countP Effect.isReply

/-- From `s` the code returns and has added `n` replies. -/
def AnswersAt {α : Type} (n : Nat) (m : Handler α) (s : State) : Prop :=
  ∃ a t, exec m s = (.ok a, t) ∧ t.replies = s.replies + n

/-- From `s` the code throws `err` without a reply. -/
def ThrowsAt {α : Type} (err : Thrown) (m : Handler α) (s : State) : Prop :=
  ∃ t, exec m s = (.error err, t) ∧ t.replies = s.replies

variable {α β : Type} {n k : Nat} {m : Handler α} {f : α → Handler β} {s : State} {err : Thrown}

theorem AnswersAt.pure (a : α) (s : State) : AnswersAt 0 (Pure.pure a : Handler α) s := ⟨a, s, rfl, rfl⟩

theorem AnswersAt.perform {e : Effect} (h : e.isReply = false) (s : State) : AnswersAt 0 (perform e) s := by
  refine ⟨⟨⟩, { s with effects := s.effects ++ [e] }, rfl, ?_⟩
  simp [State.replies, h]

theorem AnswersAt.reply (response : JsonValue) (s : State) : AnswersAt 1 (reply response) s := by
  refine ⟨⟨⟩, { s with effects := s.effects ++ [.reply response] }, rfl, ?_⟩
  simp [State.replies, Effect.isReply]

theorem AnswersAt.bind (hm : AnswersAt n m s)
    (hf : ∀ a t, exec m s = (.ok a, t) → AnswersAt k (f a) t) : AnswersAt (n + k) (m >>= f) s := by
  obtain ⟨a, t, hexec, ht⟩ := hm
  obtain ⟨b, u, hexec', hu⟩ := hf a t hexec
  exact ⟨b, u, by rw [exec_bind_ok hexec, hexec'], by rw [hu, ht, Nat.add_assoc]⟩

theorem ThrowsAt.bind (h : ThrowsAt err m s) : ThrowsAt err (m >>= f) s := by
  obtain ⟨t, hexec, ht⟩ := h
  exact ⟨t, exec_bind_error hexec, ht⟩

theorem ThrowsAt.after (hm : AnswersAt 0 m s) (hf : ∀ a t, exec m s = (.ok a, t) → ThrowsAt err (f a) t) :
    ThrowsAt err (m >>= f) s := by
  obtain ⟨a, t, hexec, ht⟩ := hm
  obtain ⟨u, hexec', hu⟩ := hf a t hexec
  exact ⟨u, by rw [exec_bind_ok hexec, hexec'], hu.trans ht⟩

theorem ThrowsAt.throw (err : Thrown) (s : State) : ThrowsAt err (throw err : Handler α) s := ⟨s, rfl, rfl⟩

/-! ## Calls -/

theorem call_none {e : Effect} (h : e.isReply = false) (s : State) : AnswersAt 0 (call e none) s :=
  (AnswersAt.perform h s).bind fun _ t _ => .pure () t

theorem call_some {e : Effect} (h : e.isReply = false) (err : Thrown) (s : State) :
    ThrowsAt err (call e (some err)) s :=
  ThrowsAt.after (AnswersAt.perform h s) fun _ t _ => .throw err t

/-- What the body of the last `try` throws. -/
def admissionError (deps : RegisterHandlerDeps) (peerId : JsString) (devicePublicKey : Bytes)
    (clientNonce : JsString) : Option Thrown :=
  match deps.registerPeer peerId with
  | some err => some err
  | none =>
    match deps.wrapConversationKeyForDevice peerId devicePublicKey clientNonce with
    | .error err => some err
    | .ok none => none
    | .ok (some _) => (deps.sendHistorySnapshot peerId).or (deps.sendApprovalSnapshot peerId)

theorem admitPeer_answers {runtime : Runtime} {deps : RegisterHandlerDeps} {peerId : JsString}
    {devicePublicKey : Bytes} {clientNonce : JsString}
    (h : admissionError deps peerId devicePublicKey clientNonce = none) (s : State) :
    AnswersAt 1 (admitPeer runtime deps peerId devicePublicKey clientNonce) s := by
  unfold admissionError at h
  unfold admitPeer
  cases hregister : deps.registerPeer peerId with
  | some err => simp [hregister] at h
  | none =>
    rw [hregister] at h
    refine (call_none rfl s).bind (k := 1) fun _ t _ => (AnswersAt.perform rfl t).bind (k := 1) fun _ t _ => ?_
    cases hwrap : deps.wrapConversationKeyForDevice peerId devicePublicKey clientNonce with
    | error err => simp [hwrap] at h
    | ok wrapped =>
      cases wrapped with
      | none => exact .reply _ t
      | some wrapped =>
        simp only [hwrap, Option.or_eq_none_iff] at h
        obtain ⟨hhistory, happroval⟩ := h
        simp only [hhistory, happroval]
        exact (call_none rfl t).bind (k := 1) fun _ t _ => (call_none rfl t).bind (k := 1) fun _ t _ => .reply _ t

theorem admitPeer_throws {runtime : Runtime} {deps : RegisterHandlerDeps} {peerId : JsString}
    {devicePublicKey : Bytes} {clientNonce : JsString}
    (h : admissionError deps peerId devicePublicKey clientNonce = some err) (s : State) :
    ThrowsAt err (admitPeer runtime deps peerId devicePublicKey clientNonce) s := by
  unfold admissionError at h
  unfold admitPeer
  cases hregister : deps.registerPeer peerId with
  | some err' =>
    rw [hregister] at h
    obtain rfl : err' = err := Option.some.inj h
    exact (call_some rfl err' s).bind
  | none =>
    rw [hregister] at h
    refine ThrowsAt.after (call_none rfl s) fun _ t _ => ThrowsAt.after (AnswersAt.perform rfl t) fun _ t _ => ?_
    cases hwrap : deps.wrapConversationKeyForDevice peerId devicePublicKey clientNonce with
    | error err' =>
      rw [hwrap] at h
      obtain rfl : err' = err := Option.some.inj h
      exact .throw err' t
    | ok wrapped =>
      cases wrapped with
      | none => simp [hwrap] at h
      | some wrapped =>
        simp only [hwrap] at h
        dsimp only
        cases hhistory : deps.sendHistorySnapshot peerId with
        | some err' =>
          rw [hhistory] at h
          obtain rfl : err' = err := Option.some.inj h
          exact (call_some rfl err' t).bind
        | none =>
          rw [hhistory, Option.none_or] at h
          rw [h]
          exact ThrowsAt.after (call_none rfl t) fun _ t _ => (call_some rfl err t).bind

/-! ## The capacity error -/

theorem check_ne_none {p : Property} {test : Value → Bool} {rest : Option Bool}
    (h : err.check p test rest ≠ none) : err.get p ≠ none := by
  intro hget
  rw [Thrown.check, hget] at h
  exact h rfl

theorem check_eq_true {p : Property} {test : Value → Bool} {rest : Option Bool}
    (h : err.check p test rest = some true) : rest = some true ∧ ∃ v, err.get p = some v := by
  rw [Thrown.check] at h
  cases hget : err.get p with
  | none => simp [hget] at h
  | some v =>
    simp only [hget] at h
    split at h
    · exact ⟨h, v, rfl⟩
    · cases h

/-- What is a capacity error can be read in full. -/
theorem capacityStatus_of_isConversationKeyCapacityError (h : isConversationKeyCapacityError err = some true) :
    ∃ status, capacityStatus err = some status := by
  unfold isConversationKeyCapacityError at h
  split at h
  · cases h
  · have hname := check_eq_true h
    have haccount := check_eq_true hname.1
    have hcurrent := check_eq_true haccount.1
    have hmax := check_eq_true hcurrent.1
    obtain ⟨accountId, haccount⟩ := haccount.2
    obtain ⟨currentKeys, hcurrent⟩ := hcurrent.2
    obtain ⟨maxKeys, hmax⟩ := hmax.2
    exact ⟨⟨accountId, currentKeys, maxKeys⟩, by simp [capacityStatus, haccount, hcurrent, hmax]⟩

theorem hasCapacityErrorName_ne_none (h : isConversationKeyCapacityError err ≠ none) :
    hasCapacityErrorName err ≠ none := by
  unfold isConversationKeyCapacityError at h
  unfold hasCapacityErrorName
  split
  · simp
  · rename_i hobject
    rw [if_neg hobject] at h
    obtain ⟨v, hv⟩ := Option.ne_none_iff_exists'.mp (check_ne_none h)
    rw [Thrown.check, hv]
    dsimp only
    split <;> simp

theorem inspect_some (a : α) (s : State) : AnswersAt 0 (inspect (some a)) s := .pure a s

theorem reportCapacity_answers (deps : RegisterHandlerDeps) (status : CapacityStatus) (s : State) :
    AnswersAt 0 (reportCapacity deps status) s := by
  unfold reportCapacity
  cases deps.onCapacityReject with
  | none => exact .pure () s
  | some onCapacityReject =>
    dsimp only
    cases houtcome : onCapacityReject status with
    | none =>
      obtain ⟨a, t, hexec, ht⟩ := call_none (e := .capacityReject status) rfl s
      exact ⟨a, t, by rw [exec_tryCatch, hexec], ht⟩
    | some err =>
      obtain ⟨t, hexec, ht⟩ := call_some (e := .capacityReject status) rfl err s
      exact ⟨(), t, by rw [exec_tryCatch, hexec]; rfl, ht⟩

theorem admissionFailed_answers {deps : RegisterHandlerDeps} (h : isConversationKeyCapacityError err ≠ none)
    (s : State) : AnswersAt 1 (admissionFailed deps err) s := by
  obtain ⟨isCapacity, hcapacity⟩ := Option.ne_none_iff_exists'.mp h
  obtain ⟨hasName, hname⟩ := Option.ne_none_iff_exists'.mp (hasCapacityErrorName_ne_none h)
  unfold admissionFailed
  rw [hcapacity, hname]
  refine (inspect_some isCapacity s).bind (k := 1) fun a t ha => ?_
  obtain rfl : isCapacity = a := by
    cases ha
    rfl
  cases isCapacity with
  | true =>
    obtain ⟨status, hstatus⟩ := capacityStatus_of_isConversationKeyCapacityError hcapacity
    rw [hstatus]
    exact (inspect_some status t).bind (k := 1) fun status t _ =>
      (AnswersAt.reply _ t).bind fun _ t _ => reportCapacity_answers deps status t
  | false => exact (inspect_some hasName t).bind (k := 1) fun _ t _ => .reply _ t

theorem admissionFailed_throws {deps : RegisterHandlerDeps} (h : isConversationKeyCapacityError err = none)
    (s : State) : ThrowsAt typeError (admissionFailed deps err) s := by
  unfold admissionFailed
  rw [h]
  exact (ThrowsAt.throw typeError s).bind

/-! ## The proof of possession -/

/-- Whether the gate and the proof let an operation pass, and the store they leave. -/
def possession (runtime : Runtime) (deps : RegisterHandlerDeps) (op : PopOp) (identity : JwtIdentity)
    (parsed : JsonValue) (now : Int) (store : PopChallengeStore) : Bool × PopChallengeStore :=
  if popRequirementUnmet deps.requirePoP identity.popPublicJwk.isSome then (false, store)
  else
    match identity.popPublicJwk with
    | none => (true, store)
    | some jwk =>
      if parsed.readString "nonce" = [] ∨ parsed.readString "signature" = [] then (false, store)
      else
        let result := store.verify runtime.toSignatureRuntime op identity.peerId (parsed.readString "nonce")
          (parsed.readString "signature") jwk now
        (result.1.ok, result.2)

theorem exec_provePossession (runtime : Runtime) (deps : RegisterHandlerDeps) (op : PopOp)
    (identity : JwtIdentity) (parsed : JsonValue) (now : Int) (s : State) :
    exec (provePossession runtime deps op identity parsed now) s =
      (.ok (possession runtime deps op identity parsed now s.store).1,
        { s with store := (possession runtime deps op identity parsed now s.store).2 }) := by
  unfold provePossession possession
  split
  · rfl
  · cases identity.popPublicJwk with
    | none => rfl
    | some jwk =>
      dsimp only
      unfold verifyProof
      dsimp only
      split
      · rfl
      · rfl

/-! ## The sections of the handler -/

def opOf (parsed : JsonValue) : Option Op :=
  let op := parsed.readString "op"
  if op = js "unregister" then some .unregister
  else if op = js "challenge" then some .challenge
  else if op = js "register" then some .register
  else none

/-- The request that a payload makes, if it gets as far as the verification of its token. -/
def requestOf (parsed : JsonValue) : Option Request :=
  match opOf parsed with
  | none => none
  | some op =>
    let token := parsed.readString "token"
    if token = [] then none else some ⟨op, token, parsed⟩

/-- The payload is a JSON object whose `op` is "unregister". -/
def IsUnregister (runtime : Runtime) (payload : JsString) : Prop :=
  ∃ l, runtime.parse payload = some (.obj l) ∧ (Json.obj l).member "op" = some (.str (js "unregister"))

theorem isUnregister_iff {runtime : Runtime} {payload : JsString} {parsed : JsonValue}
    (h : runtime.parse payload = some parsed) :
    IsUnregister runtime payload ↔ parsed.readString "op" = js "unregister" := by
  constructor
  · rintro ⟨l, hparse, hop⟩
    obtain rfl : parsed = .obj l := Option.some.inj (h.symm.trans hparse)
    rw [Json.readString, hop]
  · intro hop
    cases parsed with
    | obj l =>
      refine ⟨l, h, ?_⟩
      unfold Json.readString at hop
      split at hop
      · rename_i hmember
        rw [hmember, hop]
      · cases hop
    | null => cases hop
    | bool b => cases hop
    | num n => cases hop
    | str s => cases hop
    | arr l => cases hop

theorem opOf_eq_unregister {parsed : JsonValue} :
    opOf parsed = some .unregister ↔ parsed.readString "op" = js "unregister" := by
  unfold opOf
  dsimp only
  split
  · simp [*]
  · rename_i hop
    split
    · simp [hop]
    · split <;> simp [hop]

theorem readOp_of_ne_null {parsed : JsonValue} (h : parsed ≠ .null) : readOp parsed = pure (parsed.readString "op") := by
  cases parsed with
  | null => exact absurd rfl h
  | _ => rfl

theorem startRequest_of_requestOf {runtime : Runtime} {payload : JsString} {parsed : JsonValue}
    {request : Request} (hparse : runtime.parse payload = some parsed) (h : requestOf parsed = some request)
    (s : State) : exec (startRequest runtime payload) s = (.ok (some request), s) := by
  have hnull : parsed ≠ .null := by
    rintro rfl
    cases h
  unfold startRequest
  rw [hparse]
  dsimp only
  rw [readOp_of_ne_null hnull, pure_bind]
  unfold requestOf opOf at h
  dsimp only at h
  split at h
  · cases h
  · rename_i op hop
    split at h
    · cases h
    · rename_i htoken
      obtain rfl := Option.some.inj h
      split at hop
      · rename_i hunregister
        obtain rfl := Option.some.inj hop
        rw [if_pos hunregister, if_neg htoken]
        rfl
      · rename_i hunregister
        rw [if_neg hunregister]
        split at hop
        · rename_i hchallenge
          obtain rfl := Option.some.inj hop
          rw [if_pos hchallenge, if_neg htoken]
          rfl
        · rename_i hchallenge
          rw [if_neg hchallenge]
          split at hop
          · rename_i hregister
            obtain rfl := Option.some.inj hop
            rw [if_pos hregister, if_neg htoken]
            rfl
          · cases hop

/-- A request that ends before the verification is answered unless it is a teardown. -/
theorem startRequest_answers {runtime : Runtime} {payload : JsString}
    (hnull : runtime.parse payload ≠ some .null)
    (h : ∀ parsed, runtime.parse payload = some parsed → requestOf parsed = none) (s : State) :
    ∃ t, exec (startRequest runtime payload) s = (.ok none, t) ∧
      (IsUnregister runtime payload → t.replies = s.replies) ∧
      (¬ IsUnregister runtime payload → t.replies = s.replies + 1) := by
  have hanswer (hun : ¬ IsUnregister runtime payload) :
      ∃ t, exec (answer REGISTER_UNAUTHORIZED : Handler (Option Request)) s = (.ok none, t) ∧
        (IsUnregister runtime payload → t.replies = s.replies) ∧
        (¬ IsUnregister runtime payload → t.replies = s.replies + 1) := by
    obtain ⟨_, t, hexec, ht⟩ := AnswersAt.reply REGISTER_UNAUTHORIZED s
    exact ⟨t, exec_bind_ok hexec, fun hyes => absurd hyes hun, fun _ => ht⟩
  unfold startRequest
  cases hparse : runtime.parse payload with
  | none =>
    refine hanswer ?_
    rintro ⟨l, hl, -⟩
    rw [hparse] at hl
    cases hl
  | some parsed =>
    have hnone := h parsed hparse
    dsimp only
    rw [readOp_of_ne_null (fun hp => hnull (hp ▸ hparse)), pure_bind]
    unfold requestOf opOf at hnone
    dsimp only at hnone ⊢
    have hun := isUnregister_iff hparse
    by_cases hunregister : parsed.readString "op" = js "unregister"
    · rw [if_pos hunregister] at hnone ⊢
      dsimp only at hnone
      split at hnone
      · rename_i htoken
        rw [if_pos htoken]
        exact ⟨s, rfl, fun _ => rfl, fun hno => absurd (hun.mpr hunregister) hno⟩
      · cases hnone
    · have hno := hun.not.mpr hunregister
      rw [if_neg hunregister] at hnone ⊢
      by_cases hchallenge : parsed.readString "op" = js "challenge"
      · rw [if_pos hchallenge] at hnone ⊢
        dsimp only at hnone
        split at hnone
        · rename_i htoken
          rw [if_pos htoken]
          exact hanswer hno
        · cases hnone
      · rw [if_neg hchallenge] at hnone ⊢
        by_cases hregister : parsed.readString "op" = js "register"
        · rw [if_pos hregister] at hnone ⊢
          dsimp only at hnone
          split at hnone
          · rename_i htoken
            rw [if_pos htoken]
            exact hanswer hno
          · cases hnone
        · rw [if_neg hregister]
          exact hanswer hno

theorem resumeUnregister_answers (runtime : Runtime) (deps : RegisterHandlerDeps) (parsed : JsonValue)
    (verified : Except Thrown (Option JwtIdentity)) (now : Int) (s : State) :
    AnswersAt 0 (resumeUnregister runtime deps parsed verified now) s := by
  unfold resumeUnregister
  split
  · exact .pure () s
  · exact .pure () s
  · rename_i identity
    split
    · refine AnswersAt.bind (k := 0) ⟨_, _, exec_provePossession _ _ _ _ _ _ _, rfl⟩ fun a t _ => ?_
      split
      · exact .perform rfl t
      · exact .pure () t
    · exact .pure () s

/-- The device key of an identity, where it decodes to 32 bytes. -/
def devicePublicKey (runtime : Runtime) (identity : JwtIdentity) : Option Bytes :=
  match identity.devicePublicKey.filter (· ≠ []) with
  | none => none
  | some key => if (runtime.fromBase64Url key).length = 32 then some (runtime.fromBase64Url key) else none

/-- What the last `try` of a registration throws, where the request gets there. -/
def registrationError (runtime : Runtime) (deps : RegisterHandlerDeps) (identity : JwtIdentity)
    (parsed : JsonValue) (now : Int) (store : PopChallengeStore) : Option Thrown :=
  if speaksProtocol parsed = false then none
  else
    match readClientNonce parsed with
    | none => none
    | some clientNonce =>
      if (possession runtime deps .register identity parsed now store).1 then
        match devicePublicKey runtime identity with
        | none => none
        | some key => admissionError deps identity.peerId key clientNonce
      else none

/-- One reply, unless `thrown` is a value that cannot be inspected. -/
def EndsWith {α : Type} (thrown : Option Thrown) (m : Handler α) (s : State) : Prop :=
  (thrown.all fun err => (isConversationKeyCapacityError err).isSome) = true ∧ AnswersAt 1 m s ∨
    (thrown.all fun err => (isConversationKeyCapacityError err).isSome) = false ∧ ThrowsAt typeError m s

theorem EndsWith.answers {α : Type} {m : Handler α} {s : State} (h : AnswersAt 1 m s) : EndsWith none m s :=
  .inl ⟨rfl, h⟩

theorem EndsWith.bind {thrown : Option Thrown} {t : State} {a : α} (hm : exec m s = (.ok a, t))
    (hreplies : t.replies = s.replies) (h : EndsWith thrown (f a) t) : EndsWith thrown (m >>= f) s := by
  unfold EndsWith AnswersAt ThrowsAt at h ⊢
  rw [exec_bind_ok hm, ← hreplies]
  exact h

/-- The last `try` with its handler. -/
theorem admission_endsWith (runtime : Runtime) (deps : RegisterHandlerDeps) (peerId : JsString)
    (key : Bytes) (clientNonce : JsString) (s : State) :
    EndsWith (admissionError deps peerId key clientNonce)
      (tryCatch (admitPeer runtime deps peerId key clientNonce) (admissionFailed deps)) s := by
  cases h : admissionError deps peerId key clientNonce with
  | none =>
    have hanswers : AnswersAt 1 (admitPeer runtime deps peerId key clientNonce) s := admitPeer_answers h s
    obtain ⟨a, t, hexec, ht⟩ := hanswers
    exact .answers ⟨a, t, by rw [exec_tryCatch, hexec], ht⟩
  | some err =>
    have hthrows : ThrowsAt err (admitPeer runtime deps peerId key clientNonce) s := admitPeer_throws h s
    obtain ⟨t, hexec, ht⟩ := hthrows
    unfold EndsWith AnswersAt ThrowsAt
    rw [exec_tryCatch, hexec, ← ht]
    cases hcapacity : isConversationKeyCapacityError err with
    | none => exact .inr ⟨by simp [hcapacity], admissionFailed_throws hcapacity t⟩
    | some b => exact .inl ⟨by simp [hcapacity], admissionFailed_answers (by simp [hcapacity]) t⟩

theorem resumeRegister_endsWith (runtime : Runtime) (deps : RegisterHandlerDeps) (identity : JwtIdentity)
    (parsed : JsonValue) (now : Int) (s : State) :
    EndsWith (registrationError runtime deps identity parsed now s.store)
      (resumeRegister runtime deps identity parsed now) s := by
  unfold registrationError resumeRegister
  by_cases hprotocol : speaksProtocol parsed = false
  · rw [if_pos hprotocol, if_pos hprotocol]
    exact .answers (.reply _ s)
  rw [if_neg hprotocol, if_neg hprotocol]
  cases hnonce : readClientNonce parsed with
  | none => exact .answers (.reply _ s)
  | some clientNonce =>
    dsimp only
    refine EndsWith.bind (exec_provePossession runtime deps .register identity parsed now s) rfl ?_
    cases hproved : (possession runtime deps .register identity parsed now s.store).1 with
    | false => exact .answers (.reply _ _)
    | true =>
      rw [if_pos rfl, if_pos rfl]
      unfold devicePublicKey
      cases identity.devicePublicKey.filter (· ≠ []) with
      | none => exact .answers (.reply _ _)
      | some key =>
        dsimp only
        by_cases hlength : (runtime.fromBase64Url key).length = 32
        · rw [if_pos hlength, if_neg (not_not.mpr hlength)]
          exact admission_endsWith runtime deps _ _ _ _
        · rw [if_neg hlength, if_pos hlength]
          exact .answers (.reply _ _)

/-! ## The handler -/

/-- The handler returns, and its replies are as many as the operation asks for. -/
def Answered (runtime : Runtime) (deps : RegisterHandlerDeps)
    (verifyIdentity : JsString → Except Thrown (Option JwtIdentity)) (moment : Moment) (s : State) : Prop :=
  ∃ t, exec (handleRegisterRequest runtime deps verifyIdentity moment) s = (.ok (), t) ∧
    (IsUnregister runtime deps.payload → t.replies = s.replies) ∧
    (¬ IsUnregister runtime deps.payload → t.replies = s.replies + 1)

/-- What the handler catches can be inspected: the rejection of `verifyIdentity` by `instanceof`, the
error of a registration by its properties. -/
structure Inspectable (runtime : Runtime) (deps : RegisterHandlerDeps) (request : Request)
    (verified : Except Thrown (Option JwtIdentity)) (moment : Moment) (store : PopChallengeStore) : Prop where
  rejection : ∀ err, verified = .error err → err.isTransientVerifyError ≠ none
  registration : ∀ identity err, request.op = .register → verified = .ok (some identity) →
    admits deps identity = true →
    registrationError runtime deps identity request.parsed moment.first store = some err →
    isConversationKeyCapacityError err ≠ none

/-- The payload is not the JSON value `null`, and a request that waits for its token catches nothing
that cannot be inspected. -/
structure Answerable (runtime : Runtime) (deps : RegisterHandlerDeps)
    (verifyIdentity : JsString → Except Thrown (Option JwtIdentity)) (moment : Moment)
    (store : PopChallengeStore) : Prop where
  payload : runtime.parse deps.payload ≠ some .null
  request : ∀ parsed request, runtime.parse deps.payload = some parsed → requestOf parsed = some request →
    request.op ≠ .unregister → Inspectable runtime deps request (verifyIdentity request.token) moment store

/-- The rest of a request either is inspectable and is answered, or is not and throws. -/
theorem resumeRequest_ends (runtime : Runtime) (deps : RegisterHandlerDeps) (request : Request)
    (verified : Except Thrown (Option JwtIdentity)) (moment : Moment) (s : State)
    (hop : request.op ≠ .unregister) :
    Inspectable runtime deps request verified moment s.store ∧
        AnswersAt 1 (resumeRequest runtime deps request verified moment) s ∨
      ¬ Inspectable runtime deps request verified moment s.store ∧
        ThrowsAt typeError (resumeRequest runtime deps request verified moment) s := by
  unfold resumeRequest
  rw [if_neg hop]
  cases verified with
  | error err =>
    dsimp only
    cases htransient : err.isTransientVerifyError with
    | none => exact .inr ⟨fun h => h.rejection err rfl htransient, (ThrowsAt.throw typeError s).bind⟩
    | some b =>
      refine .inl ⟨⟨?_, nofun⟩, (inspect_some b s).bind (k := 1) fun a t _ => ?_⟩
      · rintro _ ⟨⟩
        simp [htransient]
      · split
        · exact .reply _ t
        · exact .reply _ t
  | ok identity =>
    cases identity with
    | none => exact .inl ⟨⟨nofun, nofun⟩, .reply _ s⟩
    | some identity =>
      dsimp only
      by_cases hadmits : admits deps identity = false
      · rw [if_pos hadmits]
        refine .inl ⟨⟨nofun, ?_⟩, .reply _ s⟩
        rintro _ _ _ ⟨⟩ h
        rw [hadmits] at h
        cases h
      rw [if_neg hadmits]
      by_cases hchallenge : request.op = .challenge
      · rw [if_pos hchallenge]
        refine .inl ⟨⟨nofun, fun _ _ h => ?_⟩, ?_⟩
        · rw [hchallenge] at h
          cases h
        · exact AnswersAt.bind (n := 0) ⟨_, _, rfl, rfl⟩ fun _ t _ => .reply _ t
      rw [if_neg hchallenge]
      have hregister : request.op = .register := by
        cases hcases : request.op with
        | challenge => exact absurd hcases hchallenge
        | register => rfl
        | unregister => exact absurd hcases hop
      have hresume := resumeRegister_endsWith runtime deps identity request.parsed moment.first s
      cases herr : registrationError runtime deps identity request.parsed moment.first s.store with
      | none =>
        rw [herr] at hresume
        obtain ⟨-, h⟩ | ⟨h, -⟩ := hresume
        · refine .inl ⟨⟨nofun, ?_⟩, h⟩
          rintro _ _ _ ⟨⟩ _ h'
          rw [herr] at h'
          cases h'
        · cases h
      | some err =>
        rw [herr, EndsWith, Option.all_some] at hresume
        obtain ⟨hinspect, h⟩ | ⟨hinspect, h⟩ := hresume
        · refine .inl ⟨⟨nofun, ?_⟩, h⟩
          rintro _ _ _ ⟨⟩ _ h'
          obtain rfl := Option.some.inj (herr.symm.trans h')
          intro hnone
          rw [hnone] at hinspect
          cases hinspect
        · refine .inr ⟨fun hall => hall.registration identity err hregister rfl ?_ herr ?_, h⟩
          · simpa using hadmits
          · simpa using hinspect

theorem handleRegisterRequest_throws {runtime : Runtime} {deps : RegisterHandlerDeps}
    {verifyIdentity : JsString → Except Thrown (Option JwtIdentity)} {moment : Moment} {s : State}
    (h : ¬ Answerable runtime deps verifyIdentity moment s.store) :
    ThrowsAt typeError (handleRegisterRequest runtime deps verifyIdentity moment) s := by
  unfold handleRegisterRequest
  by_cases hnull : runtime.parse deps.payload = some .null
  · unfold startRequest
    rw [hnull]
    exact ((ThrowsAt.throw typeError s).bind).bind
  · have hrequest : ∃ parsed request, runtime.parse deps.payload = some parsed ∧
        requestOf parsed = some request ∧ request.op ≠ .unregister ∧
        ¬ Inspectable runtime deps request (verifyIdentity request.token) moment s.store := by
      by_contra hno
      refine h ⟨hnull, fun parsed request hparse hrequest hop => ?_⟩
      by_contra hinspect
      exact hno ⟨parsed, request, hparse, hrequest, hop, hinspect⟩
    obtain ⟨parsed, request, hparse, hrequest, hop, hinspect⟩ := hrequest
    have hstart := startRequest_of_requestOf hparse hrequest s
    obtain ⟨hyes, -⟩ | ⟨-, hthrows⟩ :=
      resumeRequest_ends runtime deps request (verifyIdentity request.token) moment s hop
    · exact absurd hyes hinspect
    · obtain ⟨t, hexec, ht⟩ := hthrows
      exact ⟨t, by rw [exec_bind_ok hstart]; exact hexec, ht⟩

/-- A runtime that parses one text. -/
def nullRuntime : Runtime where
  PublicKey := Unit
  createPublicKey _ := none
  fromBase64Url _ := []
  edVerify _ _ _ := false
  parse s := if s = js "null" then some .null else none
  pluginVersion := none

/-- Callbacks that do nothing. -/
def nullDeps : RegisterHandlerDeps where
  tenant := js "t1"
  subjectPeerId := js "p1"
  payload := js "null"
  requirePoP := true
  registerPeer _ := none
  wrapConversationKeyForDevice _ _ _ := .ok none
  sendHistorySnapshot _ := none
  sendApprovalSnapshot _ := none
  onCapacityReject := none

end Webchannel.Register
