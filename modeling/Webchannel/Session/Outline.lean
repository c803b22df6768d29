import Webchannel.Session.Ownership

/-!
# The browser client: the code makes only changes of the model

A promise about the client is given by its terms: an invariant of views and duties, what holds
at an action, and what is assumed of the environment. Terms that every change keeps make a
contract of the code. What the code's fences and flags add to the view is proved once here: it
is the same for all terms.
-/

namespace Webchannel.Session

open Webchannel.Reentrant Prog Contract

/-- What suspended programs are in the middle of: their duty, the connection flow that runs, a
socket that was given up while the session key is still there, an epoch that moved on before the
key is dropped (past every flow, and past the message that is being sealed), a drain, and a
message that is being sealed. -/
structure Mode where
  duty : Duty := {}
  flow : Option FlowId := none
  offline : Bool := false
  behind : Bool := false
  bumped : Bool := false
  draining : Bool := false
  pin : Option Sealing := none

/-- Until it is published, the entry of a message that is being sealed stays as it was
recorded, and a session that is still there is the one it is sealed for. -/
structure Pinned (bumped : Bool) (x : Sealing) (s : Client) : Prop where
  entry : ∀ e, s.unackedLedger.get x.id = some e → e.stamp = x.stamp ∧ e.nextRetryAt = none
  session : bumped = false → ∀ key, s.sessionKey = some key → key = x.key ∧ s.connectionEpoch = x.epoch

/-- The flows that run or are suspended. -/
def Mode.Knows (w : Mode) (s : Client) (f : FlowId) : Prop :=
  w.flow = some f ∨ f ∈ s.flows.map Flow.flow

structure Sound (w : Mode) (s : Client) : Prop where
  flows : ∀ f, w.Knows s f → f.epoch ≤ s.connectionEpoch
    ∧ (w.behind = true ∨ w.offline = false ∧ s.connected = false → f.epoch < s.connectionEpoch)
  draining : s.drainingOutboundQueue = w.draining
  socket : s.connected = true → s.ws.isSome = true
  offline : w.offline = true → s.connected = false
  keyed : w.offline = false → s.connected = false → s.sessionKey = none
  pinned : ∀ x, w.pin = some x → Pinned w.bumped x s
  resting : w.draining = false → w.pin = none ∧ w.duty.sealing = none
  busy : w.draining = true → w.duty.clean = true

/-- What soundness looks at. -/
def Client.rig (s : Client) : Bool × Bool × Option Nat × Option SessionKey × Nat
    × OrderedMap WireId UnackedLedgerEntry × List Flow :=
  (s.drainingOutboundQueue, s.connected, s.ws, s.sessionKey, s.connectionEpoch, s.unackedLedger, s.flows)

theorem Sound.congr {w : Mode} {s s' : Client} (h : Sound w s) (hrig : s'.rig = s.rig) : Sound w s' := by
  simp only [Client.rig, Prod.mk.injEq] at hrig
  obtain ⟨h₁, h₂, h₃, h₄, h₅, h₆, h₇⟩ := hrig
  refine ⟨?_, h₁ ▸ h.draining, ?_, ?_, ?_, fun x hx => ⟨?_, ?_⟩, h.resting, h.busy⟩
  · unfold Mode.Knows
    rw [h₂, h₅, h₇]
    exact h.flows
  · rw [h₂, h₃]
    exact h.socket
  · rw [h₂]
    exact h.offline
  · rw [h₂, h₄]
    exact h.keyed
  · rw [h₆]
    exact (h.pinned x hx).entry
  · rw [h₄, h₅]
    exact (h.pinned x hx).session

/-- A duty that differs only in what is owed. -/
theorem Sound.duty {w : Mode} {s : Client} {d : Duty} (h : Sound w s)
    (hsealing : d.sealing = w.duty.sealing) (hclean : d.clean = w.duty.clean) :
    Sound { w with duty := d } s :=
  ⟨h.flows, h.draining, h.socket, h.offline, h.keyed, h.pinned,
    fun hd => ⟨(h.resting hd).1, hsealing.trans (h.resting hd).2⟩, fun hd => hclean.trans (h.busy hd)⟩

structure Terms where
  inv : Duty → View → List Out → Prop
  atAct : Out → View → List Out → Prop
  okAnswer : View → (q : Ask) → Answer q → Prop
  okEnter : Client → List Out → Entry → Prop

/-- The entries that may publish queued or unacknowledged messages. -/
def Entry.sends : Entry → Bool
  | .sendUserMessage _ _ | .sendApprovalDecision _ _ | .loadHistory _ _ | .loadCommands
  | .retryTimer _ => true
  | _ => false

/-- The replies after which registration is tried again. -/
def ChallengeReply.retries : ChallengeReply → Bool
  | .rejected | .unavailable | .noNonce => true
  | .refused | .nonce => false

def RegisterReply.retries : RegisterReply → Bool
  | .rejected => true
  | .error code _ => code == 503
  | .malformedVersion | .ok _ => false

/-- The flow whose continuation issues a request. -/
def Entry.requests : Entry → Option FlowId
  | .challenged flow attempt _ reply => if reply.retries = true ∧ attempt < registerRetries then some flow else none
  | .signed flow _ ok => if ok = true then some flow else none
  | .replied flow attempt _ reply => if reply.retries = true ∧ attempt < registerRetries then some flow else none
  | _ => none

/-- Retirement is final, and a session key comes from the current flow only. -/
def Evolves (s s' : Client) : Prop :=
  (s.terminalReached = true → s'.terminalReached = true)
    ∧ ∀ key, s'.sessionKey = some key → s.sessionKey = some key ∨ s.connectionFlowMatches key = true

structure Terms.Holds (T : Terms) (w : Mode) (s : Client) (t : List Out) : Prop where
  sound : Sound w s
  owns : s.view.Owns w.duty
  kept : T.inv w.duty s.view t

def Terms.contract (T : Terms) : Contract Client Ask Answer Out Entry Mode where
  inv := T.Holds
  changes := Evolves
  atAct e s := T.atAct e s.view
  okAnswer s := T.okAnswer s.view
  okEnter _ s t e := T.okEnter s t e
  base := {}
  changes_refl _ := ⟨id, fun _ => Or.inl⟩

/-- What has to be shown of the terms. The events that wait for the listeners do not matter at
an action, because one of them is taken off just before it is delivered. -/
structure Outline (T : Terms) : Prop where
  change : ∀ {d v t d' v' t'}, Change T.okAnswer d v t d' v' t' → v.Wf → v.Owns d → T.inv d v t →
    T.inv d' v' t'
  act : ∀ {d v t d' v' e}, Change T.okAnswer d v t d' v' (e :: t) → v.Wf → v.Owns d → T.inv d v t →
    ∀ events, T.atAct e { v with events } t
  sends : ∀ {d s t e}, T.okEnter s t e → e.sends = true → s.drainingOutboundQueue = false →
    T.inv d s.view t → T.inv { d with clean := true } s.view t
  continues : ∀ {s t e flow}, T.okEnter s t e → e.requests = some flow → T.inv {} s.view t →
    T.inv { flow := some flow } s.view t

/-! ### Views -/

/-- The state without its bookkeeping: timers, the stall episode, warnings. -/
def Client.core (c : Client) : Client :=
  { c with
    lifecycleGeneration := 0, terminal := false, reconnectTimer := false, sidCounter := 0
    drainingSendStateEvents := false, terminalCause := .unknown
    liveRetryTimer := none, liveRetryTimerGeneration := 0, scheduledTimers := []
    ackStallSinceAt := none, ackStallRecoveryIssued := false, ackStallMutationEpoch := 0
    pendingInbound := [], warnedUnackedEvict := false, warnedPreKeyDrop := false, outSub := none }

theorem Client.view_wf (c : Client) : c.view.Wf where
  keys_nodup := OrderedMap.keys_nodup _
  mem_keys id := by
    rw [show c.view.keys = c.sendTracker.keys from rfl, OrderedMap.mem_keys]
    simp [Client.view, OrderedMap.has]

theorem Client.states_eq_some {c : Client} {id : WireId} {e : TrackerEntry}
    (h : c.sendTracker.get id = some e) : c.view.states id = some e.state := by
  simp [Client.view, h]

theorem Client.states_eq_none {c : Client} {id : WireId} (h : c.sendTracker.get id = none) :
    c.view.states id = none := by
  simp [Client.view, h]

theorem Client.view_setEntry {c : Client} {id : WireId} {e e' : TrackerEntry}
    (h : c.sendTracker.get id = some e) : (c.setEntry id e').view = c.view.setState id e'.state := by
  have hkeys : (c.sendTracker.set id e').keys = c.sendTracker.keys :=
    OrderedMap.keys_set_of_has _ (by simp [OrderedMap.has, h])
  have hstates : (fun x => ((c.sendTracker.set id e').get x).map (·.state))
      = Function.update c.view.states id (some e'.state) := by
    funext x
    rw [OrderedMap.get_set_eq]
    by_cases hx : x = id
    · rw [if_pos hx, hx, Function.update_self]
      rfl
    · rw [if_neg hx, Function.update_of_ne hx]
      rfl
  calc (c.setEntry id e').view
      _ = { c.view with
            keys := (c.sendTracker.set id e').keys
            states := fun x => ((c.sendTracker.set id e').get x).map (·.state) } := rfl
      _ = c.view.setState id e'.state := by
        rw [hkeys, hstates]
        rfl

theorem Client.view_track {c : Client} {id : WireId} (h : c.sendTracker.has id = false) :
    (c.track id).view = { c.view with
      keys := c.view.keys ++ [id], states := Function.update c.view.states id (some .queued) } := by
  have hkeys : (c.sendTracker.set id ⟨.queued, none, none⟩).keys = c.sendTracker.keys ++ [id] :=
    OrderedMap.keys_set_of_not_has _ h
  have hstates : (fun x => ((c.sendTracker.set id ⟨.queued, none, none⟩).get x).map (·.state))
      = Function.update c.view.states id (some .queued) := by
    funext x
    rw [OrderedMap.get_set_eq]
    by_cases hx : x = id
    · rw [if_pos hx, hx, Function.update_self]
      rfl
    · rw [if_neg hx, Function.update_of_ne hx]
      rfl
  calc (c.track id).view
      _ = { c.view with
            keys := (c.sendTracker.set id ⟨.queued, none, none⟩).keys
            states := fun x => ((c.sendTracker.set id ⟨.queued, none, none⟩).get x).map (·.state) } := by
        rw [Client.track, if_neg (by simp [h])]
        rfl
      _ = _ := by
        rw [hkeys, hstates]
        rfl

/-! ### Rules -/

section Rules

variable {T : Terms} (hO : Outline T) {w w' : Mode}

/-- What bookkeeping leaves alone. -/
theorem Terms.Holds.quiet {s s' : Client} {t : List Out} (h : T.Holds w s t) (hcore : s'.core = s.core) :
    T.Holds w s' t := by
  have hrig : s'.core.rig = s.core.rig := by rw [hcore]
  have hview : s'.core.view = s.core.view := by rw [hcore]
  have hview' : s'.view = s.view := hview
  exact ⟨h.sound.congr hrig, hview' ▸ h.owns, hview' ▸ h.kept⟩

theorem evolves_of_core {s s' : Client} (hcore : s'.core = s.core) : Evolves s s' := by
  have hterminal : s'.core.terminalReached = s.core.terminalReached := by rw [hcore]
  have hkey : s'.core.sessionKey = s.core.sessionKey := by rw [hcore]
  exact ⟨fun h => hterminal.trans h, fun key h => Or.inl (hkey.symm.trans h)⟩

theorem keeps_quiet {f : Client → Client} (hf : ∀ s, (f s).core = s.core) :
    T.contract.Keeps (T.Holds w) (modify f) :=
  Spec.modify fun s _ h => ⟨evolves_of_core (hf s), h.quiet (hf s)⟩

include hO

theorem Terms.Holds.change {s s' : Client} {t t' : List Out} (h : T.Holds w s t) (hs : Sound w' s')
    (hc : Change T.okAnswer w.duty s.view t w'.duty s'.view t') : T.Holds w' s' t' :=
  ⟨hs, hc.owns h.owns, hO.change hc s.view_wf h.owns h.kept⟩

theorem spec_step {f : Client → Client} (h : ∀ s t, T.Holds w s t → Evolves s (f s) ∧ Sound w' (f s)
      ∧ Change T.okAnswer w.duty s.view t w'.duty (f s).view t) :
    T.contract.Spec (T.Holds w) (modify f) fun _ => T.Holds w' := by
  refine Spec.modify fun s t hs => ?_
  obtain ⟨hev, hsound, hc⟩ := h s t hs
  exact ⟨hev, hs.change hO hsound hc⟩

/-- A callout that is an action of the model. -/
theorem spec_act {e : Out} {P : Client → List Out → Prop}
    (h : ∀ s t, P s t → T.Holds w s t ∧ Sound w' s
      ∧ Change T.okAnswer w.duty s.view t w'.duty s.view (e :: t)) :
    T.contract.Spec P (call e) fun _ => T.Holds w' := by
  refine Spec.call fun s t hs => ?_
  obtain ⟨hw, hsound, hc⟩ := h s t hs
  refine ⟨hO.act hc s.view_wf hw.owns hw.kept s.view.events, w', hw.change hO hsound hc, ?_⟩
  exact fun _ _ _ _ h' => h'

theorem keeps_call {e : Out} (he : e.isPlain = true) : T.contract.Keeps (T.Holds w) (call e) :=
  spec_act hO fun _ _ h => ⟨h, h.sound, .plain e he⟩

theorem keeps_retryNow : T.contract.Keeps (T.Holds w) retryNow :=
  Keeps.bind (keeps_call hO rfl) fun _ => Keeps.query _

theorem keeps_retryDelay (n : Nat) : T.contract.Keeps (T.Holds w) (retryDelay n) :=
  Keeps.bind (keeps_call hO rfl) fun _ => Keeps.bind (Keeps.query _) fun _ => Keeps.pure _

theorem keeps_cancelLiveRetryTimer : T.contract.Keeps (T.Holds w) cancelLiveRetryTimer := by
  refine Keeps.get fun _ => Keeps.bind (keeps_quiet fun _ => rfl) fun _ => ?_
  exact Keeps.bind (Keeps.onlyIf (keeps_call hO rfl)) fun _ => Keeps.pure _

theorem keeps_armLiveRetryTimer : T.contract.Keeps (T.Holds w) armLiveRetryTimer := by
  refine Keeps.bind (keeps_cancelLiveRetryTimer hO) fun _ => Keeps.get fun _ => Keeps.onlyIf ?_
  refine Keeps.bind (keeps_retryNow hO) fun _ => Keeps.get fun _ => Keeps.onlyIf ?_
  refine Keeps.bind (keeps_quiet fun _ => rfl) fun _ => Keeps.bind (keeps_call hO rfl) fun _ => ?_
  exact Keeps.get fun _ => Keeps.ite (keeps_quiet fun _ => rfl) (keeps_call hO rfl)

theorem keeps_commitResultTime (captured : Client) (resultEpoch : Nat) :
    T.contract.Keeps (T.Holds w) (commitResultTime captured resultEpoch) := by
  refine Keeps.get fun _ => Keeps.ite ?_ (Keeps.pure _)
  refine Keeps.bind (keeps_retryNow hO) fun _ => Keeps.get fun _ => Keeps.ite ?_ (Keeps.pure _)
  exact Keeps.bind (keeps_quiet fun _ => rfl) fun _ => Keeps.get fun _ => Keeps.pure _

omit hO in
theorem keeps_scheduleReconnect : T.contract.Keeps (T.Holds w) scheduleReconnect := by
  refine keeps_quiet fun s => ?_
  split <;> rfl

omit hO in
theorem keeps_socketOpen : T.contract.Keeps (T.Holds w) socketOpen :=
  Keeps.bind (Keeps.query _) fun _ => Keeps.pure _

theorem keeps_subscribe : T.contract.Keeps (T.Holds w) subscribe := by
  refine Keeps.get fun _ => Keeps.ite ?_ (Keeps.pure _)
  refine Keeps.bind (keeps_quiet fun _ => rfl) fun _ => ?_
  exact Keeps.bind (keeps_call hO rfl) fun _ => Keeps.pure _

theorem keeps_unsubscribe (sid : Nat) : T.contract.Keeps (T.Holds w) (unsubscribe sid) :=
  Keeps.get fun _ => Keeps.onlyIf
    (Keeps.bind keeps_socketOpen fun _ => Keeps.onlyIf (keeps_call hO rfl))

/-! ### Send-state tracker -/

/-- An event that was raised reaches the listeners now or in the fan-out that is running. -/
theorem spec_emit (id : WireId) (st : SendState) (f : Option SendFailure) :
    T.contract.Spec (fun s t => T.Holds w (s.raise ⟨id, st, f⟩) t ∧ Evolves s (s.raise ⟨id, st, f⟩))
      (emitSendState id st f) fun _ => T.Holds w := by
  refine Spec.bind (Q := fun _ => T.Holds w) (Spec.modify fun _ _ h => ⟨h.2, h.1⟩) fun _ => ?_
  refine Keeps.get fun _ => Keeps.onlyIf (Keeps.bind (keeps_quiet fun _ => rfl) fun _ => ?_)
  refine Keeps.bind (Keeps.whileTrue (Spec.get fun v => ?_)) fun _ => keeps_quiet fun _ => rfl
  cases hevents : v.pendingSendStateEvents with
  | nil => exact (Keeps.pure ()).pre fun _ _ h => h.2
  | cons event rest =>
    -- the event is neither waiting nor observed between these two steps
    let popped (s : Client) (t : List Out) : Prop :=
      T.Holds w v t ∧ s = { v with pendingSendStateEvents := rest }
    refine Spec.bind (Q := fun _ => popped) (Spec.modify ?_) fun _ => Spec.call ?_
    · rintro s t ⟨rfl, h⟩
      exact ⟨⟨fun h => h, fun _ => Or.inl⟩, h, rfl⟩
    · rintro s t ⟨h, rfl⟩
      have hc : Change T.okAnswer w.duty v.view t w.duty { v.view with events := rest }
          (.sendState event :: t) := .deliver event rest hevents
      refine ⟨hO.act hc v.view_wf h.owns h.kept rest, w, ?_, fun _ _ _ _ h' => h'⟩
      exact h.change hO (h.sound.congr rfl) hc

/-- A state of the tracker is changed and reported. -/
theorem spec_setEntry {v : Client} {id : WireId} {entry entry' : TrackerEntry} {st : SendState}
    {f : Option SendFailure} (hget : v.sendTracker.get id = some entry) (hst : entry'.state = st)
    (hs : Sound w v → Sound w' v) (hc : ∀ t, Change T.okAnswer w.duty v.view t w'.duty
      ((v.view.setState id st).raise ⟨id, st, f⟩) t) :
    T.contract.Spec (fun s t => s = v ∧ T.Holds w s t)
      (do
        modify fun c => c.setEntry id entry'
        emitSendState id st f) fun _ => T.Holds w' := by
  refine Spec.bind (Spec.modify ?_) fun _ => spec_emit hO id st f
  rintro s t ⟨rfl, h⟩
  have hview : ((s.setEntry id entry').raise ⟨id, st, f⟩).view
      = (s.view.setState id st).raise ⟨id, st, f⟩ := by
    rw [← hst, ← Client.view_setEntry hget]
    rfl
  refine ⟨⟨fun h => h, fun _ => Or.inl⟩, h.change hO ((hs h.sound).congr rfl) ?_, ?_⟩
  · rw [hview]
    exact hc t
  · exact ⟨fun h => h, fun _ => Or.inl⟩

theorem keeps_advanceSent (id : WireId) : T.contract.Keeps (T.Holds w) (trackerAdvance id .sent) := by
  refine Spec.get fun v => ?_
  cases hget : v.sendTracker.get id with
  | none => exact (Keeps.pure ()).pre fun _ _ h => h.2
  | some entry =>
    refine Spec.onlyIf (fun hcond => ?_) fun _ _ _ h => h.2
    have hqueued : entry.state = .queued := by
      cases hst : entry.state <;> simp [hst, SendState.rank] at hcond ⊢
    refine spec_setEntry hO hget rfl (fun h => h) fun t => .advance id _ ?_
    rw [Client.states_eq_some hget, hqueued]

/-- The two ways in which a send is failed: by a sweep or an eviction, and by a rejection. -/
theorem spec_trackerFail (id : WireId) (f : SendFailure) (hs : ∀ s, Sound w s → Sound w' s)
    (hfail : ∀ v t st f, v.states id = some st → st ≠ .failed → Change T.okAnswer w.duty v t w'.duty
      ((v.setState id .failed).raise ⟨id, .failed, f⟩) t)
    (hskip : ∀ v t, v.states id = none ∨ v.states id = some .failed →
      Change T.okAnswer w.duty v t w'.duty v t) :
    T.contract.Spec (T.Holds w) (trackerFail id f) fun _ => T.Holds w' := by
  refine Spec.get fun v => ?_
  cases hget : v.sendTracker.get id with
  | none =>
    refine Spec.pure ?_
    rintro s t ⟨rfl, h⟩
    exact h.change hO (hs s h.sound) (hskip _ t (Or.inl (Client.states_eq_none hget)))
  | some entry =>
    have hstates := Client.states_eq_some hget
    refine Spec.onlyIf (fun hcond => ?_) fun hcond => ?_
    · exact spec_setEntry hO hget rfl (hs v) fun t =>
        hfail _ t _ _ hstates (by simpa using hcond)
    · rintro s t ⟨rfl, h⟩
      have hfailed : entry.state = .failed := by simpa using hcond
      exact h.change hO (hs s h.sound) (hskip _ t (Or.inr (hfailed ▸ hstates)))

theorem spec_failSend {ids : List WireId} (reason : FailureReason) (retryable : Bool) (id : WireId)
    (hd : w.duty.failing = id :: ids) :
    T.contract.Spec (T.Holds w) (failSend reason retryable id)
      fun _ => T.Holds { w with duty := { w.duty with failing := ids } } := by
  refine Spec.get fun _ => Spec.pre (spec_trackerFail hO id _ (fun _ h => h.duty rfl rfl) ?_ ?_)
    fun _ _ h => h.2
  · exact fun v t st f hget hst => .fail id ids st f hd hget hst
  · exact fun v t hget => .failSkip id ids hd hget

/-- A sweep settles every id it has detached. -/
theorem spec_each_failSend {rest : List WireId} (reason : FailureReason) (retryable : Bool)
    (ids : List WireId) (hd : w.duty.failing = ids ++ rest) :
    T.contract.Spec (T.Holds w) (each (failSend reason retryable) ids)
      fun _ => T.Holds { w with duty := { w.duty with failing := rest } } := by
  let left (ids : List WireId) : Client → List Out → Prop :=
    T.Holds { w with duty := { w.duty with failing := ids ++ rest } }
  have heach : T.contract.Spec (left ids) (each (failSend reason retryable) ids) fun _ => left [] :=
    Spec.each fun id ids => spec_failSend hO reason retryable id rfl
  refine heach.pre fun s t h => ?_
  unfold left
  rw [← hd]
  exact h

theorem spec_accept {ids taken : List WireId} (id : WireId) (hd : w.duty.accepting = id :: ids)
    (ht : w.duty.taken = id :: taken ∨ w.duty.taken = taken) :
    T.contract.Spec (T.Holds w) (trackerAdvance id .accepted)
      fun _ => T.Holds { w with duty := { w.duty with accepting := ids, taken } } := by
  refine Spec.get fun v => ?_
  cases hget : v.sendTracker.get id with
  | none =>
    refine Spec.pure ?_
    rintro s t ⟨rfl, h⟩
    refine h.change hO (h.sound.duty rfl rfl) (.acceptSkip id ids taken hd ht fun st hst => ?_)
    rw [Client.states_eq_none hget] at hst
    cases hst
  | some entry =>
    have hstates := Client.states_eq_some hget
    refine Spec.onlyIf (fun hcond => ?_) fun hcond => ?_
    · refine spec_setEntry hO hget rfl (fun h => h.duty rfl rfl) fun t => ?_
      refine .accept id ids taken _ _ hd ht hstates ?_
      cases hst : entry.state <;> simp [hst, SendState.rank] at hcond <;> rfl
    · rintro s t ⟨rfl, h⟩
      refine h.change hO (h.sound.duty rfl rfl) (.acceptSkip id ids taken hd ht fun st hst => ?_)
      rw [hstates] at hst
      obtain rfl := Option.some.inj hst
      cases hst : entry.state <;> simp [hst, SendState.rank] at hcond <;> rfl

theorem spec_reject {ids taken : List WireId} (id : WireId) (hd : w.duty.rejecting = id :: ids)
    (ht : w.duty.taken = id :: taken ∨ w.duty.taken = taken) :
    T.contract.Spec (T.Holds w) (failSend .overloaded true id)
      fun _ => T.Holds { w with duty := { w.duty with rejecting := ids, taken } } := by
  refine Spec.get fun _ => Spec.pre (spec_trackerFail hO id _ (fun _ h => h.duty rfl rfl) ?_ ?_)
    fun _ _ h => h.2
  · exact fun v t st f hget hst => .reject id ids taken st f hd ht hget hst
  · exact fun v t hget => .rejectSkip id ids taken hd ht hget

/-! ### Socket -/

theorem spec_resetSession {offline behind bumped : Bool} (ho : offline = true → w.offline = true)
    (hb : w.behind = true ∨ behind = w.behind ∧ offline = w.offline) :
    T.contract.Spec (T.Holds w) resetSession fun _ => T.Holds { w with offline, behind, bumped } := by
  refine Spec.bind (keeps_cancelLiveRetryTimer hO) fun _ => spec_step hO fun s t h => ?_
  refine ⟨⟨fun h => h, fun _ hkey => nomatch hkey⟩, ?_, .reset⟩
  have hs := h.sound
  refine ⟨fun f hf => ⟨(hs.flows f hf).1, fun hlate => (hs.flows f hf).2 ?_⟩, hs.draining, hs.socket,
    fun hoff => hs.offline (ho hoff), fun _ _ => rfl, ?_, hs.resting, hs.busy⟩
  · rcases hb with hb | ⟨rfl, rfl⟩
    · exact Or.inl hb
    · exact hlate
  · exact fun x hx => ⟨(hs.pinned x hx).entry, fun _ _ hkey => nomatch hkey⟩

/-- The session goes with the socket, after a hook that still sees its key. -/
theorem spec_onRawLoss :
    T.contract.Spec (T.Holds { w with offline := true }) onRawLoss fun _ => T.Holds w := by
  let late : Mode := { w with offline := true, behind := true, bumped := true }
  refine Spec.bind (Q := fun _ => T.Holds late) (spec_step hO fun s t h => ?_) fun _ => ?_
  · have hs := h.sound
    refine ⟨⟨fun h => h, fun _ => Or.inl⟩, ?_, .bump (hs.offline rfl)⟩
    have hflows : ∀ f, late.Knows s f → f.epoch < s.connectionEpoch + 1 :=
      fun f hf => Nat.lt_succ_of_le (hs.flows f hf).1
    exact ⟨fun f hf => ⟨(hflows f hf).le, fun _ => hflows f hf⟩, hs.draining, hs.socket, hs.offline, hs.keyed,
      fun x hx => ⟨(hs.pinned x hx).entry, fun hb => nomatch hb⟩, hs.resting, hs.busy⟩
  refine Spec.get fun _ => Spec.bind (Q := fun _ => T.Holds late) ?_
    fun _ => spec_resetSession hO (fun _ => rfl) (Or.inl rfl)
  exact Spec.pre (Keeps.onlyIf (keeps_quiet fun _ => rfl)) fun _ _ h => h.2

theorem spec_notifyRawLoss :
    T.contract.Spec (T.Holds { w with offline := true }) notifyRawLoss fun _ => T.Holds w :=
  Spec.bind (spec_onRawLoss hO) fun _ => Keeps.get fun _ => keeps_call hO rfl

theorem Terms.Holds.drop {s : Client} {t : List Out} {ws : Option Nat} (h : T.Holds w s t) :
    T.Holds { w with offline := true } { s with connected := false, ws } t := by
  have hs := h.sound
  refine h.change hO ⟨fun f hf => ⟨(hs.flows f hf).1, fun hlate => (hs.flows f hf).2 ?_⟩, hs.draining,
    fun hc => (nomatch hc), fun _ => rfl, fun hoff => (nomatch hoff), ?_, hs.resting, hs.busy⟩ .drop
  · exact Or.inl (hlate.resolve_right fun hoff => (nomatch hoff.1))
  · exact fun x hx => ⟨(hs.pinned x hx).entry, (hs.pinned x hx).session⟩

/-- The socket is given up; an epoch that a flow relies on need not be current any more. -/
theorem spec_drop {f : Client → Client} (flow : Option FlowId)
    (hf : ∀ s, ∃ ws, (f s).core = { s with connected := false, ws }.core) :
    T.contract.Spec (T.Holds w) (modify f)
      fun _ => T.Holds { w with duty := { w.duty with flow }, offline := true } := by
  refine Spec.modify fun s t h => ?_
  obtain ⟨ws, hcore⟩ := hf s
  have hdropped : T.Holds { w with offline := true } { s with connected := false, ws } t := h.drop hO
  have hfree := hdropped.change hO (hdropped.sound.duty (d := { w.duty with flow }) rfl rfl)
    (.rejoin flow rfl)
  refine ⟨?_, hfree.quiet hcore⟩
  have hev := evolves_of_core hcore
  exact ⟨hev.1, hev.2⟩

theorem spec_rawDisconnect (flow : Option FlowId) :
    T.contract.Spec (T.Holds w) rawDisconnect
      fun _ => T.Holds { w with duty := { w.duty with flow } } :=
  Spec.bind (spec_drop hO flow fun _ => ⟨none, rfl⟩) fun _ =>
    spec_notifyRawLoss hO (w := { w with duty := { w.duty with flow } })

theorem spec_forceReconnect {P : Client → List Out → Prop}
    (hP : ∀ s t, P s t → T.Holds { w with offline := true } { s with connected := false, ws := none } t) :
    T.contract.Spec P forceReconnect fun _ => T.Holds w := by
  refine Spec.bind (Q := fun _ => T.Holds { w with offline := true }) (Spec.modify fun s t hs => ?_)
    fun _ => ?_
  · exact ⟨⟨fun h => h, fun _ => Or.inl⟩, hP s t hs⟩
  refine Spec.get fun _ => Spec.bind (Q := fun _ => T.Holds w) ?_ fun _ => ?_
  · exact (spec_notifyRawLoss hO).pre fun _ _ h => h.2
  · exact Keeps.get fun _ => Keeps.onlyIf keeps_scheduleReconnect

theorem keeps_forceReconnect : T.contract.Keeps (T.Holds w) forceReconnect :=
  spec_forceReconnect hO fun _ _ h => h.drop hO

theorem keeps_rawReconnect : T.contract.Keeps (T.Holds w) rawReconnect :=
  Keeps.get fun _ => Keeps.onlyIf (keeps_forceReconnect hO)

theorem keeps_connectInternal : T.contract.Keeps (T.Holds w) connectInternal := by
  refine Spec.get fun v => Spec.onlyIf (fun _ => ?_) fun _ _ _ h => h.2
  refine Spec.bind (Q := fun r s t => (s = v ∧ T.Holds w s t) ∧ T.okAnswer s.view (.readyState true) r)
    (Spec.query fun _ _ _ h hok => ⟨h, hok⟩) fun r => ?_
  refine Spec.onlyIf (fun hcond => Spec.modify ?_) fun _ _ _ h => h.1.2
  rintro s t ⟨⟨rfl, h⟩, hok⟩
  have hs := h.sound
  refine ⟨⟨fun h => h, fun _ => Or.inl⟩, h.change hO ?_ (.dial fun hconn => ⟨r, hok, ?_⟩)⟩
  · exact ⟨hs.flows, hs.draining, fun _ => rfl, hs.offline, hs.keyed,
      fun x hx => ⟨(hs.pinned x hx).entry, (hs.pinned x hx).session⟩, hs.resting, hs.busy⟩
  · have hws : s.ws.isSome = true := hs.socket hconn
    constructor
    · rintro rfl
      simp [hws] at hcond
    · rintro rfl
      simp [hws] at hcond

end Rules

end Webchannel.Session
