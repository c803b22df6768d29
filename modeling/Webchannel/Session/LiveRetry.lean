import Webchannel.Session.Pending
import Webchannel.Session.Retrying

/-!
# The browser client: unacknowledged work has a live retry

Sweeps, the connection flow, the public methods and the events keep the schedule, so that it holds
of every run in which a dial never takes the place of a connection's socket.
-/

namespace Webchannel.Session

open Webchannel.Reentrant Contract Webchannel.Runs

/-- Whenever nothing is on the stack, a suspended flow of the current epoch has its connection. -/
theorem joined_of_idle {options : Options} {c : Config Client Ask Answer Out}
    (hc : Reached (Config.step machine) (Config.start (Client.init options)) c) (hidle : c.Idle) : c.state.Joined := by
  have hrun : ReachedBy (Config.step machine) noTerms.contract.Ok (Config.start (Client.init options)) c :=
    hc.mono fun c mv _ => by cases mv <;> trivial
  have hsound : Sound {} c.state := (inv_of_idle (honours outline_noTerms) (holds_init trivial) hrun hidle).sound
  intro flow hflow hepoch
  have hlate := (hsound.flows flow.flow (.inr (List.mem_map_of_mem hflow))).2
  cases hconnected : c.state.connected with
  | false =>
    have hlt := hlate (.inr ⟨rfl, hconnected⟩)
    omega
  | true => exact ⟨rfl, hsound.socket hconnected⟩

end Webchannel.Session

namespace Webchannel.Session.Retry

open Webchannel.Reentrant Prog Contract Webchannel.Runs

variable {o : Options} {p : Place} {c c' : Client} {w : Watch}

/-! ### Sweeps -/

theorem Steady.sweep (h : Steady o c w) : Steady o c.sweep w :=
  (h.ledger (m := .empty) (fun _ _ hget => nomatch hget) (Nat.zero_le _)).rest rfl

theorem leads_takePendingSendIds {P : Client × Watch → Prop} {Q : Client × Watch → Prop}
    (h : ∀ c w, P (c, w) → Q (c.sweep.cancelled, w.cancelled c.sweep)) : Leads o P takePendingSendIds fun _ => Q := by
  refine Meets.get fun c => Meets.bind (Q := fun _ x => ∃ c w, P (c, w) ∧ x = (c.sweep, w)) (Meets.modify ?_) fun _ => ?_
  · exact fun c w hx => ⟨trivial, c, w, hx.2, rfl⟩
  refine Meets.bind (Q := fun _ => Q) (leads_cancelLiveRetryTimer ?_) fun _ => Meets.pure fun _ hx => hx
  rintro s u ⟨c, w, hx, heq⟩
  obtain ⟨rfl, rfl⟩ := Prod.mk.inj heq
  exact h c u hx

theorem holds_failPendingIds (ids : List WireId) (reason : FailureReason) :
    Holds o (Kept o p) (failPendingIds ids reason) :=
  Preserves.each fun id => holds_failSend reason false id

/-- A client that is retired owes nothing. -/
theorem leads_markTerminalAndSweep (cause : ErrorCause) :
    Leads o (fun x => Steady o x.1 x.2 ∧ x.2.calls = p.calls) (markTerminalAndSweep cause)
      fun _ => Kept o ⟨p.calls, none⟩ := by
  let retired (x : Client × Watch) : Prop := (Steady o x.1 x.2 ∧ x.2.calls = p.calls) ∧ x.1.terminalReached = true
  refine Meets.bind (Q := fun _ => retired) (Meets.modify fun c w h => ⟨trivial, ⟨h.1.rest rfl, h.2⟩, rfl⟩) fun _ => ?_
  refine Meets.bind (Q := fun _ => Kept o ⟨p.calls, none⟩) (leads_takePendingSendIds ?_)
    fun ids => holds_failPendingIds ids (.terminal cause)
  rintro c w ⟨⟨hsteady, hcalls⟩, hreached⟩
  have hreached' : c.sweep.cancelled.terminalReached = true := hreached
  have hdead : c.sweep.cancelled.live = false := by simp [Client.live, hreached']
  obtain ⟨-, hcalls', -, -⟩ := watch_cancelled c.sweep w
  exact ⟨⟨hsteady.sweep.cancelled, ⟨fun _ => .inl hreached', fun _ => hreached'⟩, .inl hreached'⟩, hcalls'.trans hcalls,
    .inl (armed_of_dead hdead)⟩

theorem leads_handleTerminal (cause : ErrorCause) :
    Leads o (fun x => Steady o x.1 x.2 ∧ x.2.calls = p.calls) (handleTerminal cause) fun _ => Kept o ⟨p.calls, none⟩ :=
  Meets.bind (leads_markTerminalAndSweep cause) fun _ => holds_call rfl (fun _ _ => rfl) fun _ => trivial

/-- A disconnect begins a new interval, which it also does for the stall. -/
theorem leads_disconnect (hp : p.Calm) :
    Leads o (fun x => Steady o x.1 x.2 ∧ Linked x.1 ∧ Unspent x.2.log ∧ x.2.calls = p.calls) disconnect
      fun _ => Kept o p := by
  let parting (x : Client × Watch) : Prop := Steady o x.1 x.2 ∧ (x.1.terminal = true → x.1.terminalReached = true) ∧
    Unspent x.2.log ∧ x.2.calls = p.calls
  refine Meets.bind (Q := fun _ => parting) (Meets.modify fun c w h => ⟨trivial, h.1.rest rfl, h.2.1.terminal, h.2.2⟩) fun _ => ?_
  refine Meets.bind (Q := fun _ => Torn o p) (leads_takePendingSendIds ?_) fun ids => ?_
  · rintro c w ⟨hsteady, hterminal, hunspent, hcalls⟩
    obtain ⟨-, hcalls', -, hlog⟩ := watch_cancelled c.sweep w
    refine ⟨hsteady.sweep.cancelled, hterminal, .inr (.inr ⟨?_, fun _ hsince => nomatch hsince⟩), hcalls'.trans hcalls,
      fun hretry => ?_⟩
    · show Unspent (w.cancelled c.sweep).log
      rw [hlog]
      exact hunspent
    · cases hretry.symm.trans (inRetry_of_calm hp (hcalls'.trans hcalls))
  refine Meets.get fun c => Meets.bind (Q := fun _ => Torn o p)
    ((Preserves.onSome fun sid => holds_unsubscribe sid).pre fun _ hx => hx.2) fun _ => ?_
  refine Meets.bind (holds_modify overlooks_torn fun _ => rfl) fun _ => ?_
  refine Meets.bind (Q := fun _ => Torn o p) (leads_resetSession fun c w h => h.reset) fun _ => ?_
  exact Meets.bind leads_rawDisconnect fun _ => holds_failPendingIds ids .closed

/-! ### Connection flow -/

theorem holds_suspend (flow : FlowId) (await : Await) : Holds o (Kept o p) (suspend flow await) :=
  holds_modify overlooks_kept fun _ => rfl

theorem holds_startAttempt (flow : FlowId) (attempt : Nat) : Holds o (Kept o p) (startAttempt flow attempt) :=
  Preserves.ite (Preserves.bind (holds_request overlooks_kept flow .challenge) fun _ => holds_suspend flow _)
    (holds_suspend flow _)

theorem holds_onChallenge (flow : FlowId) (attempt : Nat) (reply : ChallengeReply) :
    Holds o (Kept o p) (onChallenge flow attempt reply) := by
  cases reply with
  | rejected => exact holds_startAttempt flow _
  | unavailable => exact holds_startAttempt flow _
  | refused => exact holds_suspend flow _
  | noNonce => exact holds_startAttempt flow _
  | nonce => exact holds_suspend flow _

theorem holds_onSignature (flow : FlowId) (attempt : Nat) (signed : Bool) :
    Holds o (Kept o p) (onSignature flow attempt signed) :=
  Preserves.ite (Preserves.bind (holds_request overlooks_kept flow .register) fun _ => holds_suspend flow _)
    (holds_suspend flow _)

theorem holds_onRegisterReply (flow : FlowId) (attempt : Nat) (reply : RegisterReply) :
    Holds o (Kept o p) (onRegisterReply flow attempt reply) := by
  cases reply with
  | rejected => exact holds_startAttempt flow _
  | error code capacityExceeded =>
    refine Preserves.ite (holds_startAttempt flow _) (Preserves.ite (holds_suspend flow _) ?_)
    exact Preserves.ite (holds_suspend flow _) (Preserves.ite (holds_suspend flow _) (holds_suspend flow _))
  | malformedVersion => exact holds_suspend flow _
  | ok result => exact holds_suspend flow _

/-- The session that was there is gone when the flow begins. -/
theorem leads_onConnected : Leads o (Torn o p) onConnected fun _ => Kept o p := by
  refine Meets.get fun c => Meets.ite (fun _ => leads_rawDisconnect.pre fun x hx => hx.2) fun _ => ?_
  refine Meets.bind (Q := fun _ => Torn o p) (Meets.modify fun c w h =>
    ⟨trivial, h.2.steady.rest rfl, h.2.terminal, h.2.counted, h.2.calls, h.2.earned⟩) fun _ => ?_
  refine Meets.bind (Preserves.onSome fun sid => holds_unsubscribe sid) fun _ => ?_
  refine Meets.bind (holds_subscribe overlooks_torn) fun sid => ?_
  refine Meets.bind (holds_modify overlooks_torn fun _ => rfl) fun _ => ?_
  refine Meets.bind (Q := fun _ => Kept o p) (leads_resetSession fun c w h => h.reset.kept rfl) fun _ => ?_
  exact Preserves.get fun _ => Preserves.onlyIf (holds_startAttempt _ 0)

theorem holds_record {e : Out} {P : Client × Watch → Prop} (hacted : ∀ c w, Watch.acted c e w = w)
    (hpunctual : ∀ x, Punctual x e) : Holds o P (record e) := by
  refine Meets.record fun c w hx => ⟨trivial, fun _ => hpunctual _, ?_⟩
  show P (c, Watch.acted c e w)
  rw [hacted]
  exact hx

/-- The epoch that is retired is no longer compared by anyone. -/
theorem Kept.retire (h : Kept o ⟨p.calls, none⟩ (c, w)) (epoch : Nat) :
    Kept o ⟨p.calls, none⟩ ({ c with connectionEpoch := epoch }, w) :=
  ⟨⟨h.sound.steady.rest rfl, ⟨h.sound.linked.session, h.sound.linked.terminal⟩, h.sound.counted⟩, h.calls, .inl h.covered⟩

theorem leads_failConnectionEpoch (hp : p.Calm) (flow : FlowId) (cause : ErrorCause) :
    Holds o (Kept o p) (failConnectionEpoch flow cause) := by
  have hp' : Place.Calm ⟨p.calls, none⟩ := hp
  refine Preserves.get fun _ => Preserves.onlyIf ?_
  refine Meets.bind (holds_record (fun _ _ => rfl) fun _ => trivial) fun _ => ?_
  refine Meets.bind ((leads_markTerminalAndSweep (p := p) cause).pre fun x h => ⟨h.sound.steady, h.calls⟩) fun _ => ?_
  refine Meets.bind (Q := fun _ => Kept o ⟨p.calls, none⟩) (Meets.modify fun c w h => ⟨trivial, h.retire _⟩) fun _ => ?_
  refine Meets.post (Q := fun _ => Kept o ⟨p.calls, none⟩) (Preserves.get fun _ => ?_) fun _ _ h => h.settle
  refine Preserves.bind (holds_call rfl (fun _ _ => rfl) fun _ => trivial) fun _ => Preserves.get fun _ => Preserves.onlyIf ?_
  refine Preserves.bind (holds_record (fun _ _ => rfl) fun _ => trivial) fun _ => ?_
  exact leads_rawDisconnect.pre fun x h => h.ready.torn_of_calm hp'

theorem holds_notifyProtocolListeners (flow : FlowId) : Holds o (Kept o p) (notifyProtocolListeners flow) := by
  refine Preserves.loop fun _ => Preserves.bind (holds_query fun _ _ _ h => h) fun more => Preserves.ite ?_ (Preserves.pure _)
  exact Preserves.bind (holds_call rfl (fun _ _ => rfl) fun _ => trivial) fun _ => Preserves.pure _

theorem holds_notifySessionListeners (flow : FlowId) : Holds o (Kept o p) (notifySessionListeners flow) := by
  refine Preserves.bind (holds_query fun _ _ _ h => h) fun listeners => Preserves.each fun _ => ?_
  exact Preserves.get fun _ => Preserves.onlyIf (holds_call rfl (fun _ _ => rfl) fun _ => trivial)

theorem holds_rawReconnect (hp : p.Calm) : Holds o (Kept o p) rawReconnect :=
  leads_rawReconnect.pre fun _ h => ⟨h.ready.torn_of_calm hp, fun _ => h⟩

theorem holds_onRegistered (hp : p.Calm) (flow : FlowId) (result : Except RegisterError RegisterResult) :
    Holds o (Kept o p) (onRegistered flow result) := by
  refine Preserves.get fun _ => Preserves.onlyIf ?_
  cases result with
  | error err =>
    cases err with
    | transient => exact Preserves.bind (holds_record (fun _ _ => rfl) fun _ => trivial) fun _ => holds_rawReconnect hp
    | _ => exact leads_failConnectionEpoch hp flow _
  | ok result =>
    refine Preserves.ite (leads_failConnectionEpoch hp flow _) (Preserves.bind (holds_notifyProtocolListeners flow) fun _ => ?_)
    refine Preserves.get fun _ => Preserves.onlyIf (Preserves.ite (leads_failConnectionEpoch hp flow _) ?_)
    exact Preserves.ite (leads_failConnectionEpoch hp flow _) (holds_suspend flow _)

/-- The session that begins owes its ledger a flush, which only a listener that ends it takes away. -/
theorem leads_onUnwrapped (hp : p.Calm) (flow : FlowId) (unwrapped : Bool) :
    Leads o (fun x => Kept o p x ∧ (flow.epoch = x.1.connectionEpoch → x.1.connected = true ∧ x.1.ws.isSome = true))
      (onUnwrapped flow unwrapped) fun _ => Kept o p := by
  refine Meets.get fun s => Meets.onlyIf (fun hmatches => ?_) fun _ x hx => hx.2.1
  refine Meets.ite (fun _ => (leads_failConnectionEpoch hp flow _).pre fun x hx => hx.2.1) fun _ => Meets.each_state ?_
  rintro ⟨c, w⟩ ⟨hs, hkept, hjoined⟩
  obtain rfl : c = s := hs
  let keyed : Client := { c with sessionKey := some flow }
  have hkeyed : keyed.sessionFlowMatches flow = true := by
    show (c.connectionFlowMatches flow && some flow == some flow) = true
    rw [hmatches]
    simp
  simp only [Client.connectionFlowMatches, Bool.and_eq_true, beq_iff_eq, Bool.not_eq_true'] at hmatches
  obtain ⟨hconnected, hws⟩ := hjoined hmatches.1.1.1.symm
  refine Meets.bind (Q := fun _ => Kept o ⟨p.calls, some keyed⟩) (Meets.modify ?_) fun _ => ?_
  · rintro s g heq
    obtain ⟨rfl, rfl⟩ := Prod.mk.inj heq
    refine ⟨trivial, ⟨⟨hkept.sound.steady.rest rfl, ⟨fun _ => .inr ⟨hconnected, hws, hmatches.1.2⟩, ?_⟩, hkept.sound.counted⟩,
      hkept.calls, .inr ⟨_, rfl, rfl⟩⟩⟩
    exact hkept.sound.linked.terminal
  refine Meets.bind holds_drainPendingInbound fun _ => Meets.get fun v => Meets.onlyIf (fun _ => ?_) ?_
  · refine Meets.bind ((leads_flushQueue hp).pre fun x hx => ⟨hx.2.sound, hx.2.calls⟩) fun _ => ?_
    exact Preserves.get fun _ => Preserves.onlyIf (holds_notifySessionListeners flow)
  · rintro hmoved x ⟨rfl, h⟩
    refine ⟨h.sound, h.calls, .inl (h.armed.resolve_right ?_)⟩
    rintro ⟨v, hv, hagenda⟩
    obtain rfl := Option.some.inj hv
    have hsame : x.1.sessionFlowMatches flow = keyed.sessionFlowMatches flow :=
      eq_of_agenda (fun v => v.sessionFlowMatches flow) (fun _ => rfl) hagenda
    cases hmoved.symm.trans (hsame.trans hkeyed)

/-! ### Public methods -/

theorem holds_drawWireId (attempts : Nat) : Holds o (Kept o p) (drawWireId attempts) := by
  induction attempts with
  | zero => exact Preserves.pure _
  | succ attempts ih =>
    refine Preserves.bind (holds_query fun _ _ _ h => h) fun id => Preserves.get fun _ => Preserves.ite ?_ ih
    exact Preserves.bind (holds_modify overlooks_kept fun _ => rfl) fun _ => Preserves.pure _

theorem holds_consumeReservedId (id : WireId) : Holds o (Kept o p) (consumeReservedId id) := by
  refine Preserves.get fun _ => Preserves.ite ?_ (Preserves.pure _)
  exact Preserves.bind (holds_modify overlooks_kept fun _ => rfl) fun _ => Preserves.pure _

theorem agenda_track (c : Client) (id : WireId) : (c.track id).agenda = c.agenda := by
  unfold Client.track
  split <;> rfl

theorem holds_sendReserved (hp : p.Calm) (text : String) (id : WireId) : Holds o (Kept o p) (sendReserved text id) := by
  refine Preserves.bind (holds_modify overlooks_kept fun c => agenda_track c id) fun _ => Preserves.get fun c => ?_
  refine Preserves.ite (Preserves.bind (holds_emitSendState id _ _) fun _ => holds_failSend _ false id) ?_
  refine Preserves.ite (Preserves.bind (holds_emitSendState id _ _) fun _ => holds_failSend _ false id) ?_
  refine Preserves.bind (holds_modify overlooks_kept fun _ => rfl) fun _ => ?_
  exact Preserves.bind (holds_emitSendState id _ _) fun _ => holds_drainOutboundQueue hp

theorem holds_sendUserMessage (hp : p.Calm) (text : String) (reservedId : Option WireId) :
    Holds o (Kept o p) (sendUserMessage text reservedId) := by
  refine Preserves.bind ?_ ?_
  · cases reservedId with
    | none => exact holds_drawWireId 8
    | some id => exact Preserves.pure _
  · rintro (_ | id)
    · exact Preserves.pure _
    · refine Preserves.bind (holds_consumeReservedId id) fun consumed => Preserves.ite ?_ (Preserves.pure _)
      exact Preserves.bind (holds_sendReserved hp text id) fun _ => Preserves.pure _

/-- A client that is reopened has no session yet. -/
theorem holds_connect : Holds o (Kept o p) connect := by
  refine Meets.get fun c => Meets.onlyIf (fun hopen => ?_) fun _ x hx => hx.2
  refine Meets.bind (Q := fun _ => Kept o p) (Meets.modify ?_) fun _ => holds_connectInternal
  rintro s w ⟨rfl, h⟩
  have hreached : s.terminalReached = false := by simpa using hopen
  refine ⟨trivial, ?_⟩
  cases hdisconnected : s.disconnected with
  | false =>
    have hsame : { s with disconnected := false } = s := by rw [← hdisconnected]
    rw [hsame]
    exact h
  | true =>
    have hkey : s.sessionKey.isSome = false := by
      cases hsome : s.sessionKey.isSome with
      | false => rfl
      | true =>
        rcases h.sound.linked.session hsome with hterminal | ⟨-, -, hclosed⟩
        · cases hterminal.symm.trans hreached
        · cases hclosed.symm.trans hdisconnected
    have hnone : s.sessionKey = none := by simpa using hkey
    refine ⟨⟨h.sound.steady.rest rfl, ⟨fun hsome => ?_, h.sound.linked.terminal⟩, h.sound.counted⟩, h.calls,
      .inl (armed_of_no_session hnone)⟩
    cases hsome.symm.trans hkey

theorem holds_requestApplicationRecovery (hp : p.Calm) : Holds o (Kept o p) requestApplicationRecovery := by
  refine leads_requestApplicationRecovery.pre fun x h => ⟨h.ready, fun hretry => ?_, fun _ => h⟩
  cases hretry.symm.trans (inRetry_of_calm hp h.calls)

/-! ### Events -/

theorem holds_call_state (hp : p.Calm) (connected : Bool) : Holds o (Kept o p) (call (.state connected)) := by
  refine Meets.call rfl fun c w t h => ⟨trivial, trivial, p, ?_, fun x' t' hx' => hx'⟩
  show Kept o p (c, if w.inRetry && !w.refused then w.mark .recovery else w)
  rw [inRetry_of_calm hp h.calls]
  exact h

theorem holds_onPong (hp : p.Calm) : Holds o (Kept o p) onPong := by
  refine Preserves.get fun _ => Preserves.get fun _ => Preserves.onlyIf ?_
  refine Meets.bind (Q := fun _ => Torn o p) (Meets.modify fun c w h => ⟨trivial, ?_⟩) fun _ => ?_
  · have htorn := h.ready.torn_of_calm hp
    exact ⟨htorn.steady.rest rfl, htorn.terminal, htorn.counted, htorn.calls, htorn.earned⟩
  · exact Meets.bind leads_onConnected fun _ => Preserves.get fun _ => Preserves.onlyIf (holds_call_state hp _)

theorem holds_onSocketClosed (hp : p.Calm) : Holds o (Kept o p) onSocketClosed := by
  refine Meets.bind (Q := fun _ => Torn o p) (Meets.modify fun c w h => ⟨trivial, ?_⟩) fun _ => ?_
  · have htorn := h.ready.torn_of_calm hp
    exact ⟨htorn.steady.rest rfl, htorn.terminal, htorn.counted, htorn.calls, htorn.earned⟩
  · exact Meets.bind (holds_scheduleReconnect overlooks_torn) fun _ => leads_notifyRawLoss

theorem holds_forceReconnect (hp : p.Calm) : Holds o (Kept o p) forceReconnect :=
  leads_forceReconnect.pre fun _ h => h.ready.torn_of_calm hp

theorem holds_stateListener (hp : p.Calm) (connected : Bool) : Holds o (Kept o p) (stateListener connected) := by
  refine Preserves.ite (leads_onConnected.pre fun x h => h.ready.torn_of_calm hp) ?_
  exact (leads_onRawLoss.pre fun x h => h.ready.torn_of_calm hp).post fun _ x h => h.1.kept h.2

theorem holds_failTerminally (hp : p.Calm) (cause : ErrorCause) : Holds o (Kept o p) (failTerminally cause) := by
  refine Preserves.get fun _ => Preserves.onlyIf ?_
  refine Meets.bind (Q := fun _ x => Steady o x.1 x.2 ∧ x.2.calls = p.calls)
    (Meets.modify fun c w h => ⟨trivial, h.sound.steady.rest rfl, h.calls⟩) fun _ => ?_
  refine Meets.bind (Q := fun _ => Kept o p) ((leads_handleTerminal cause).post fun _ _ h => h.settle) fun _ => ?_
  refine Preserves.get fun _ => Preserves.bind (holds_stateListener hp _) fun _ => ?_
  exact Preserves.get fun _ => holds_call_state hp _

theorem holds_onReconnectTimer : Holds o (Kept o p) onReconnectTimer :=
  Preserves.bind (holds_modify overlooks_kept fun _ => rfl) fun _ => holds_connectInternal

/-! ### The machine -/

/-- The place of an entry that is called there. -/
def Place.call (p : Place) (e : Entry) : Place := { p with calls := e :: p.calls }

def isRetry : Entry → Bool
  | .retryTimer _ => true
  | _ => false

theorem Place.call_calm {e : Entry} (h : isRetry e = false) : (p.call e).Calm := by
  intro generation rest heq
  rw [(List.cons.inj heq).1] at h
  cases h

/-- An entry is observed when it begins and when it ends. -/
theorem safe_of_leads {e : Entry} {t : List Out} {P : Client × Watch → Prop} (henter : P (c, w.entered e))
    (hbody : Leads o P e.body fun _ => Kept o (p.call e)) :
    (contract o).Safe (watchedMachine.body e) (fun _ => (contract o).inv p) (c, w) t := by
  have hspec : (contract o).Spec (fun x _ => x = (c, w)) (watchedMachine.body e) fun _ x _ => Kept o p x := by
    refine Spec.bind (Q := fun _ x _ => P x) (Spec.modify ?_) fun _ => Spec.bind hbody fun _ => Spec.modify ?_
    · rintro x - rfl
      exact ⟨trivial, henter⟩
    · rintro ⟨c, w⟩ - h
      have hcalls : w.calls = e :: p.calls := h.calls
      refine ⟨trivial, h.sound.watch (w := w) rfl rfl, ?_, h.armed.imp_left fun harmed => harmed.watch (w := w) rfl⟩
      show w.calls.tail = p.calls
      rw [hcalls]
      rfl
  exact hspec (c, w) t rfl

theorem Kept.entered (h : Kept o p (c, w)) (e : Entry) (refused : Bool) :
    Kept o (p.call e) (c, { w with calls := e :: w.calls, refused }) :=
  ⟨h.sound.watch (w := w) rfl rfl, congrArg (e :: ·) h.calls, h.armed.imp_left fun harmed => harmed.watch (w := w) rfl⟩

/-- Only the retry timer's callback and an explicit disconnect are observed as more than a call. -/
theorem honours : Honours watchedMachine (contract o) := by
  rintro e top p ⟨c, w⟩ t hadmits hok htop h
  have hkept : Kept o p (c, w) := h
  have hplain (henter : w.entered e = { w with calls := e :: w.calls, refused := w.refused })
      (hbody : Holds o (Kept o (p.call e)) e.body) :
      (contract o).Safe (watchedMachine.body e) (fun _ => (contract o).inv p) (c, w) t := by
    refine safe_of_leads (P := Kept o (p.call e)) ?_ hbody
    rw [henter]
    exact hkept.entered e w.refused
  have hjoined (hnot : e.isPublic = false) : c.Joined := by
    rcases hok with ⟨-, hjoined⟩ | hpublic
    · exact hjoined
    · cases hnot.symm.trans hpublic
  have hcalm (hnot : isRetry e = false) : (p.call e).Calm := Place.call_calm hnot
  cases e with
  | reserveWireId => exact hplain rfl (Preserves.bind (holds_drawWireId 8) fun _ => Preserves.pure ())
  | sendUserMessage text id =>
    exact hplain rfl (Preserves.bind (holds_sendUserMessage (hcalm rfl) text id) fun _ => Preserves.pure ())
  | sendApprovalDecision id decision => exact hplain rfl (holds_enqueue (hcalm rfl) _)
  | loadHistory before limit => exact hplain rfl (holds_enqueue (hcalm rfl) _)
  | loadCommands => exact hplain rfl (holds_enqueue (hcalm rfl) _)
  | connect => exact hplain rfl holds_connect
  | disconnect =>
    refine safe_of_leads ?_ (leads_disconnect (hcalm rfl))
    have hsound := hkept.sound
    have hmarked : Steady o c (w.mark .disconnected) := hsound.steady.marked (hsound.steady.recoveries.cons fun heq => by cases heq)
    exact ⟨Steady.watch (w := w.mark .disconnected) rfl rfl hmarked, hsound.linked, .inl (.inr rfl), congrArg (Entry.disconnect :: ·) hkept.calls⟩
  | requestApplicationRecovery =>
    exact hplain rfl (Preserves.bind (holds_requestApplicationRecovery (hcalm rfl)) fun _ => Preserves.pure ())
  | message payload => exact hplain rfl (holds_handleRaw payload)
  | pong => exact hplain rfl (holds_onPong (hcalm rfl))
  | socketClosed => exact hplain rfl (holds_onSocketClosed (hcalm rfl))
  | dropSocket => exact hplain rfl (holds_forceReconnect (hcalm rfl))
  | authFailure cause => exact hplain rfl (holds_failTerminally (hcalm rfl) cause)
  | reconnectTimer => exact hplain rfl holds_onReconnectTimer
  | retryTimer generation =>
    have hbase : p = .idle := by
      rcases hok with ⟨htop', -⟩ | hpublic
      · exact htop htop'
      · cases hpublic
    subst hbase
    exact safe_of_leads (hkept.entered (.retryTimer generation) false) (leads_onRetryTimer (p := Place.idle.call _) generation)
  | challenged flow attempt written reply =>
    exact hplain rfl (Preserves.bind (holds_modify overlooks_kept fun _ => rfl) fun _ => holds_onChallenge flow attempt reply)
  | signed flow attempt ok =>
    exact hplain rfl (Preserves.bind (holds_modify overlooks_kept fun _ => rfl) fun _ => holds_onSignature flow attempt ok)
  | replied flow attempt written reply =>
    exact hplain rfl (Preserves.bind (holds_modify overlooks_kept fun _ => rfl) fun _ => holds_onRegisterReply flow attempt reply)
  | registered flow result =>
    exact hplain rfl (Preserves.bind (holds_modify overlooks_kept fun _ => rfl) fun _ =>
      holds_onRegistered (hcalm rfl) flow result)
  | unwrapped flow ok =>
    simp only [watchedMachine, Machine.watch, machine, Entry.admits, Bool.and_eq_true] at hadmits
    have hconnection := hjoined rfl _ (List.contains_iff_mem.mp hadmits.2)
    refine safe_of_leads (P := fun x => Kept o (p.call (.unwrapped flow ok)) x ∧ x.1.Joined ∧ ⟨flow, .unwrap⟩ ∈ x.1.flows)
      ⟨hkept.entered _ w.refused, hjoined rfl, List.contains_iff_mem.mp hadmits.2⟩ ?_
    refine Meets.bind (Meets.modify ?_) fun _ => leads_onUnwrapped (hcalm rfl) flow ok
    rintro s g ⟨hcalled, hjoins, hmem⟩
    exact ⟨trivial, overlooks_kept s _ g rfl hcalled, hjoins _ hmem⟩

/-! ### Runs -/

/-- The steps of a run in which every dial keeps the socket of a connection meet the contract. -/
theorem ok_of_reachedBy {options : Options} {clock : Int} {c : WatchedConfig}
    (hc : ReachedBy (Config.step watchedMachine) (fun c mv => Permitted c mv ∧ KeepsSocket c mv) (watchedStart options clock) c) :
    ReachedBy (Config.step watchedMachine) (contract options).Ok (watchedStart options clock) c := by
  induction hc with
  | start => exact .start
  | @step c c' mv hreached hok hstep ih =>
    refine .step ih ?_ hstep
    cases mv with
    | tick => trivial
    | resume => trivial
    | answer q a =>
      cases q with
      | now => exact hok.1
      | readyState dialing =>
        cases dialing with
        | false => trivial
        | true => exact hok.2
      | _ => trivial
    | enter e =>
      rcases hok.1 with hempty | hpublic
      · refine .inl ⟨hempty, ?_⟩
        have hidle : c.Idle := by
          refine ⟨?_, hempty⟩
          cases hrunning : c.running with
          | none => rfl
          | some p => simp [Config.step, Config.enter, hrunning] at hstep
        obtain ⟨d, hd, herased⟩ := Config.Erased.of_reachedBy hreached
        rw [herased.state]
        exact joined_of_idle hd (herased.idle_iff.mp hidle)
      · exact .inr hpublic

theorem kept_init (options : Options) (clock : Int) : Kept options .idle (Client.init options, Watch.start clock) := by
  have htimers : Timers (Client.init options) (Watch.start clock) :=
    ⟨.inl ⟨rfl, rfl⟩, fun _ hmem => (nomatch hmem), fun _ hmem => (nomatch hmem), List.nodup_nil⟩
  have hsteady : Steady options (Client.init options) (Watch.start clock) :=
    ⟨rfl, htimers, fun _ _ hget => (nomatch hget), Nat.zero_le _, trivial⟩
  exact ⟨⟨hsteady, ⟨fun h => (nomatch h), fun h => (nomatch h)⟩, .inr (.inr ⟨trivial, fun _ h => (nomatch h)⟩)⟩, rfl,
    .inl (armed_of_no_session rfl)⟩

end Webchannel.Session.Retry

namespace Webchannel.Session

open Webchannel.Reentrant Contract Webchannel.Runs

/-- While every dial keeps the socket of a connection: whenever nothing is on the stack, published work
of a live session has its one retry timer; a retry publishes only what is in the ledger and due; and
every recovery for a stall is the only one of its interval, after the whole timeout. -/
theorem published_work_retried {options : Options} {clock : Int} {c : WatchedConfig}
    (hc : ReachedBy (Config.step watchedMachine) (fun c mv => Permitted c mv ∧ KeepsSocket c mv) (watchedStart options clock) c) :
    (c.Idle → c.state.1.sessionKey.isSome = true → c.state.1.live = true →
      c.state.1.hasPublishedUnackedOwnership = true → LiveRetry c.state.1 c.state.2) ∧
    (∀ text id key epoch, c.Acts (.wire (.pub (.userMessage text id) key epoch)) → c.state.2.inRetry = true →
      DueRetry c.state.1 c.state.2 text id) ∧
    (c.running = none → Recoveries options.ackStallTimeoutMs c.state.2.log) := by
  have hrun := Retry.ok_of_reachedBy hc
  have hstart := Retry.kept_init options clock
  refine ⟨fun hidle => ?_, fun text id key epoch hacts => ?_, fun hcontrol => ?_⟩
  · have hkept : Retry.Kept options .idle c.state := inv_of_idle Retry.honours hstart hrun hidle
    exact hkept.covered
  · exact atAct_of_acts Retry.honours hstart hrun hacts
  · obtain ⟨p, hkept⟩ := inv_of_control Retry.honours hstart hrun hcontrol
    have hsound : Retry.Sound options c.state := Retry.Kept.sound hkept
    exact hsound.steady.recoveries

/-! ### Scripts -/

instance (c : WatchedConfig) : (mv : Move Ask Answer Entry) → Decidable (Permitted c mv)
  | .answer .now now => Int.decLe c.state.2.clock now
  | .answer .inboxToken _ | .answer .random _ | .answer (.readyState _) _ | .answer .sendThrows _
  | .answer (.openMessage _) _ | .answer .sessionListeners _ | .answer (.protocolListener _) _
  | .tick | .resume => isTrue trivial
  | .enter e => inferInstanceAs (Decidable (c.stack.isEmpty = true ∨ e.isPublic = true))

instance (c : WatchedConfig) : (mv : Move Ask Answer Entry) → Decidable (KeepsSocket c mv)
  | .answer (.readyState true) readyState =>
    (fun r : ReadyState => (inferInstance : Decidable (c.state.1.connected = true → r = .open ∨ r = .connecting))) readyState
  | .answer (.readyState false) _ | .answer .now _ | .answer .inboxToken _ | .answer .random _ | .answer .sendThrows _
  | .answer (.openMessage _) _ | .answer .sessionListeners _ | .answer (.protocolListener _) _
  | .tick | .resume | .enter _ => isTrue trivial

namespace Script

/-- The handshake of a flow, up to its key. -/
def handshake (flow : FlowId) : Script :=
  [.enter (.challenged flow 0 true .nonce), .enter (.signed flow 0 true), .enter (.replied flow 0 true (.ok acceptedReply)),
    .enter (.registered flow (.ok acceptedReply)), ask (.protocolListener flow) false]

/-- A session is established, and a message is published in it. -/
def published : Script :=
  [.enter .connect, ask (.readyState true) ReadyState.closed, .enter .pong, .resume] ++ handshake ⟨1, 1⟩ ++
    [.enter (.unwrapped ⟨1, 1⟩ true), ask .sessionListeners (0 : Nat), .enter (.sendUserMessage "hi" none),
      ask .inboxToken "a", .resume, ask .random (0 : Rat), ask .now (0 : Int), ask (.readyState false) ReadyState.open,
      ask .sendThrows false, ask .now (0 : Int), .resume, ask .now (0 : Int)]

/-- The next connection is closing when a frame that came early is delivered, and its listener calls `connect`. -/
def redialed : Script :=
  published ++ [.enter .socketClosed, .resume, .enter .reconnectTimer, ask (.readyState true) ReadyState.closed,
    .enter .pong, ask (.readyState false) ReadyState.open, .resume] ++ handshake ⟨3, 2⟩ ++
    [.enter (.message "p"), .enter (.unwrapped ⟨3, 2⟩ true), ask (.openMessage "p") (some InboundMessage.other),
      .enter .connect, ask (.readyState true) ReadyState.closing, .resume]

end Script

theorem exists_reachedBy_of_watchedPlay {ok : WatchedConfig → Move Ask Answer Entry → Prop} [∀ c mv, Decidable (ok c mv)]
    {fuel : Nat} {c : WatchedConfig} {script : Script} {p : WatchedConfig → Bool}
    (hplay : (Config.play watchedMachine fuel (fun c mv => decide (ok c mv)) c script).map p = some true)
    (htick : ∀ c, ok c .tick) : ∃ c', ReachedBy (Config.step watchedMachine) ok c c' ∧ p c' = true :=
  Config.exists_reachedBy_of_play htick (fun _ _ h => of_decide_eq_true h) hplay

/-- The message that was published waits for its acknowledgement under a timer. -/
theorem published_work_retried_once : ∃ c : WatchedConfig,
    ReachedBy (Config.step watchedMachine) (fun c mv => Permitted c mv ∧ KeepsSocket c mv) (watchedStart ⟨30000, true⟩ 0) c ∧
      c.Idle ∧ c.state.1.hasPublishedUnackedOwnership = true ∧ LiveRetry c.state.1 c.state.2 := by
  have hplay : (Config.play watchedMachine 200 (fun c mv => decide (Permitted c mv ∧ KeepsSocket c mv))
      (watchedStart ⟨30000, true⟩ 0) Script.published).map (fun c => decide (c.Idle ∧ c.state.1.sessionKey.isSome = true ∧
        c.state.1.live = true ∧ c.state.1.hasPublishedUnackedOwnership = true)) = some true := by decide +kernel
  obtain ⟨c, hc, hp⟩ := exists_reachedBy_of_watchedPlay hplay fun _ => ⟨trivial, trivial⟩
  obtain ⟨hidle, hkey, hlive, hpublished⟩ := of_decide_eq_true hp
  exact ⟨c, hc, hidle, hpublished, (published_work_retried hc).1 hidle hkey hlive hpublished⟩

/-- A listener that redials while the socket is closing leaves published work without a timer. -/
theorem published_work_abandoned : ∃ c : WatchedConfig,
    ReachedBy (Config.step watchedMachine) Permitted (watchedStart ⟨30000, true⟩ 0) c ∧ c.Idle ∧
      c.state.1.sessionKey.isSome = true ∧ c.state.1.live = true ∧ c.state.1.hasPublishedUnackedOwnership = true ∧
      ¬ LiveRetry c.state.1 c.state.2 := by
  have hplay : (Config.play watchedMachine 200 (fun c mv => decide (Permitted c mv)) (watchedStart ⟨30000, true⟩ 0)
      Script.redialed).map (fun c => decide (c.Idle ∧ c.state.1.sessionKey.isSome = true ∧ c.state.1.live = true ∧
        c.state.1.hasPublishedUnackedOwnership = true ∧ armedTimers c.state.1 c.state.2 = [])) = some true := by decide +kernel
  obtain ⟨c, hc, hp⟩ := exists_reachedBy_of_watchedPlay hplay fun _ => trivial
  obtain ⟨hidle, hkey, hlive, hpublished, hnone⟩ := of_decide_eq_true hp
  refine ⟨c, hc, hidle, hkey, hlive, hpublished, ?_⟩
  rintro ⟨timer, earliest, harmed, -⟩
  rw [hnone] at harmed
  cases harmed

end Webchannel.Session
