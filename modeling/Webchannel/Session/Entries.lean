import Webchannel.Session.Refinement

/-!
# The browser client: every entry keeps the contract

Sweeps, the connection flow, the public methods and the events. An entry that may publish runs
over a replayed ledger, which is what its admission says; a continuation that issues a request
runs for a flow that is current.
-/

namespace Webchannel.Session

open Webchannel.Reentrant Prog Contract Webchannel.Runs

section Rules

variable {T : Terms} (hO : Outline T) {w : Mode}
include hO

/-! ### Sweeps -/

/-- What a sweep takes is owed; the gate may have been shut just before. -/
theorem spec_takePendingSendIds {P : Client → List Out → Prop}
    (hP : ∀ s t, P s t → (s.queuedIds ++ s.ledgerIds).Nodup
      ∧ T.Holds (w.owing (s.queuedIds ++ s.ledgerIds)) s.sweep t) :
    T.contract.Spec P takePendingSendIds fun ids => T.Holds (w.owing ids) := by
  refine Spec.get fun v => ?_
  let ids := (OrderedSet.ofList (v.queuedIds ++ v.ledgerIds)).keys
  refine Spec.bind (Q := fun _ => T.Holds (w.owing ids)) (Spec.modify ?_) fun _ => ?_
  · rintro s t ⟨rfl, h⟩
    obtain ⟨hnodup, hswept⟩ := hP s t h
    refine ⟨⟨fun h => h, fun _ => Or.inl⟩, ?_⟩
    rw [show ids = s.queuedIds ++ s.ledgerIds from OrderedSet.keys_ofList_of_nodup hnodup]
    exact hswept
  · exact Spec.bind (keeps_cancelLiveRetryTimer hO) fun _ => Spec.pure fun _ _ h => h

theorem keeps_markTerminalAndSweep (cause : ErrorCause) :
    T.contract.Keeps (T.Holds w) (markTerminalAndSweep cause) := by
  let shut (s : Client) (t : List Out) : Prop := ∃ s₀, T.Holds w s₀ t
    ∧ s = { s₀ with terminalReached := true, terminalCause := cause }
  refine Spec.bind (Q := fun _ => shut) (Spec.modify fun s t h => ?_) fun _ => ?_
  · exact ⟨⟨fun _ => rfl, fun _ => Or.inl⟩, s, h, rfl⟩
  refine Spec.bind (spec_takePendingSendIds hO ?_) fun ids => spec_each_failSend hO _ _ ids rfl
  rintro s t ⟨s₀, h, rfl⟩
  refine ⟨h.owns.queue_ledger_nodup, h.change hO ?_ .terminate⟩
  have hs := h.sound
  exact ⟨hs.flows, hs.draining, hs.socket, hs.offline, hs.keyed,
    fun x hx => ⟨fun e hget => (nomatch hget), (hs.pinned x hx).session⟩, hs.resting, hs.busy⟩

theorem keeps_handleTerminal (cause : ErrorCause) :
    T.contract.Keeps (T.Holds w) (handleTerminal cause) :=
  Keeps.bind (keeps_markTerminalAndSweep hO cause) fun _ => keeps_call hO rfl

/-- The gate is shut and the epoch moves on while the session key is still there. -/
theorem keeps_disconnect : T.contract.Keeps (T.Holds w) disconnect := by
  let parted : Mode := { w with duty := { w.duty with flow := none } }
  let parting : Mode := { parted with behind := true, bumped := true }
  let shut (s : Client) (t : List Out) : Prop := ∃ s₀, T.Holds w s₀ t
    ∧ s = { s₀ with connectionEpoch := s₀.connectionEpoch + 1, disconnected := true }
  refine Spec.bind (Q := fun _ => shut) (Spec.modify fun s t h => ?_) fun _ => ?_
  · exact ⟨⟨fun h => h, fun _ => Or.inl⟩, s, h, rfl⟩
  refine Spec.bind (Q := fun ids => T.Holds (parting.owing ids)) (spec_takePendingSendIds hO ?_) fun ids => ?_
  · rintro s t ⟨s₀, h, rfl⟩
    refine ⟨h.owns.queue_ledger_nodup, h.change hO ?_ .part⟩
    have hs := h.sound
    have hflows : ∀ f, parting.Knows s₀ f → f.epoch < s₀.connectionEpoch + 1 :=
      fun f hf => Nat.lt_succ_of_le (hs.flows f hf).1
    exact ⟨fun f hf => ⟨(hflows f hf).le, fun _ => hflows f hf⟩, hs.draining, hs.socket, hs.offline,
      hs.keyed, fun x hx => ⟨fun e hget => (nomatch hget), fun hb => (nomatch hb)⟩, hs.resting, hs.busy⟩
  refine Spec.bind Keeps.read fun v => Spec.bind (Keeps.onSome fun _ => keeps_unsubscribe hO _) fun _ => ?_
  refine Spec.bind (keeps_quiet fun _ => rfl) fun _ => ?_
  refine Spec.bind (Q := fun _ => T.Holds (parted.owing ids)) (spec_resetSession hO (fun h => h) (Or.inl rfl))
    fun _ => ?_
  refine Spec.bind (Q := fun _ => T.Holds (w.owing ids)) (spec_rawDisconnect hO w.duty.flow) fun _ => ?_
  exact spec_each_failSend hO .closed false ids rfl

/-! ### Connection flow -/

omit hO in
/-- A flow that runs may be suspended. -/
theorem keeps_suspend {flow : FlowId} (await : Await) (hflow : w.flow = some flow) :
    T.contract.Keeps (T.Holds w) (suspend flow await) := by
  refine Spec.modify fun s t h => ⟨⟨fun h => h, fun _ => Or.inl⟩, ?_, h.owns, h.kept⟩
  have hs := h.sound
  refine ⟨fun f hf => hs.flows f ?_, hs.draining, hs.socket, hs.offline, hs.keyed,
    fun x hx => ⟨(hs.pinned x hx).entry, (hs.pinned x hx).session⟩, hs.resting, hs.busy⟩
  rcases hf with hf | hf
  · exact Or.inl hf
  · rw [List.map_append, List.mem_append] at hf
    rcases hf with hf | hf
    · exact Or.inr hf
    · rw [List.mem_singleton.mp hf]
      exact Or.inl hflow

section Requests

variable {flow : FlowId} (hflow : w.flow = some flow)
include hflow

theorem keeps_startAttempt {attempt : Nat} (hduty : attempt ≤ registerRetries → w.duty.flow = some flow) :
    T.contract.Keeps (T.Holds w) (startAttempt flow attempt) := by
  refine Spec.ite (fun hattempt => ?_) fun _ => keeps_suspend _ hflow
  exact Keeps.bind (keeps_request hO _ (hduty hattempt)) fun _ => keeps_suspend _ hflow

theorem keeps_onChallenge {attempt : Nat} {reply : ChallengeReply}
    (hduty : reply.retries = true ∧ attempt < registerRetries → w.duty.flow = some flow) :
    T.contract.Keeps (T.Holds w) (onChallenge flow attempt reply) := by
  cases reply with
  | rejected => exact keeps_startAttempt hO hflow fun hlt => hduty ⟨rfl, hlt⟩
  | unavailable => exact keeps_startAttempt hO hflow fun hlt => hduty ⟨rfl, hlt⟩
  | refused => exact keeps_suspend _ hflow
  | noNonce => exact keeps_startAttempt hO hflow fun hlt => hduty ⟨rfl, hlt⟩
  | nonce => exact keeps_suspend _ hflow

theorem keeps_onSignature {attempt : Nat} {signed : Bool} (hduty : signed = true → w.duty.flow = some flow) :
    T.contract.Keeps (T.Holds w) (onSignature flow attempt signed) := by
  refine Spec.ite (fun hsigned => ?_) fun _ => keeps_suspend _ hflow
  exact Keeps.bind (keeps_request hO _ (hduty hsigned)) fun _ => keeps_suspend _ hflow

theorem keeps_onRegisterReply {attempt : Nat} {reply : RegisterReply}
    (hduty : reply.retries = true ∧ attempt < registerRetries → w.duty.flow = some flow) :
    T.contract.Keeps (T.Holds w) (onRegisterReply flow attempt reply) := by
  have hwait : ∀ await, T.contract.Keeps (T.Holds w) (suspend flow await) :=
    fun await => keeps_suspend await hflow
  cases reply with
  | rejected => exact keeps_startAttempt hO hflow fun hlt => hduty ⟨rfl, hlt⟩
  | error code capacityExceeded =>
    refine Spec.ite (fun hcode => ?_) fun _ => Keeps.ite (hwait _) ?_
    · exact keeps_startAttempt hO hflow fun hlt => hduty ⟨beq_iff_eq.mpr hcode, hlt⟩
    · exact Keeps.ite (hwait _) (Keeps.ite (hwait _) (hwait _))
  | malformedVersion => exact hwait _
  | ok result => exact hwait _

end Requests

/-- A flow has come to an end or is suspended. -/
theorem Terms.Holds.unpin {s : Client} {t : List Out} {flow flow' : Option FlowId}
    (h : T.Holds { duty := { flow := flow' }, flow } s t) : T.Holds {} s t := by
  have hs := h.sound
  refine h.change hO ⟨fun f hf => hs.flows f (hf.imp_left fun hf => (nomatch hf)), hs.draining, hs.socket,
    hs.offline, hs.keyed, hs.pinned, hs.resting, hs.busy⟩ .unpin

/-- A new flow starts when there is no key. -/
theorem spec_onConnected :
    T.contract.Spec (fun s t => T.Holds {} s t ∧ s.sessionKey = none ∧ s.connected = true) onConnected
      fun _ => T.Holds {} := by
  refine Spec.get fun v => Spec.ite (fun _ => ?_) fun _ => ?_
  · exact Spec.pre (P := T.Holds {}) (spec_rawDisconnect hO none) fun _ _ h => h.2.1
  let flow : FlowId := ⟨v.connectionEpoch + 1, v.connectionGeneration⟩
  let started : Mode := { duty := { flow := some flow }, flow := some flow }
  refine Spec.bind (Q := fun _ => T.Holds started) (Spec.modify ?_) fun _ => ?_
  · rintro s t ⟨rfl, h, hkey, hconn⟩
    have hs := h.sound
    refine ⟨⟨fun h => h, fun _ => Or.inl⟩, h.change hO ⟨fun f hf => ?_, hs.draining, hs.socket, hs.offline,
      hs.keyed, fun x hx => (nomatch hx), hs.resting, hs.busy⟩ (.begin hkey)⟩
    refine ⟨?_, fun hlate => ?_⟩
    · rcases hf with hf | hf
      · rw [← Option.some.inj hf]
      · exact Nat.le_succ_of_le (hs.flows f (Or.inr hf)).1
    · rcases hlate with hlate | ⟨-, hlate⟩
      · cases hlate
      · cases hconn.symm.trans hlate
  refine Spec.bind (Keeps.onSome fun _ => keeps_unsubscribe hO _) fun _ => ?_
  refine Spec.bind (keeps_subscribe hO) fun _ => Spec.bind (keeps_quiet fun _ => rfl) fun _ => ?_
  refine Spec.bind (Q := fun _ => T.Holds started) (spec_resetSession hO (fun h => h)
    (Or.inr ⟨rfl, rfl⟩)) fun _ => ?_
  refine Spec.post (Keeps.get fun _ => Keeps.onlyIf (keeps_startAttempt hO rfl fun _ => rfl)) ?_
  exact fun _ s t h => h.unpin hO

theorem spec_note {P : Client → List Out → Prop} {e : Out} (hP : ∀ s t, P s t → T.Holds w s t
      ∧ Change T.okAnswer w.duty s.view t w.duty s.view (e :: t)) :
    T.contract.Spec P (record e) fun _ => T.Holds w := by
  refine Spec.record fun s t h => ?_
  obtain ⟨hw, hc⟩ := hP s t h
  exact ⟨hO.act hc s.view_wf hw.owns hw.kept s.view.events, hw.change hO hw.sound hc⟩

section Continuations

variable (flow : FlowId)

theorem spec_failConnectionEpoch (cause : ErrorCause) :
    T.contract.Spec (fun s t => T.Holds { flow := some flow } s t ∧ s.connectionFlowMatches flow = true)
      (failConnectionEpoch flow cause) fun _ => T.Holds { flow := some flow } := by
  refine Spec.get fun _ => Spec.onlyIf (fun _ => ?_) fun _ _ _ h => h.2.1
  refine Spec.bind (spec_note hO fun s t h => ⟨h.2.1, .failFlow flow h.2.2⟩) fun _ => ?_
  refine Spec.bind (keeps_markTerminalAndSweep hO cause) fun _ => ?_
  refine Spec.bind (Q := fun _ => T.Holds { flow := some flow }) (Spec.modify fun s t h => ?_)
    fun _ => Keeps.get fun _ => ?_
  · have hs := h.sound
    refine ⟨⟨fun h => h, fun _ => Or.inl⟩, h.change hO ⟨fun f hf => ?_, hs.draining, hs.socket, hs.offline,
      hs.keyed, fun x hx => (nomatch hx), hs.resting, hs.busy⟩ .retire⟩
    have hlt : f.epoch < s.connectionEpoch + 1 := Nat.lt_succ_of_le (hs.flows f hf).1
    exact ⟨hlt.le, fun _ => hlt⟩
  refine Keeps.bind (keeps_call hO rfl) fun _ => Spec.get fun v => ?_
  refine Spec.onlyIf (fun hv => ?_) fun _ _ _ h => h.2
  have hgeneration : v.connectionGeneration = flow.generation := by
    simpa using (Bool.and_eq_true_iff.mp hv).2
  refine Spec.bind (spec_note (w := { flow := some flow }) hO ?_) fun _ => spec_rawDisconnect hO none
  rintro s t ⟨rfl, h⟩
  exact ⟨h, .disconnectFlow flow hgeneration⟩

theorem keeps_notifyProtocolListeners :
    T.contract.Keeps (T.Holds w) (notifyProtocolListeners flow) := by
  refine Keeps.loop fun _ => ?_
  refine Spec.bind (Q := fun more s t => T.Holds w s t ∧ T.okAnswer s.view (.protocolListener flow) more)
    (Spec.query fun _ _ _ h hok => ⟨h, hok⟩) fun more => ?_
  cases more with
  | false => exact Spec.pure fun _ _ h => h.1
  | true =>
    refine Spec.bind (spec_act hO fun s t h => ⟨h.1, h.1.sound, .protocol flow h.2⟩) fun _ => ?_
    exact Keeps.pure _

theorem keeps_notifySessionListeners :
    T.contract.Keeps (T.Holds w) (notifySessionListeners flow) := by
  refine Keeps.bind (Keeps.query _) fun _ => Keeps.each fun _ => Spec.get fun v => ?_
  refine Spec.onlyIf (fun hv => spec_act (w := w) hO ?_) fun _ _ _ h => h.2
  rintro s t ⟨rfl, h⟩
  exact ⟨h, h.sound, .session flow hv⟩

theorem keeps_onRegistered (result : Except RegisterError RegisterResult) :
    T.contract.Keeps (T.Holds { flow := some flow }) (onRegistered flow result) := by
  refine Spec.get fun v => Spec.onlyIf (fun hv => ?_) fun _ _ _ h => h.2
  have hfail : ∀ u : Client, u.connectionFlowMatches flow = true → ∀ cause,
      T.contract.Spec (fun s t => s = u ∧ T.Holds { flow := some flow } s t)
        (failConnectionEpoch flow cause) fun _ => T.Holds { flow := some flow } := by
    intro u hu cause
    refine (spec_failConnectionEpoch hO flow cause).pre ?_
    rintro s t ⟨rfl, h⟩
    exact ⟨h, hu⟩
  cases result with
  | error err =>
    cases err with
    | transient =>
      refine Spec.bind (spec_note (w := { flow := some flow }) hO ?_) fun _ => keeps_rawReconnect hO
      rintro s t ⟨rfl, h⟩
      exact ⟨h, .redial flow hv⟩
    | _ => exact hfail v hv _
  | ok result =>
    refine Spec.ite (fun _ => hfail v hv _) fun _ => ?_
    refine Spec.bind ((keeps_notifyProtocolListeners hO flow).pre fun _ _ h => h.2) fun _ => ?_
    refine Spec.get fun u => Spec.onlyIf (fun hu => ?_) fun _ _ _ h => h.2
    refine Spec.ite (fun _ => hfail u hu _) fun _ => Spec.ite (fun _ => hfail u hu _) fun _ => ?_
    exact Spec.pre (keeps_suspend _ rfl) fun _ _ h => h.2

/-- A flow that is current has not lost its connection. -/
theorem keeps_onUnwrapped (unwrapped : Bool) :
    T.contract.Keeps (T.Holds { flow := some flow }) (onUnwrapped flow unwrapped) := by
  refine Spec.get fun v => Spec.onlyIf (fun hv => ?_) fun _ _ _ h => h.2
  refine Spec.ite (fun _ => ?_) fun _ => ?_
  · refine (spec_failConnectionEpoch hO flow _).pre ?_
    rintro s t ⟨rfl, h⟩
    exact ⟨h, hv⟩
  refine Spec.bind (Q := fun _ => T.Holds { flow := some flow }) (Spec.modify ?_) fun _ => ?_
  · rintro s t ⟨rfl, h⟩
    have hs := h.sound
    have hepoch : s.connectionEpoch = flow.epoch := by
      simp only [Client.connectionFlowMatches, Bool.and_eq_true, beq_iff_eq] at hv
      exact hv.1.1.1
    refine ⟨⟨fun h => h, fun key hkey => Or.inr ?_⟩, h.change hO ⟨hs.flows, hs.draining, hs.socket,
      hs.offline, fun _ hconn => ?_, fun x hx => (nomatch hx), hs.resting, hs.busy⟩ (.establish flow hv)⟩
    · rw [← Option.some.inj hkey]
      exact hv
    · have hlt := (hs.flows flow (Or.inl rfl)).2 (Or.inr ⟨rfl, hconn⟩)
      omega
  refine Keeps.bind (keeps_drainPendingInbound hO) fun _ => Keeps.get fun _ => Keeps.onlyIf ?_
  refine Keeps.bind (keeps_flushQueue hO fun h => (nomatch h)) fun _ => Keeps.get fun _ => ?_
  exact Keeps.onlyIf (keeps_notifySessionListeners hO flow)

end Continuations

/-! ### Public methods -/

theorem keeps_drawWireId (attempts : Nat) : T.contract.Keeps (T.Holds w) (drawWireId attempts) := by
  induction attempts with
  | zero => exact Keeps.pure _
  | succ attempts ih =>
    refine Spec.bind (Q := fun id s t => T.Holds w s t ∧ T.okAnswer s.view .inboxToken id)
      (Spec.query fun _ _ _ h hok => ⟨h, hok⟩) fun id => Spec.get fun v => ?_
    refine Spec.ite (fun _ => ?_) fun _ => ih.pre fun _ _ h => h.2.1
    refine Spec.bind (Q := fun _ => T.Holds w) (Spec.modify fun s t h => ?_) fun _ => Keeps.pure _
    exact ⟨⟨fun h => h, fun _ => Or.inl⟩, h.2.1.change hO (h.2.1.sound.congr rfl) (.reserve id h.2.2)⟩

/-- The id of a message that is about to be tracked. -/
def Entering (T : Terms) (w : Mode) (id : WireId) (s : Client) (t : List Out) : Prop :=
  ∃ s₀, T.Holds w s₀ t ∧ id ∈ s₀.reservedWireIds ∧ s₀.sendTracker.has id = false
    ∧ s = { s₀ with reservedWireIds := s₀.reservedWireIds.filter (· ≠ id) }

omit hO in
theorem spec_consumeReservedId (id : WireId) :
    T.contract.Spec (T.Holds w) (consumeReservedId id) fun r s t =>
      (r = true → Entering T w id s t) ∧ (r = false → T.Holds w s t) := by
  refine Spec.get fun v => Spec.ite (fun hv => ?_) fun _ => Spec.pure fun _ _ h => ⟨by simp, fun _ => h.2⟩
  simp only [Client.idInUse, Bool.and_eq_true, Bool.not_eq_true', Bool.or_eq_false_iff] at hv
  refine Spec.bind (Q := fun _ => Entering T w id) (Spec.modify ?_) fun _ =>
    Spec.pure fun _ _ h => ⟨fun _ => h, by simp⟩
  rintro s t ⟨rfl, h⟩
  exact ⟨⟨fun h => h, fun _ => Or.inl⟩, s, h, by simpa using hv.1, hv.2.1.1, rfl⟩

/-- A fresh id is queued before any listener hears of it, or settled by the same call. -/
theorem spec_sendReserved (hclean : w.duty.clean = true) (text : String) (id : WireId) :
    T.contract.Spec (Entering T w id) (sendReserved text id) fun _ => T.Holds w := by
  let event : SendStateEvent := ⟨id, .queued, none⟩
  let tracked (s : Client) (t : List Out) : Prop := ∃ s₀, T.Holds w s₀ t ∧ id ∈ s₀.view.reserved
    ∧ s₀.view.states id = none ∧ s.live = s₀.view.live ∧ s.rig = s₀.rig
    ∧ s.view = { s₀.view with
        reserved := s₀.view.reserved.filter (· ≠ id), keys := s₀.view.keys ++ [id]
        states := Function.update s₀.view.states id (some .queued) }
  refine Spec.bind (Q := fun _ => tracked) (Spec.modify ?_) fun _ => Spec.get fun v => ?_
  · rintro s t ⟨s₀, h, hres, hfree, rfl⟩
    have hview := Client.view_track
      (c := { s₀ with reservedWireIds := s₀.reservedWireIds.filter (· ≠ id) }) hfree
    refine ⟨?_, s₀, h, hres, Client.states_eq_none (OrderedMap.has_eq_false_iff.mp hfree), ?_, ?_, hview⟩
    all_goals rw [Client.track, if_neg (by simp [hfree])]
    · exact ⟨fun h => h, fun _ => Or.inl⟩
    · rfl
    · rfl
  have hdead : ∀ reason, v.live = false → T.contract.Spec (fun s t => s = v ∧ tracked s t)
      (do
        emitSendState id .queued none
        failSend reason false id) fun _ => T.Holds w := by
    intro reason hlive
    refine Spec.bind (Q := fun _ => T.Holds (w.owing [id])) (Spec.pre (spec_emit hO id .queued none) ?_)
      fun _ => spec_failSend hO reason false id rfl
    rintro s t ⟨rfl, s₀, h, hres, hfree, hlive', hrig, hview⟩
    have hentered : (s.raise event).view = s₀.view.enter id := by
      show { s.view with events := s.view.events ++ [event] } = _
      rw [hview]
      rfl
    have hchange : Change T.okAnswer w.duty s₀.view t (w.owing [id]).duty (s.raise event).view t := by
      rw [hentered]
      exact .enterDead id hres hfree (hlive'.symm.trans hlive)
    have hsound : Sound (w.owing [id]) s := (h.sound.congr hrig).duty rfl rfl
    exact ⟨h.change hO (hsound.congr rfl) hchange, ⟨fun h => h, fun _ => Or.inl⟩⟩
  refine Spec.ite (fun hv => hdead _ (by simp [Client.live, hv])) fun hterminal =>
    Spec.ite (fun hv => hdead _ (by simp [Client.live, hv])) fun hopen => ?_
  refine Spec.bind (Q := fun _ s t => T.Holds w (s.raise event) t ∧ Evolves s (s.raise event))
    (Spec.modify ?_) fun _ => Spec.bind (spec_emit hO id .queued none) fun _ =>
      keeps_drainOutboundQueue hO hclean
  rintro s t ⟨rfl, s₀, h, hres, hfree, hlive, hrig, hview⟩
  have hqueue : (s.push (.userMessage text id)).queuedIds = s.view.queue ++ [id] := by
    simp [Client.push, Client.queuedIds, Client.view, OutboundMessage.userId]
  have hentered : ((s.push (.userMessage text id)).raise event).view
      = { s₀.view.enter id with queue := s₀.view.queue ++ [id] } := by
    show { s.view with queue := (s.push (.userMessage text id)).queuedIds
                       events := s.view.events ++ [event] } = _
    rw [hqueue, hview]
    rfl
  have hchange : Change T.okAnswer w.duty s₀.view t w.duty
      ((s.push (.userMessage text id)).raise event).view t := by
    rw [hentered]
    exact .enterLive id hres hfree (hlive.symm.trans (by simp [Client.live, hterminal, hopen]))
  exact ⟨⟨fun h => h, fun _ => Or.inl⟩, h.change hO ((h.sound.congr hrig).congr rfl) hchange,
    ⟨fun h => h, fun _ => Or.inl⟩⟩

theorem keeps_sendUserMessage (hclean : w.duty.clean = true) (text : String)
    (reservedId : Option WireId) :
    T.contract.Keeps (T.Holds w) (sendUserMessage text reservedId) := by
  refine Keeps.bind ?_ ?_
  · cases reservedId with
    | none => exact keeps_drawWireId hO 8
    | some id => exact Keeps.pure _
  · rintro (_ | id)
    · exact Keeps.pure _
    · refine Spec.bind (spec_consumeReservedId id) fun r => Spec.ite (fun hr => ?_) fun hr =>
        Spec.pure fun _ _ h => h.2 (by simpa using hr)
      refine Spec.bind ((spec_sendReserved hO hclean text id).pre fun _ _ h => h.1 hr) fun _ => ?_
      exact Keeps.pure _

theorem keeps_connect : T.contract.Keeps (T.Holds w) connect := by
  refine Spec.get fun v => Spec.onlyIf (fun hv => ?_) fun _ _ _ h => h.2
  refine Spec.bind (Q := fun _ => T.Holds w) (Spec.modify ?_) fun _ => keeps_connectInternal hO
  rintro s t ⟨rfl, h⟩
  have hterminal : s.terminalReached = false := by simpa using hv
  exact ⟨⟨fun h => h, fun _ => Or.inl⟩, h.change hO (h.sound.congr rfl) (.reopen hterminal)⟩

/-! ### Events -/

theorem spec_onPong :
    T.contract.Spec (fun s t => T.Holds {} s t ∧ s.ws.isSome = true) onPong fun _ => T.Holds {} := by
  refine Spec.get fun _ => Spec.get fun v => Spec.onlyIf (fun hv => ?_) fun _ _ _ h => h.2.2.1
  refine Spec.bind (Q := fun _ s t => T.Holds {} s t ∧ s.sessionKey = none ∧ s.connected = true)
    (Spec.modify ?_) fun _ => ?_
  · rintro s t ⟨rfl, -, h, hws⟩
    have hs := h.sound
    have hkey : s.sessionKey = none := hs.keyed rfl (by simpa using hv)
    refine ⟨⟨fun h => h, fun _ => Or.inl⟩, h.change hO ⟨fun f hf => ⟨(hs.flows f hf).1, fun hlate => ?_⟩,
      hs.draining, fun _ => hws, fun hoff => (nomatch hoff), fun _ hconn => (nomatch hconn),
      fun x hx => (nomatch hx), hs.resting, hs.busy⟩ (.pong hkey), hkey, rfl⟩
    rcases hlate with hlate | ⟨-, hlate⟩
    · cases hlate
    · cases hlate
  · exact Spec.bind (spec_onConnected hO) fun _ => Keeps.get fun _ => Keeps.onlyIf (keeps_call hO rfl)

theorem keeps_onSocketClosed : T.contract.Keeps (T.Holds w) onSocketClosed := by
  refine Spec.bind (Q := fun _ => T.Holds { w with offline := true }) ?_ fun _ => ?_
  · exact spec_drop hO w.duty.flow fun s => ⟨s.ws, rfl⟩
  · exact Spec.bind keeps_scheduleReconnect fun _ => spec_notifyRawLoss hO

theorem keeps_failTerminally (cause : ErrorCause) :
    T.contract.Keeps (T.Holds w) (failTerminally cause) := by
  refine Keeps.get fun _ => Keeps.onlyIf ?_
  refine Spec.bind (Q := fun _ => T.Holds { w with offline := true }) ?_ fun _ => ?_
  · exact spec_drop hO w.duty.flow fun _ => ⟨none, rfl⟩
  refine Spec.bind (keeps_handleTerminal hO cause) fun _ => Spec.get fun v => ?_
  refine Spec.bind (Q := fun _ => T.Holds w) ?_ fun _ => Keeps.get fun _ => keeps_call hO rfl
  unfold stateListener
  refine Spec.ite (fun hv => Spec.vacuous ?_) fun _ => (spec_onRawLoss hO).pre fun _ _ h => h.2
  rintro s t ⟨rfl, h⟩
  cases (h.sound.offline rfl).symm.trans hv

theorem keeps_onReconnectTimer : T.contract.Keeps (T.Holds w) onReconnectTimer :=
  Keeps.bind (keeps_quiet fun _ => rfl) fun _ => keeps_connectInternal hO

theorem keeps_onRetryTimer (hclean : w.duty.clean = true) (generation : Nat) :
    T.contract.Keeps (T.Holds w) (onRetryTimer generation) := by
  refine Keeps.bind (keeps_quiet fun _ => rfl) fun _ => Keeps.get fun _ => Keeps.onlyIf ?_
  exact Keeps.bind (keeps_quiet fun _ => rfl) fun _ => keeps_retryDueUnacked hO hclean

/-! ### The machine -/

/-- An entry that may publish finds a replayed ledger. -/
theorem spec_sends {e : Entry} {p : Code Unit} (he : e.sends = true)
    (hp : ∀ w : Mode, w.duty.clean = true → T.contract.Keeps (T.Holds w) p) :
    T.contract.Spec (fun s t => T.Holds w s t ∧ T.okEnter s t e) p fun _ => T.Holds w := by
  rintro s t ⟨h, hok⟩
  let replayed : Mode := { w with duty := { w.duty with clean := true } }
  have hreplayed : T.Holds replayed s t := by
    refine ⟨h.sound.clean fun _ => rfl, ⟨h.owns.owned, h.owns.retired⟩, ?_⟩
    cases hd : s.drainingOutboundQueue with
    | false => exact hO.sends hok he hd h.kept
    | true =>
      have hclean := h.sound.busy (h.sound.draining.symm.trans hd)
      have hsame : replayed.duty = w.duty := by
        show { w.duty with clean := true } = w.duty
        rw [← hclean]
      exact hsame ▸ h.kept
  refine (hp replayed rfl s t hreplayed).mono fun _ s' t' h' => ?_
  exact Terms.Holds.unclean hO h' h.sound.busy

/-- A continuation runs for the flow it belongs to. -/
theorem spec_continueFlow {flow : FlowId} {await : Await} {k : Code Unit} {d : Duty}
    (hk : T.contract.Keeps (T.Holds { duty := d, flow := some flow }) k) (hd : d = {} ∨ d = { flow := some flow })
    {P : Client → List Out → Prop} (hP : ∀ s t, P s t → T.Holds {} s t
      ∧ s.flows.contains ⟨flow, await⟩ = true ∧ T.inv d s.view t) :
    T.contract.Spec P (continueFlow ⟨flow, await⟩ k) fun _ => T.Holds {} := by
  refine Spec.bind (Q := fun _ => T.Holds { duty := d, flow := some flow }) (Spec.modify fun s t h => ?_)
    fun _ => hk.post fun _ s t h => ?_
  · obtain ⟨hw, hmem, hinv⟩ := hP s t h
    have hs := hw.sound
    have hknown : flow ∈ s.flows.map Flow.flow :=
      List.mem_map.mpr ⟨_, List.contains_iff_mem.mp hmem, rfl⟩
    refine ⟨⟨fun h => h, fun _ => Or.inl⟩, ⟨fun f hf => ?_, hs.draining, hs.socket, hs.offline, hs.keyed,
      fun x hx => (nomatch hx), ?_, fun h => (nomatch h)⟩, ?_, hinv⟩
    · rcases hf with hf | hf
      · exact hs.flows f (Or.inr (Option.some.inj hf ▸ hknown))
      · obtain ⟨g, hg, rfl⟩ := List.mem_map.mp hf
        exact hs.flows _ (Or.inr (List.mem_map_of_mem (List.mem_of_mem_erase hg)))
    · rcases hd with rfl | rfl
      · exact fun _ => ⟨rfl, rfl⟩
      · exact fun _ => ⟨rfl, rfl⟩
    · rcases hd with rfl | rfl
      · exact hw.owns
      · exact ⟨hw.owns.owned, hw.owns.retired⟩
  · rcases hd with rfl | rfl
    · exact Terms.Holds.unpin hO h
    · exact Terms.Holds.unpin hO h

/-- A continuation that issues a request runs for a flow that is current. -/
theorem spec_continues {flow : FlowId} {await : Await} {k : Code Unit} {e : Entry}
    (hrequests : e.requests = none ∨ e.requests = some flow) (hk : ∀ d : Duty, (e.requests = some flow → d.flow = some flow) →
      T.contract.Keeps (T.Holds { duty := d, flow := some flow }) k) :
    T.contract.Spec (fun s t => T.Holds {} s t ∧ s.flows.contains ⟨flow, await⟩ = true ∧ T.okEnter s t e)
      (continueFlow ⟨flow, await⟩ k) fun _ => T.Holds {} := by
  rcases hrequests with hnone | hsome
  · have hquiet : e.requests = some flow → ({} : Duty).flow = some flow := fun h => nomatch hnone.symm.trans h
    exact spec_continueFlow hO (hk {} hquiet) (Or.inl rfl) fun s t h => ⟨h.1, h.2.1, h.1.kept⟩
  · exact spec_continueFlow hO (hk { flow := some flow } fun _ => rfl) (Or.inr rfl)
      fun s t h => ⟨h.1, h.2.1, hO.continues h.2.2 hsome h.1.kept⟩

theorem honours : Honours machine T.contract := by
  intro e top w s t hadmits hok htop h
  have hsends : ∀ {p : Code Unit}, e.sends = true →
      (∀ w : Mode, w.duty.clean = true → T.contract.Keeps (T.Holds w) p) →
      T.contract.Safe p (fun _ => T.contract.inv w) s t :=
    fun he hp => spec_sends hO he hp s t ⟨h, hok⟩
  cases e with
  | reserveWireId => exact (Keeps.bind (keeps_drawWireId hO 8) fun _ => Keeps.pure ()) s t h
  | sendUserMessage text id =>
    exact hsends rfl fun w hw => Keeps.bind (keeps_sendUserMessage hO hw text id) fun _ => Keeps.pure ()
  | sendApprovalDecision id decision => exact hsends rfl fun w hw => keeps_enqueue hO rfl hw
  | loadHistory before limit => exact hsends rfl fun w hw => keeps_enqueue hO rfl hw
  | loadCommands => exact hsends rfl fun w hw => keeps_enqueue hO rfl hw
  | connect => exact keeps_connect hO s t h
  | disconnect => exact keeps_disconnect hO s t h
  | requestApplicationRecovery =>
    exact (Keeps.bind (keeps_requestApplicationRecovery hO) fun _ => Keeps.pure ()) s t h
  | message payload => exact keeps_handleRaw hO payload s t h
  | pong =>
    simp only [machine, Entry.admits, Bool.and_eq_true] at hadmits
    obtain rfl := htop hadmits.1
    exact spec_onPong hO s t ⟨h, hadmits.2⟩
  | socketClosed => exact keeps_onSocketClosed hO s t h
  | dropSocket => exact keeps_forceReconnect hO s t h
  | authFailure cause => exact keeps_failTerminally hO cause s t h
  | reconnectTimer => exact keeps_onReconnectTimer hO s t h
  | retryTimer generation => exact hsends rfl fun w hw => keeps_onRetryTimer hO hw generation
  | challenged flow attempt written reply =>
    simp only [machine, Entry.admits, Bool.and_eq_true] at hadmits
    obtain rfl := htop hadmits.1.1
    exact spec_continues hO (e := .challenged flow attempt written reply) (ite_eq_or_eq _ _ _).symm
      (fun d hd => keeps_onChallenge hO rfl fun hretry => hd (if_pos hretry)) s t ⟨h, hadmits.1.2, hok⟩
  | signed flow attempt ok =>
    simp only [machine, Entry.admits, Bool.and_eq_true] at hadmits
    obtain rfl := htop hadmits.1
    exact spec_continues hO (e := .signed flow attempt ok) (ite_eq_or_eq _ _ _).symm
      (fun d hd => keeps_onSignature hO rfl fun hsigned => hd (if_pos hsigned)) s t ⟨h, hadmits.2, hok⟩
  | replied flow attempt written reply =>
    simp only [machine, Entry.admits, Bool.and_eq_true] at hadmits
    obtain rfl := htop hadmits.1.1
    exact spec_continues hO (e := .replied flow attempt written reply) (ite_eq_or_eq _ _ _).symm
      (fun d hd => keeps_onRegisterReply hO rfl fun hretry => hd (if_pos hretry)) s t ⟨h, hadmits.1.2, hok⟩
  | registered flow result =>
    simp only [machine, Entry.admits, Bool.and_eq_true] at hadmits
    obtain rfl := htop hadmits.1
    exact spec_continueFlow (P := fun s' t' => s' = s ∧ t' = t) hO
      (keeps_onRegistered hO flow result) (Or.inl rfl)
      (by rintro s' t' ⟨rfl, rfl⟩; exact ⟨h, hadmits.2, h.kept⟩) s t ⟨rfl, rfl⟩
  | unwrapped flow ok =>
    simp only [machine, Entry.admits, Bool.and_eq_true] at hadmits
    obtain rfl := htop hadmits.1
    exact spec_continueFlow (P := fun s' t' => s' = s ∧ t' = t) hO
      (keeps_onUnwrapped hO flow ok) (Or.inl rfl)
      (by rintro s' t' ⟨rfl, rfl⟩; exact ⟨h, hadmits.2, h.kept⟩) s t ⟨rfl, rfl⟩

end Rules

/-! ### Runs -/

section Runs

variable {T : Terms} {options : Options}

theorem holds_init (h₀ : T.inv {} (Client.init options).view []) :
    T.contract.inv T.contract.base (Client.init options) [] := by
  refine ⟨⟨fun f hf => ?_, rfl, fun h => (nomatch h), fun h => (nomatch h), fun _ _ => rfl,
    fun x hx => (nomatch hx), fun _ => ⟨rfl, rfl⟩, fun h => (nomatch h)⟩,
    ⟨⟨fun id st hget => (nomatch hget), fun id hid => (nomatch hid), List.nodup_nil⟩, fun _ => ⟨rfl, rfl⟩⟩,
    h₀⟩
  rcases hf with hf | hf
  · cases hf
  · cases hf

end Runs

end Webchannel.Session
