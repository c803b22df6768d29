import Webchannel.Session.Outline

/-!
# The browser client: the contract of the code

Publishing, sealing and draining, results, sweeps, the connection flow and the entries: each
program keeps the terms, whatever the callouts in between do.
-/

namespace Webchannel.Session

open Webchannel.Reentrant Prog Contract

section Rules

variable {T : Terms} (hO : Outline T) {w w' : Mode}
include hO

/-! ### Publishing -/

section Publish

variable {m : OutboundMessage} {key : SessionKey} {epoch : Nat} {P : Client → List Out → Prop}

/-- A message that is not written gives up the connection, unless there is none. -/
theorem Terms.Holds.refuse {s : Client} {t : List Out} (h : T.Holds w s t) (hs : Sound w s → Sound w' s)
    (hc : Change T.okAnswer w.duty s.view t w'.duty { s.view with connected := false } (.refused m :: t))
    (ws : Option Nat) :
    T.Holds { w' with offline := true } { s with connected := false, ws } (.refused m :: t) := by
  have hs' := hs h.sound
  refine h.change hO ⟨fun f hf => ⟨(hs'.flows f hf).1, fun hlate => (hs'.flows f hf).2 ?_⟩, hs'.draining,
    fun hconn => (nomatch hconn), fun _ => rfl, fun hoff => (nomatch hoff), ?_, hs'.resting, hs'.busy⟩ hc
  · exact Or.inl (hlate.resolve_right fun hoff => (nomatch hoff.1))
  · exact fun x hx => ⟨(hs'.pinned x hx).entry, (hs'.pinned x hx).session⟩

theorem spec_publishFailed (hP : ∀ s t, P s t → T.Holds w s t) (hs : ∀ s, Sound w s → Sound w' s)
    (hc : ∀ s t, P s t → Change T.okAnswer w.duty s.view t w'.duty
      { s.view with connected := false } (.refused m :: t)) :
    T.contract.Spec P (publishFailed m) fun _ => T.Holds w' := by
  let gaveUp (s : Client) (t : List Out) : Prop := ∃ t', t = .refused m :: t' ∧ P s t'
  refine Spec.bind (Q := fun _ => gaveUp) (Spec.record fun s t h => ?_) fun _ => ?_
  · have hw := hP s t h
    exact ⟨hO.act (hc s t h) s.view_wf hw.owns hw.kept s.view.events, t, rfl, h⟩
  refine Spec.bind (spec_forceReconnect hO ?_) fun _ => Spec.pure fun _ _ h => h
  rintro s t ⟨t', rfl, h⟩
  exact (hP s t' h).refuse hO (hs s) (hc s t' h) none

theorem spec_publish (hP : ∀ s t, P s t → T.Holds w s t) (hs : ∀ s, Sound w s → Sound w' s)
    (hpub : ∀ s t, P s t → s.connected = true →
      Change T.okAnswer w.duty s.view t w'.duty s.view (.wire (.pub m key epoch) :: t))
    (hc : ∀ s t, P s t → Change T.okAnswer w.duty s.view t w'.duty
      { s.view with connected := false } (.refused m :: t)) :
    T.contract.Spec P (publish m key epoch) fun _ => T.Holds w' := by
  refine Spec.get fun v => Spec.ite (fun hv => ?_) fun hv => ?_
  · have hconn : v.connected = true := (Bool.and_eq_true_iff.mp hv).1
    have hfail : T.contract.Spec (fun s t => s = v ∧ P s t) (publishFailed m) fun _ => T.Holds w' :=
      spec_publishFailed hO (fun s t h => hP s t h.2) hs fun s t h => hc s t h.2
    have hread : T.contract.Keeps (fun s t => s = v ∧ P s t) socketOpen :=
      Keeps.bind (Keeps.query _) fun _ => Keeps.pure _
    refine Spec.bind hread fun isOpen => Spec.ite (fun _ => ?_) fun _ => hfail
    refine Spec.bind (Keeps.query _) fun throws => Spec.ite (fun _ => hfail) fun _ => ?_
    refine Spec.bind (spec_act (w := w) hO ?_) fun _ => Spec.pure fun _ _ h => h
    rintro s t ⟨rfl, h⟩
    have hw := hP s t h
    exact ⟨hw, hs s hw.sound, hpub s t h hconn⟩
  · refine Spec.bind (Q := fun _ => T.Holds w') (Spec.record ?_) fun _ => Spec.pure fun _ _ h => h
    rintro s t ⟨rfl, h⟩
    have hw := hP s t h
    have hconn : s.connected = false := by
      by_contra hne
      have htrue : s.connected = true := by simpa using hne
      exact hv (by simp [htrue, hw.sound.socket htrue])
    have hview : { s.view with connected := false } = s.view := by
      rw [← hconn]
      rfl
    have hchange := hc s t h
    refine ⟨hO.act hchange s.view_wf hw.owns hw.kept s.view.events, ?_⟩
    rw [hview] at hchange
    exact hw.change hO (hs s hw.sound) hchange

end Publish

/-- A control message, or the repeated publish of an owned one. -/
theorem keeps_publish {m : OutboundMessage} {key : SessionKey} {epoch : Nat}
    (hclean : m.userId.isSome = true → w.duty.clean = true) :
    T.contract.Spec (fun s t => T.Holds w s t ∧ s.view.Presents m key epoch) (publish m key epoch)
      fun _ => T.Holds w := by
  refine spec_publish hO (fun _ _ h => h.1) (fun _ h => h) ?_ ?_
  · exact fun s t h hconn => .publish m key epoch hclean h.2 hconn
  · exact fun s t h => .refuse m key epoch hclean h.2

theorem keeps_request {flow : FlowId} (op : RegisterOp) (hflow : w.duty.flow = some flow) :
    T.contract.Keeps (T.Holds w) (request flow op) := by
  refine Keeps.get fun _ => Keeps.ite (Keeps.bind (keeps_subscribe hO) fun _ => ?_) (Keeps.pure _)
  refine Spec.get fun v => Spec.bind (Q := fun _ => T.Holds w) ?_ fun _ => Keeps.pure _
  refine Spec.onlyIf (fun hv => spec_act (w := w) hO ?_) fun _ _ _ h => h.2
  rintro s t ⟨rfl, h⟩
  exact ⟨h, h.sound, .request flow op hflow (Bool.and_eq_true_iff.mp hv).1⟩

theorem keeps_requestApplicationRecovery :
    T.contract.Keeps (T.Holds w) requestApplicationRecovery := by
  refine Keeps.get fun _ => Keeps.ite (Keeps.pure _) ?_
  refine Keeps.bind (Keeps.onlyIf (keeps_quiet fun _ => rfl)) fun _ => ?_
  refine Keeps.bind (keeps_cancelLiveRetryTimer hO) fun _ => Keeps.get fun _ => ?_
  exact Keeps.ite (Keeps.pure _) (Keeps.bind (keeps_rawReconnect hO) fun _ => Keeps.pure _)

/-! ### Ledger -/

omit hO in
theorem view_updateLedger (s : Client) (id : WireId) (f : UnackedLedgerEntry → UnackedLedgerEntry) :
    (s.updateLedger id f).view = s.view := by
  unfold Client.updateLedger
  cases hget : s.unackedLedger.get id with
  | none => rfl
  | some entry =>
    have hkeys : (s.unackedLedger.set id (f entry)).keys = s.unackedLedger.keys :=
      OrderedMap.keys_set_of_has _ (by simp [OrderedMap.has, hget])
    calc ({ s with unackedLedger := s.unackedLedger.set id (f entry) } : Client).view
        _ = { s.view with ledger := (s.unackedLedger.set id (f entry)).keys } := rfl
        _ = s.view := by
          rw [hkeys]
          rfl

omit hO in
theorem view_stampAttempt (s : Client) (id : WireId) (now : Int) :
    (s.stampAttempt id now).view = s.view := by
  unfold Client.stampAttempt
  cases hget : s.sendTracker.get id with
  | none => rfl
  | some entry =>
    have hset : (s.setEntry id { entry with lastAttemptAt := some now }).view
        = s.view.setState id entry.state := Client.view_setEntry hget
    refine hset.trans ?_
    unfold View.setState
    rw [← Client.states_eq_some hget, Function.update_eq_self]

omit hO in
theorem evolves_of_view {s s' : Client} (hview : s'.view = s.view) : Evolves s s' := by
  have hterminal := congrArg View.terminalReached hview
  have hkey := congrArg View.sessionKey hview
  exact ⟨fun h => hterminal.trans h, fun key h => Or.inl (hkey.symm.trans h)⟩

omit hO in
theorem Terms.Holds.unseen {s s' : Client} {t : List Out} (h : T.Holds w s t) (hview : s'.view = s.view)
    (hs : Sound w s') : T.Holds w s' t :=
  ⟨hs, hview ▸ h.owns, hview ▸ h.kept⟩

omit hO in
theorem rig_stampAttempt (s : Client) (id : WireId) (now : Int) : (s.stampAttempt id now).rig = s.rig := by
  unfold Client.stampAttempt
  split <;> rfl

omit hO in
theorem Terms.Holds.stampAttempt {s : Client} {t : List Out} (h : T.Holds w s t) (id : WireId) (now : Int) :
    Evolves s (s.stampAttempt id now) ∧ T.Holds w (s.stampAttempt id now) t :=
  have hview := view_stampAttempt s id now
  ⟨evolves_of_view hview, h.unseen hview (h.sound.congr (rig_stampAttempt s id now))⟩

omit hO in
theorem get_updateLedger {s : Client} {id id' : WireId} {f : UnackedLedgerEntry → UnackedLedgerEntry}
    {e : UnackedLedgerEntry} (h : (s.updateLedger id f).unackedLedger.get id' = some e) :
    s.unackedLedger.get id' = some e ∨ id' = id ∧ ∃ e', s.unackedLedger.get id' = some e' ∧ e = f e' := by
  unfold Client.updateLedger at h
  cases hget : s.unackedLedger.get id with
  | none =>
    rw [hget] at h
    exact Or.inl h
  | some entry =>
    rw [hget] at h
    simp only [OrderedMap.get_set_eq] at h
    split at h
    · rename_i heq
      subst heq
      exact Or.inr ⟨rfl, entry, hget, (Option.some.inj h).symm⟩
    · exact Or.inl h

omit hO in
theorem rig_updateLedger (s : Client) (id : WireId) (f : UnackedLedgerEntry → UnackedLedgerEntry) :
    (s.updateLedger id f).rig = { s with unackedLedger := (s.updateLedger id f).unackedLedger }.rig := by
  unfold Client.updateLedger
  split <;> rfl

omit hO in
theorem Sound.updateLedger {s : Client} {id : WireId} {f : UnackedLedgerEntry → UnackedLedgerEntry}
    (h : Sound w s) (hf : ∀ x e, w.pin = some x → x.id = id → s.unackedLedger.get id = some e →
      (f e).stamp = e.stamp ∧ (f e).nextRetryAt = e.nextRetryAt) : Sound w (s.updateLedger id f) := by
  refine Sound.congr (s := { s with unackedLedger := (s.updateLedger id f).unackedLedger }) ?_
    (rig_updateLedger s id f)
  refine ⟨h.flows, h.draining, h.socket, h.offline, h.keyed,
    fun x hx => ⟨fun e hget => ?_, (h.pinned x hx).session⟩, h.resting, h.busy⟩
  rcases get_updateLedger hget with hold | ⟨heq, e', hold, rfl⟩
  · exact (h.pinned x hx).entry e hold
  · obtain ⟨hstamp, hretry⟩ := hf x e' hx heq (heq ▸ hold)
    obtain ⟨hstamp', hretry'⟩ := (h.pinned x hx).entry e' hold
    exact ⟨hstamp.trans hstamp', hretry.trans hretry'⟩

omit hO in
/-- A change of a ledger entry that keeps what a pinned entry is known by. -/
theorem keeps_updateLedger {id : WireId} {f : UnackedLedgerEntry → UnackedLedgerEntry}
    (hf : (∀ e, (f e).stamp = e.stamp ∧ (f e).nextRetryAt = e.nextRetryAt)
      ∨ ∀ x, w.pin = some x → x.id ≠ id) :
    T.contract.Keeps (T.Holds w) (modify fun c => c.updateLedger id f) := by
  refine Spec.modify fun s t h => ?_
  have hview := view_updateLedger s id f
  refine ⟨evolves_of_view hview, h.unseen hview (h.sound.updateLedger ?_)⟩
  intro x e hx heq _
  rcases hf with hf | hf
  · exact hf e
  · exact absurd heq (hf x hx)

omit hO in
theorem mem_ledger_of_holds {s : Client} {id : WireId} {stamp : Nat}
    (h : s.ledgerHolds id stamp = true) : id ∈ s.view.ledger := by
  cases hget : s.unackedLedger.get id with
  | none => simp [Client.ledgerHolds, hget] at h
  | some entry => exact OrderedMap.mem_keys.mpr (by simp [OrderedMap.has, hget])

omit hO in
theorem ownerFence_iff {s : Client} {x : Sealing} : s.ownerFence x = true ↔
    s.ledgerHolds x.id x.stamp = true ∧ s.sessionKey = some x.key ∧ s.connectionEpoch = x.epoch
      ∧ s.live = true := by
  simp [Client.ownerFence, and_assoc]

omit hO in
theorem presents_of_ownerFence {s : Client} {x : Sealing} (h : s.ownerFence x = true) :
    s.view.Presents (.userMessage x.text x.id) x.key x.epoch := by
  obtain ⟨hholds, hkey, hepoch, hlive⟩ := ownerFence_iff.mp h
  refine ⟨hkey, hepoch, fun _ => hlive, fun id hid => ?_⟩
  obtain rfl := Option.some.inj hid
  exact mem_ledger_of_holds hholds

/-! ### Sealing -/

/-- The modes of a drain: it runs over a replayed ledger and seals no message yet. -/
structure Mode.Drains (w : Mode) : Prop where
  draining : w.draining = true
  clean : w.duty.clean = true
  pin : w.pin = none
  sealing : w.duty.sealing = none

/-- The ids are still to be failed. -/
def Mode.owing (w : Mode) (ids : List WireId) : Mode :=
  { w with duty := { w.duty with failing := ids ++ w.duty.failing } }

/-- The message is in the ledger, and the evicted ones are still to be failed. -/
def Mode.recorded (w : Mode) (id : WireId) (evicted : List WireId) : Mode :=
  { w with duty := { w.duty with sealing := some id, failing := evicted ++ w.duty.failing } }

def Mode.pinned (w : Mode) (x : Sealing) : Mode :=
  { w.recorded x.id x.evicted with bumped := false, pin := some x }

theorem spec_finishPostSeal (evicted : List WireId) :
    T.contract.Spec (T.Holds (w.owing evicted)) (finishPostSeal evicted) fun _ => T.Holds w :=
  spec_each_failSend hO .evicted true evicted rfl

omit hO in
/-- While a drain goes on, no message is pinned before it is recorded. -/
theorem Mode.Drains.no_pin {P : Prop} {x : Sealing} (hw : w.Drains) (hx : w.pin = some x) : P := by
  cases hw.pin.symm.trans hx

omit hO in
theorem Mode.Drains.no_rest {P : Prop} (hw : w.Drains) (hdraining : w.draining = false) : P := by
  cases hw.draining.symm.trans hdraining

omit hO in
theorem Mode.Drains.sound {s : Client} {d : Duty} (hw : w.Drains) (hd : d.clean = true) {bumped : Bool}
    {d' : Duty} {pin : Option Sealing} (hs : Sound { w with duty := d', bumped, pin } s) :
    Sound { w with duty := d } s :=
  ⟨hs.flows, hs.draining, hs.socket, hs.offline, hs.keyed, fun _ hx => hw.no_pin hx,
    fun hdraining => hw.no_rest hdraining, fun _ => hd⟩

omit hO in
theorem Mode.Drains.duty_owing (hw : w.Drains) (id : WireId) (ids : List WireId) :
    { (w.recorded id ids).duty with sealing := none } = (w.owing ids).duty := by
  show { w.duty with sealing := none, failing := ids ++ w.duty.failing }
    = { w.duty with failing := ids ++ w.duty.failing }
  rw [← hw.sealing]

omit hO in
theorem filter_not_mem_take {l : List WireId} (hl : l.Nodup) (n : Nat) :
    l.filter (· ∉ l.take n) = l.drop n := by
  induction l generalizing n with
  | nil => simp
  | cons a l ih =>
    obtain ⟨ha, hl⟩ := List.nodup_cons.mp hl
    cases n with
    | zero => simp
    | succ n =>
      rw [List.take_succ_cons, List.drop_succ_cons, List.filter_cons_of_neg (by simp), ← ih hl n]
      refine List.filter_congr fun x hx => ?_
      have hne : x ≠ a := fun h => ha (h ▸ hx)
      simp [hne]

/-- What is known right after the message went from the queue to the ledger. -/
structure Recorded (T : Terms) (w : Mode) (v : Client) (id : WireId) (key : SessionKey)
    (evicted : List WireId) (s : Client) (t : List Out) : Prop where
  holds : T.Holds (w.recorded id evicted) s t
  current : s.sessionKey = some key
  epoch : s.connectionEpoch = v.connectionEpoch
  mutation : s.ackStallMutationEpoch = v.ackStallMutationEpoch
  fresh : ∀ e, s.unackedLedger.get id = some e → e.nextRetryAt = none

/-- The front of the queue is in the hand of the program that shifted it. -/
def Shifted (T : Terms) (w : Mode) (m : OutboundMessage) (s : Client) (t : List Out) : Prop :=
  ∃ s₀ rest, T.Holds w s₀ t ∧ s₀.outboundQueue = m :: rest ∧ s = { s₀ with outboundQueue := rest }

theorem Recorded.of_shifted (hw : w.Drains) {s : Client} {t : List Out} {key : SessionKey}
    {text : String} {id : WireId} (h : Shifted T w (.userMessage text id) s t)
    (hkey : s.sessionKey = some key) : s.unackedLedger.has id = false ∧ Evolves s (s.record id text)
      ∧ Recorded T w s id key [] (s.record id text) t := by
  obtain ⟨s₀, rest, h₀, hqueue, rfl⟩ := h
  have hview : s₀.view.queue = id :: rest.filterMap OutboundMessage.userId := by
    show s₀.outboundQueue.filterMap _ = _
    rw [hqueue]
    rfl
  have hnot : id ∉ s₀.view.ledger := by
    have hnodup := h₀.owns.queue_ledger_nodup
    rw [hview] at hnodup
    exact fun hmem => (List.nodup_cons.mp hnodup).1 (List.mem_append_right _ hmem)
  have hhas : s₀.unackedLedger.has id = false :=
    Bool.eq_false_iff.mpr fun hh => hnot (OrderedMap.mem_keys.mpr hh)
  have hlive : s₀.view.live = true := by
    have hmem : id ∈ s₀.view.queue := hview ▸ List.mem_cons_self
    exact h₀.owns.live_of_queue hmem
  have hkeys : (s₀.unackedLedger.set id ⟨s₀.nextStamp, text, 0, none, false⟩).keys
      = s₀.view.ledger ++ [id] := OrderedMap.keys_set_of_not_has _ hhas
  have hrec : { s₀ with outboundQueue := rest }.record id text = { s₀ with
      outboundQueue := rest
      unackedLedger := s₀.unackedLedger.set id ⟨s₀.nextStamp, text, 0, none, false⟩
      nextStamp := s₀.nextStamp + 1 } := by
    rw [Client.record, if_neg (by simp [hhas])]
  rw [hrec]
  refine ⟨hhas, ⟨fun h => h, fun _ => Or.inl⟩, ?_, hkey, rfl, rfl, fun e hget => ?_⟩
  · have hsound := h₀.sound
    refine h₀.change hO ⟨hsound.flows, hsound.draining, hsound.socket, hsound.offline, hsound.keyed,
      fun x hx => hw.no_pin hx, fun hd => hw.no_rest hd,
      fun _ => hw.clean⟩ ?_
    have hrecord : Change T.okAnswer w.duty s₀.view t { w.duty with sealing := some id } { s₀.view with
        queue := rest.filterMap OutboundMessage.userId, ledger := s₀.view.ledger ++ [id] } t :=
      .record id _ hview hlive hw.clean hw.sealing
    rw [← hkeys] at hrecord
    exact hrecord
  · simp only [OrderedMap.get_set_self] at hget
    exact Option.some.inj hget ▸ rfl

theorem spec_recordUnacked (hw : w.Drains) {v : Client} {key : SessionKey} (text : String) (id : WireId)
    (hkey : v.sessionKey = some key) :
    T.contract.Spec (fun s t => s = v ∧ Shifted T w (.userMessage text id) s t) (recordUnacked id text)
      fun r s t => r.2 = true ∧ Recorded T w v id key r.1 s t := by
  refine Spec.get fun u => ?_
  refine Spec.bind (Q := fun _ s t => u.unackedLedger.has id = false ∧ Recorded T w v id key [] s t)
    (Spec.modify ?_) fun _ => Spec.get fun u' => ?_
  · rintro s t ⟨rfl, rfl, h⟩
    obtain ⟨hhas, hev, hrec⟩ := Recorded.of_shifted hO hw h hkey
    exact ⟨hev, hhas, hrec⟩
  · refine Spec.bind (Q := fun _ s t => u.unackedLedger.has id = false
      ∧ Recorded T w v id key u'.overflow s t) (Spec.modify ?_) fun _ => Spec.pure ?_
    · rintro s t ⟨rfl, hhas, h⟩
      have hdrop : (s.overflow.foldl (·.delete ·) s.unackedLedger).keys
          = s.ledgerIds.drop (s.ledgerIds.length - maxUnacked) := by
        rw [OrderedMap.keys_foldl_delete]
        exact filter_not_mem_take (OrderedMap.keys_nodup _) _
      refine ⟨⟨fun h => h, fun _ => Or.inl⟩, hhas, ?_, h.current, h.epoch, h.mutation, ?_⟩
      · refine h.holds.change hO ?_ (.evict s.overflow
          (s.overflow.foldl (·.delete ·) s.unackedLedger).keys ?_)
        · have hsound := h.holds.sound
          exact ⟨hsound.flows, hsound.draining, hsound.socket, hsound.offline, hsound.keyed,
            fun x hx => hw.no_pin hx, fun hd => hw.no_rest hd,
            fun _ => hw.clean⟩
        · rw [hdrop]
          exact (List.take_append_drop _ _).symm
      · intro e hget
        simp only [Client.evict, OrderedMap.get_foldl_delete] at hget
        split at hget
        · cases hget
        · exact h.fresh e hget
    · rintro s t ⟨hhas, h⟩
      exact ⟨by simp [hhas], h⟩

theorem spec_finishInvalidated (hw : w.Drains) {x : Sealing} (hinserted : x.inserted = true) :
    T.contract.Spec (fun s t => T.Holds (w.pinned x) s t ∧ s.sealFence x = false)
      (finishInvalidatedPrePublish x) fun _ => T.Holds w := by
  refine Spec.get fun v => Spec.bind (Q := fun _ => T.Holds (w.owing x.evicted)) ?_ fun _ =>
    spec_finishPostSeal hO x.evicted
  refine Spec.onlyIf (fun hcond => Spec.modify ?_) fun hcond => ?_
  · rintro s t ⟨rfl, h, -⟩
    simp only [Bool.and_eq_true] at hcond
    have hfence := hcond.1.1.2
    obtain ⟨hholds, -, -, hlive⟩ := ownerFence_iff.mp hfence
    refine ⟨⟨fun h => h, fun _ => Or.inl⟩, h.change hO ?_ ?_⟩
    · have hs : Sound (w.owing x.evicted) s := hw.sound hw.clean h.sound
      exact ⟨hs.flows, hs.draining, hs.socket, hs.offline, hs.keyed,
        fun y hy => hw.no_pin hy, hs.resting, hs.busy⟩
    · have hrequeue : Change T.okAnswer (w.pinned x).duty s.view t
          { (w.pinned x).duty with sealing := none }
          { s.view with queue := x.id :: s.view.queue, ledger := s.view.ledger.filter (· ≠ x.id) } t :=
        .requeue x.id rfl (mem_ledger_of_holds hholds) hlive
      rw [show { (w.pinned x).duty with sealing := none } = (w.owing x.evicted).duty from
        hw.duty_owing x.id x.evicted] at hrequeue
      have hkeys : (s.unackedLedger.delete x.id).keys = s.view.ledger.filter (· ≠ x.id) :=
        OrderedMap.keys_delete _ _
      rw [← hkeys] at hrequeue
      exact hrequeue
  · rintro s t ⟨rfl, h, hfence⟩
    refine h.change hO (hw.sound hw.clean h.sound) ?_
    rw [← hw.duty_owing x.id x.evicted]
    refine .leave x.id rfl ?_
    -- an entry that is still owned under the same key has only been overtaken
    by_contra hstill
    obtain ⟨hmem, hkey⟩ := not_or.mp hstill
    obtain ⟨key, hkey⟩ := Option.ne_none_iff_exists'.mp hkey
    obtain ⟨e, hget⟩ := Option.isSome_iff_exists.mp (OrderedMap.mem_keys.mp (not_not.mp hmem))
    obtain ⟨hstamp, hretry⟩ := (h.sound.pinned x rfl).entry e hget
    obtain ⟨hkey', hepoch⟩ := (h.sound.pinned x rfl).session rfl key hkey
    have hlive : s.live = true := h.owns.live_of_ledger (not_not.mp hmem)
    have howner : s.ownerFence x = true := by
      refine ownerFence_iff.mpr ⟨?_, hkey' ▸ hkey, hepoch, hlive⟩
      simp [Client.ledgerHolds, hget, hstamp]
    have hmutation : s.ackStallMutationEpoch ≠ x.mutationEpoch := by
      intro heq
      simp [Client.sealFence, howner, heq] at hfence
    simp [hinserted, howner, hget, hretry, hmutation] at hcond

theorem keeps_confirmOwnership (x : Sealing) : T.contract.Keeps (T.Holds w) (confirmOwnership x) := by
  refine Keeps.get fun _ => Keeps.ite ?_ (Keeps.pure _)
  refine Keeps.bind (keeps_updateLedger (Or.inl fun _ => ⟨rfl, rfl⟩)) fun _ => Keeps.get fun _ => ?_
  refine Keeps.bind (keeps_retryNow hO) fun _ => Keeps.get fun _ => Keeps.ite ?_ (Keeps.pure _)
  refine Keeps.bind (Keeps.onlyIf (keeps_quiet fun _ => rfl)) fun _ => ?_
  exact Keeps.get fun _ => Keeps.pure _

theorem keeps_confirmPublished (x : Sealing) : T.contract.Keeps (T.Holds w) (confirmPublished x) := by
  refine Keeps.bind (keeps_confirmOwnership hO x) fun _ => ?_
  refine Keeps.bind (keeps_advanceSent hO x.id) fun _ => Keeps.onSome fun _ => ?_
  exact Keeps.get fun _ => Keeps.onlyIf (keeps_armLiveRetryTimer hO)

omit hO in
theorem sealFence_iff {s : Client} {x : Sealing} : s.sealFence x = true ↔
    s.ownerFence x = true ∧ s.ackStallMutationEpoch = x.mutationEpoch := by
  simp [Client.sealFence]

omit hO in
/-- What the fence reads of the ledger is the stamp of the entry. -/
theorem sealFence_updateLedger {s : Client} {x : Sealing} {id : WireId}
    {f : UnackedLedgerEntry → UnackedLedgerEntry} (hf : ∀ e, (f e).stamp = e.stamp) :
    (s.updateLedger id f).sealFence x = s.sealFence x := by
  have hholds : (s.updateLedger id f).ledgerHolds x.id x.stamp = s.ledgerHolds x.id x.stamp := by
    unfold Client.updateLedger Client.ledgerHolds
    cases hget : s.unackedLedger.get id with
    | none => rfl
    | some entry =>
      simp only [OrderedMap.get_set_eq]
      split
      · rename_i heq
        rw [heq, hget, Option.any_some, Option.any_some, hf]
      · rfl
  have hrest : (s.updateLedger id f).sessionKey = s.sessionKey
      ∧ (s.updateLedger id f).connectionEpoch = s.connectionEpoch
      ∧ (s.updateLedger id f).live = s.live
      ∧ (s.updateLedger id f).ackStallMutationEpoch = s.ackStallMutationEpoch := by
    unfold Client.updateLedger
    split <;> exact ⟨rfl, rfl, rfl, rfl⟩
  obtain ⟨h₁, h₂, h₃, h₄⟩ := hrest
  unfold Client.sealFence Client.ownerFence
  rw [hholds, h₁, h₂, h₃, h₄]

omit hO in
theorem sealFence_stampAttempt (s : Client) (x : Sealing) (id : WireId) (now : Int) :
    (s.stampAttempt id now).sealFence x = s.sealFence x := by
  unfold Client.stampAttempt
  split <;> rfl

theorem spec_attemptPublish (hw : w.Drains) {x : Sealing} (hinserted : x.inserted = true) (delay : Int) :
    T.contract.Spec (T.Holds (w.pinned x)) (attemptPublish x (some delay)) fun _ => T.Holds w := by
  refine Spec.bind (keeps_retryNow hO) fun now => Spec.get fun v => Spec.ite (fun hv => ?_) fun hv => ?_
  · refine (spec_finishInvalidated hO hw hinserted).pre ?_
    rintro s t ⟨rfl, h⟩
    exact ⟨h, by simpa using hv⟩
  let ready (s : Client) (t : List Out) : Prop :=
    T.Holds (w.recorded x.id x.evicted) s t ∧ s.sealFence x = true
  refine Spec.bind (Q := fun _ => ready) (Spec.modify ?_) fun _ => ?_
  · rintro s t ⟨rfl, h⟩
    have hview := view_updateLedger s x.id fun e => { e with nextRetryAt := some (now + delay) }
    have hs := h.sound
    have hplain : Sound (w.recorded x.id x.evicted) s := hw.sound hw.clean hs
    have hfence : s.sealFence x = true := by simpa using hv
    refine ⟨evolves_of_view hview, ⟨hplain.updateLedger fun y _ hy => hw.no_pin hy,
      hview ▸ h.owns, hview ▸ h.kept⟩, ?_⟩
    exact (sealFence_updateLedger (f := fun e => { e with nextRetryAt := some (now + delay) })
      fun _ => rfl).trans hfence
  refine Spec.bind (Q := fun _ => ready) (Spec.modify fun s t h => ?_) fun _ => Spec.get fun u => ?_
  · obtain ⟨hev, hholds⟩ := h.1.stampAttempt x.id now
    exact ⟨hev, hholds, (sealFence_stampAttempt s x x.id now).trans h.2⟩
  refine Spec.ite (fun hu => Spec.vacuous ?_) fun hu => ?_
  · rintro s t ⟨rfl, -, hfence⟩
    simp [hfence] at hu
  refine Spec.bind (Q := fun _ => T.Holds (w.owing x.evicted))
    (spec_publish (P := fun s t => s = u ∧ ready s t) hO (fun _ _ h => h.2.1) ?_ ?_ ?_) fun ok => ?_
  · exact fun s hs => hw.sound hw.clean hs
  · rintro s t ⟨-, h, hfence⟩ hconn
    rw [← hw.duty_owing x.id x.evicted]
    exact .publishSealed x.id _ _ _ rfl rfl (presents_of_ownerFence (sealFence_iff.mp hfence).1) hconn
  · rintro s t ⟨-, h, hfence⟩
    rw [← hw.duty_owing x.id x.evicted]
    exact .refuseSealed x.id _ _ _ rfl rfl (presents_of_ownerFence (sealFence_iff.mp hfence).1)
  · exact Spec.bind (Keeps.onlyIf (keeps_confirmPublished hO x)) fun _ => spec_finishPostSeal hO x.evicted

theorem spec_sealUserMessage (hw : w.Drains) {v : Client} {key : SessionKey} (text : String) (id : WireId)
    (hkey : v.sessionKey = some key) :
    T.contract.Spec (fun s t => s = v ∧ Shifted T w (.userMessage text id) s t)
      (sealUserMessage key text id) fun _ => T.Holds w := by
  refine Spec.get fun v' => Spec.pre (P := fun s t => v' = v ∧ s = v
    ∧ Shifted T w (.userMessage text id) s t) ?_ fun s t h => ⟨h.1.symm.trans h.2.1, h.2.1, h.2.2⟩
  refine Spec.bind (Q := fun r s t => v' = v ∧ r.2 = true ∧ Recorded T w v id key r.1 s t) ?_ ?_
  · intro s t h
    refine ((spec_recordUnacked hO hw text id hkey) s t h.2).mono fun r s t h' => ⟨h.1, h'⟩
  rintro ⟨evicted, inserted⟩
  refine Spec.get fun u => ?_
  cases hget : u.unackedLedger.get id with
  | none =>
    refine (spec_finishPostSeal hO evicted).pre ?_
    rintro s t ⟨rfl, -, -, h⟩
    refine h.holds.change hO (hw.sound hw.clean h.holds.sound) ?_
    rw [← hw.duty_owing id evicted]
    refine .leave id rfl (Or.inl fun hmem => ?_)
    have hhas : (s.unackedLedger.get id).isSome = true := OrderedMap.mem_keys.mp hmem
    rw [hget] at hhas
    cases hhas
  | some entry =>
    let x : Sealing := ⟨id, text, key, v'.connectionEpoch, v'.ackStallMutationEpoch, entry.stamp,
      inserted, evicted⟩
    have hready : ∀ s t, (s = u ∧ v' = v ∧ inserted = true ∧ Recorded T w v id key evicted s t) →
        x.inserted = true ∧ s.sealFence x = true ∧ entry.nextRetryAt = none
          ∧ T.Holds (w.pinned x) s t := by
      rintro s t ⟨rfl, rfl, hinserted, h⟩
      have hmem : id ∈ s.view.ledger := OrderedMap.mem_keys.mpr (by simp [OrderedMap.has, hget])
      have hlive : s.live = true := h.holds.owns.live_of_ledger hmem
      have hs := h.holds.sound
      refine ⟨hinserted, sealFence_iff.mpr ⟨ownerFence_iff.mpr ⟨?_, h.current, h.epoch, hlive⟩,
        h.mutation⟩, h.fresh entry hget, ⟨⟨hs.flows, hs.draining, hs.socket, hs.offline, hs.keyed, ?_,
        fun hd => hw.no_rest hd, fun _ => hw.clean⟩, h.holds.owns, h.holds.kept⟩⟩
      · simp [x, Client.ledgerHolds, hget]
      · intro y hy
        obtain rfl := Option.some.inj hy
        refine ⟨fun e hget' => ?_, fun _ key' hkey' => ⟨?_, h.epoch⟩⟩
        · rw [hget] at hget'
          obtain rfl := Option.some.inj hget'
          exact ⟨rfl, h.fresh entry hget⟩
        · rw [h.current] at hkey'
          exact (Option.some.inj hkey').symm
    refine Spec.get fun u' => Spec.ite (fun hu => Spec.vacuous ?_) fun _ => Spec.ite (fun hr => Spec.vacuous ?_)
      fun _ => ?_
    · rintro s t ⟨rfl, h⟩
      simp [(hready s t h).2.1, x] at hu
    · rintro s t ⟨rfl, h⟩
      simp [(hready s t h).2.2.1] at hr
    refine Spec.bind (Q := fun _ s t => x.inserted = true ∧ T.Holds (w.pinned x) s t) ?_ fun delay => ?_
    · rintro s t ⟨-, h⟩
      obtain ⟨hinserted, -, -, hpinned⟩ := hready s t h
      exact ((keeps_retryDelay hO _) s t hpinned).mono fun _ s t h' => ⟨hinserted, h'⟩
    · refine Spec.get fun u'' => Spec.ite (fun hu => ?_) fun hu => ?_
      · rintro s t ⟨rfl, hinserted, h⟩
        exact spec_finishInvalidated hO hw hinserted s t ⟨h, by simpa using hu⟩
      · rintro s t ⟨rfl, hinserted, h⟩
        exact spec_attemptPublish hO hw hinserted delay s t h

/-! ### Draining and replay -/

omit hO in
theorem view_shift {s : Client} {m : OutboundMessage} {rest : List OutboundMessage}
    (hqueue : s.outboundQueue = m :: rest) (hm : m.userId = none) :
    { s with outboundQueue := rest }.view = s.view := by
  have hids : s.queuedIds = rest.filterMap OutboundMessage.userId := by
    rw [Client.queuedIds, hqueue, List.filterMap_cons, hm]
  calc ({ s with outboundQueue := rest } : Client).view
      _ = { s.view with queue := rest.filterMap OutboundMessage.userId } := rfl
      _ = s.view := by
        rw [← hids]
        rfl

theorem spec_sealOutbound (hw : w.Drains) (m : OutboundMessage) :
    T.contract.Spec (fun s t => Shifted T w m s t ∧ s.sessionKey.isSome = true) (sealOutbound m)
      fun _ => T.Holds w := by
  refine Spec.get fun v => ?_
  cases hkey : v.sessionKey with
  | none =>
    refine Spec.vacuous ?_
    rintro s t ⟨rfl, -, hsome⟩
    simp [hkey] at hsome
  | some key =>
    have hcontrol : m.userId = none → T.contract.Spec
        (fun s t => s = v ∧ Shifted T w m s t ∧ s.sessionKey.isSome = true)
        (do
          let _ ← publish m key v.connectionEpoch
          pure ()) fun _ => T.Holds w := by
      intro hm
      refine Spec.bind ((keeps_publish (w := w) hO (by simp [hm])).pre ?_) fun _ => Spec.pure fun _ _ h => h
      rintro s t ⟨rfl, ⟨s₀, rest, h₀, hqueue, rfl⟩, -⟩
      have hview := view_shift hqueue hm
      refine ⟨h₀.unseen hview (h₀.sound.congr rfl), hkey, rfl, ?_, ?_⟩
      · simp [hm]
      · simp [hm]
    cases m with
    | userMessage text id =>
      refine (spec_sealUserMessage hO hw text id hkey).pre ?_
      exact fun s t h => ⟨h.1, h.2.1⟩
    | approvalDecision id decision => exact hcontrol rfl
    | loadHistory before limit => exact hcontrol rfl
    | loadCommands => exact hcontrol rfl

omit hO in
theorem sound_draining {s : Client} (h : Sound w s) (hclean : w.duty.clean = true)
    (hd : w.draining = false) :
    Sound { w with draining := true } { s with drainingOutboundQueue := true } :=
  ⟨h.flows, rfl, h.socket, h.offline, h.keyed, fun _ hx => (nomatch (h.resting hd).1.symm.trans hx),
    fun hd' => (nomatch hd'), fun _ => hclean⟩

theorem keeps_drainOutboundQueue (hclean : w.duty.clean = true) :
    T.contract.Keeps (T.Holds w) drainOutboundQueue := by
  refine Spec.get fun v => Spec.onlyIf (fun hv => ?_) fun _ _ _ h => h.2
  by_cases hd : w.draining = false
  case neg =>
    refine Spec.vacuous ?_
    rintro s t ⟨rfl, h⟩
    simp [h.sound.draining, hd] at hv
  by_cases hrest : w.pin = none ∧ w.duty.sealing = none
  case neg =>
    refine Spec.vacuous ?_
    rintro s t ⟨-, h⟩
    exact hrest (h.sound.resting hd)
  have hw : ({ w with draining := true } : Mode).Drains := ⟨rfl, hclean, hrest.1, hrest.2⟩
  refine Spec.bind (Q := fun _ => T.Holds { w with draining := true }) (Spec.modify ?_) fun _ => ?_
  · rintro s t ⟨rfl, h⟩
    exact ⟨⟨fun h => h, fun _ => Or.inl⟩, sound_draining h.sound hclean hd, h.owns, h.kept⟩
  refine Spec.bind (Q := fun _ => T.Holds { w with draining := true }) ?_ fun _ => Spec.modify fun s t h => ?_
  · refine (Spec.whileTrue (Spec.get fun u => ?_)).post fun _ _ _ h => h.1
    cases hqueue : u.outboundQueue with
    | nil => exact Spec.pure fun _ _ h => h.2.1
    | cons m rest =>
      refine Spec.bind (Spec.modify ?_) fun _ => spec_sealOutbound hO hw m
      rintro s t ⟨rfl, h, hcond⟩
      exact ⟨⟨fun h => h, fun _ => Or.inl⟩, ⟨s, rest, h, hqueue, rfl⟩, (Bool.and_eq_true_iff.mp hcond).1⟩
  · have hs := h.sound
    refine ⟨⟨fun h => h, fun _ => Or.inl⟩, ⟨hs.flows, hd.symm, hs.socket, hs.offline, hs.keyed, fun x hx => ?_,
      fun _ => hrest, fun hd' => (nomatch hd.symm.trans hd')⟩, h.owns, h.kept⟩
    cases hrest.1.symm.trans hx

omit hO in
theorem view_push {s : Client} {m : OutboundMessage} (hm : m.userId = none) :
    (s.push m).view = s.view := by
  have hids : (s.outboundQueue ++ [m]).filterMap OutboundMessage.userId = s.queuedIds := by
    rw [List.filterMap_append, List.filterMap_cons, hm, List.filterMap_nil, List.append_nil]
    rfl
  calc (s.push m).view
      _ = { s.view with queue := (s.outboundQueue ++ [m]).filterMap OutboundMessage.userId } := rfl
      _ = s.view := by
        rw [hids]
        rfl

theorem keeps_enqueue {m : OutboundMessage} (hm : m.userId = none) (hclean : w.duty.clean = true) :
    T.contract.Keeps (T.Holds w) (enqueue m) := by
  refine Keeps.bind (Spec.modify fun s t h => ?_) fun _ => keeps_drainOutboundQueue hO hclean
  have hview := view_push (s := s) hm
  exact ⟨evolves_of_view hview, h.unseen hview (h.sound.congr rfl)⟩

omit hO in
theorem view_replay (s : Client) : s.replay.view
    = { s.view with queue := s.view.ledger ++ s.view.queue, ledger := [] } := by
  have hids : (s.unackedLedger.entries.map fun e => OutboundMessage.userMessage e.2.text e.1).filterMap
      OutboundMessage.userId = s.ledgerIds := by
    rw [List.filterMap_map, Client.ledgerIds, OrderedMap.keys, ← List.filterMap_eq_map]
    rfl
  calc s.replay.view
      _ = { s.view with queue := s.replay.queuedIds, ledger := [] } := rfl
      _ = _ := by
        rw [Client.queuedIds, Client.replay, List.filterMap_append, hids]
        rfl

omit hO in
theorem Sound.clean {s : Client} {b : Bool} (h : Sound w s) (hb : w.draining = true → b = true) :
    Sound { w with duty := { w.duty with clean := b } } s :=
  ⟨h.flows, h.draining, h.socket, h.offline, h.keyed, h.pinned, h.resting, hb⟩

/-- Code that runs over a replayed ledger, in a mode that need not know. -/
theorem Terms.Holds.unclean {s : Client} {t : List Out}
    (h : T.Holds { w with duty := { w.duty with clean := true } } s t) (hw : w.draining = true →
      w.duty.clean = true) : T.Holds w s t :=
  h.change hO (h.sound.clean hw) (.unclean w.duty.clean rfl)

theorem keeps_flushQueue (hw : w.draining = true → w.duty.clean = true) :
    T.contract.Keeps (T.Holds w) flushQueue := by
  refine Keeps.get fun _ => Keeps.onlyIf ?_
  let replayed : Mode := { w with duty := { w.duty with clean := true } }
  refine Spec.bind (Q := fun _ => T.Holds replayed) (Spec.modify fun s t h => ?_) fun _ => ?_
  · have hs := h.sound
    have hsound : Sound w s.replay :=
      ⟨hs.flows, hs.draining, hs.socket, hs.offline, hs.keyed,
        fun x hx => ⟨fun e hget => (nomatch hget), (hs.pinned x hx).session⟩, hs.resting, hs.busy⟩
    have hreplay : T.Holds w s.replay t := by
      refine h.change hO hsound ?_
      rw [view_replay]
      exact .replay
    refine ⟨⟨fun h => h, fun _ => Or.inl⟩, hreplay.change hO (hsound.clean fun _ => rfl) (.cleanEmpty ?_)⟩
    rw [view_replay]
  · refine Spec.post (keeps_drainOutboundQueue hO rfl) fun _ s t h => ?_
    exact Terms.Holds.unclean hO h hw

/-! ### Live retry -/

omit hO in
theorem retryFence_iff {v s : Client} {id : WireId} {stamp : Nat} : v.retryFence s id stamp = true ↔
    s.ledgerHolds id stamp = true ∧ s.sessionKey = v.sessionKey
      ∧ s.connectionEpoch = v.connectionEpoch ∧ s.ackStallMutationEpoch = v.ackStallMutationEpoch
      ∧ s.liveRetryTimerGeneration = v.liveRetryTimerGeneration ∧ s.live = true := by
  simp [Client.retryFence, and_assoc]

theorem keeps_retryEntry (hclean : w.duty.clean = true) (id : WireId) (entry : UnackedLedgerEntry)
    (hid : ∀ x, w.pin = some x → x.id ≠ id) :
    T.contract.Keeps (T.Holds w) (retryEntry id entry) := by
  refine Keeps.get fun v => ?_
  cases hkey : v.sessionKey with
  | none => exact Keeps.pure _
  | some key =>
    refine Keeps.ite (Keeps.pure _) (Keeps.bind (keeps_retryDelay hO _) fun _ => Keeps.get fun _ => ?_)
    refine Keeps.ite (Keeps.pure _) (Keeps.bind (keeps_retryNow hO) fun now => Spec.get fun u => ?_)
    refine Spec.ite (fun _ => Spec.pure fun _ _ h => h.2) fun hu => ?_
    have hfence := retryFence_iff.mp (by simpa using hu)
    obtain ⟨hholds, hukey, hepoch, -, -, hlive⟩ := hfence
    refine Spec.bind (Q := fun _ s t => T.Holds w s t
      ∧ s.view.Presents (.userMessage entry.text id) key v.connectionEpoch) (Spec.modify ?_) fun _ => ?_
    · rintro s t ⟨rfl, h⟩
      obtain ⟨hev, hstamped⟩ := h.stampAttempt id now
      refine ⟨hev, hstamped, ?_⟩
      rw [view_stampAttempt]
      refine ⟨hukey.trans hkey, hepoch, fun _ => hlive, fun id' hid' => ?_⟩
      obtain rfl := Option.some.inj hid'
      exact mem_ledger_of_holds hholds
    refine Spec.bind (keeps_publish hO fun _ => hclean) fun _ => ?_
    refine Keeps.ite (Keeps.pure _) (Keeps.get fun _ => Keeps.ite (Keeps.pure _) ?_)
    exact Keeps.bind (keeps_updateLedger (Or.inr hid)) fun _ => Keeps.pure _

/-- An entry that is due was published before, so it is not the one that is being sealed. -/
theorem keeps_retryLoop (hclean : w.duty.clean = true) (schedulerNow : Int) :
    T.contract.Keeps (T.Holds w) (retryLoop schedulerNow) := by
  refine Keeps.loop fun cursor => Spec.get fun v => ?_
  cases hfind : v.unackedLedger.entries.find? fun e => decide (cursor ≤ e.2.stamp) with
  | none => exact Spec.pure fun _ _ h => h.2
  | some found =>
    obtain ⟨id, entry⟩ := found
    refine Spec.ite (fun _ => Spec.pure fun _ _ h => h.2) fun hdue => ?_
    have hget : v.unackedLedger.get id = some entry :=
      OrderedMap.mem_entries.mp (List.mem_of_find?_eq_some hfind)
    by_cases hid : ∀ x, w.pin = some x → x.id ≠ id
    · refine Spec.bind ((keeps_retryEntry hO hclean id entry hid).pre fun _ _ h => h.2) fun _ => ?_
      exact Keeps.ite (Keeps.pure _) (Keeps.pure _)
    · push Not at hid
      obtain ⟨x, hx, hxid⟩ := hid
      refine Spec.vacuous ?_
      rintro s t ⟨rfl, h⟩
      obtain ⟨-, hretry⟩ := (h.sound.pinned x hx).entry entry (hxid ▸ hget)
      simp [hretry] at hdue

theorem keeps_retryDueUnacked (hclean : w.duty.clean = true) :
    T.contract.Keeps (T.Holds w) retryDueUnacked := by
  refine Keeps.get fun _ => Keeps.onlyIf (Keeps.bind (keeps_retryNow hO) fun _ => Keeps.get fun _ => ?_)
  refine Keeps.onlyIf (Keeps.ite ?_ ?_)
  · refine Keeps.bind (keeps_quiet fun _ => rfl) fun _ => ?_
    exact Keeps.bind (keeps_requestApplicationRecovery hO) fun _ => Keeps.pure _
  · exact Keeps.bind (keeps_retryLoop hO hclean _) fun _ => Keeps.onlyIf (keeps_armLiveRetryTimer hO)

/-! ### Results -/

/-- A result frame: its ids leave the ledger at once, then each is settled; `left v ids` is the
mode while `ids` are to be settled, for the state `v` that the frame found. -/
theorem spec_drainOwnedResult {P : Client → List Out → Prop} {frame : List WireId}
    {apply : WireId → Code Unit} (left : Client → List WireId → Mode) (hend : ∀ v, left v [] = w)
    (hdetach : ∀ s t, P s t → T.Holds (left s frame) (s.detach frame) t)
    (happly : ∀ v id ids, T.contract.Spec (T.Holds (left v (id :: ids))) (apply id)
      fun _ => T.Holds (left v ids)) :
    T.contract.Spec P (drainOwnedResult frame apply) fun _ => T.Holds w := by
  refine Spec.get fun v => Spec.bind (Q := fun _ => T.Holds (left v frame)) (Spec.modify ?_) fun _ => ?_
  · rintro s t ⟨rfl, h⟩
    exact ⟨⟨fun h => h, fun _ => Or.inl⟩, hdetach s t h⟩
  have heach : T.contract.Spec (T.Holds (left v frame)) (each apply frame) fun _ => T.Holds w := by
    rw [← hend v]
    exact Spec.each (J := fun ids => T.Holds (left v ids)) (happly v)
  refine Spec.ite (fun _ => heach) fun _ => ?_
  refine Spec.bind (keeps_quiet fun _ => rfl) fun _ => Spec.get fun _ => ?_
  refine Spec.bind (Q := fun _ => T.Holds (left v frame)) ?_ fun _ => ?_
  · exact Spec.pre (Keeps.onlyIf (keeps_quiet fun _ => rfl)) fun _ _ h => h.2
  refine Spec.bind (keeps_cancelLiveRetryTimer hO) fun _ => ?_
  refine Spec.bind (Q := fun _ => T.Holds (left v frame))
    (Keeps.ite (keeps_commitResultTime hO v _) (Keeps.pure _)) fun _ => ?_
  refine Spec.bind heach fun _ => Keeps.onSome fun _ => ?_
  exact Keeps.get fun _ => Keeps.onlyIf (keeps_armLiveRetryTimer hO)

omit hO in
theorem view_detach (s : Client) (frame : List WireId) :
    (s.detach frame).view = { s.view with ledger := s.view.ledger.filter (· ∉ frame) } := by
  have hkeys : (frame.foldl (·.delete ·) s.unackedLedger).keys
      = s.view.ledger.filter (· ∉ frame) := OrderedMap.keys_foldl_delete _ _
  rw [← hkeys]
  rfl

omit hO in
theorem Sound.detach {s : Client} (h : Sound w s) (frame : List WireId) : Sound w (s.detach frame) := by
  refine ⟨h.flows, h.draining, h.socket, h.offline, h.keyed,
    fun x hx => ⟨fun e hget => ?_, (h.pinned x hx).session⟩, h.resting, h.busy⟩
  simp only [Client.detach, OrderedMap.get_foldl_delete] at hget
  split at hget
  · cases hget
  · exact (h.pinned x hx).entry e hget

omit hO in
theorem taken_cons (ledger taken ids : List WireId) (id : WireId) :
    (id :: ids).filter (· ∈ ledger) ++ taken = id :: (ids.filter (· ∈ ledger) ++ taken)
      ∨ (id :: ids).filter (· ∈ ledger) ++ taken = ids.filter (· ∈ ledger) ++ taken := by
  by_cases hid : id ∈ ledger
  · exact Or.inl (by simp [hid])
  · exact Or.inr (by simp [hid])

theorem spec_drainResult (payload : String) (msg : InboundMessage) :
    T.contract.Spec (fun s t => T.Holds w s t ∧ T.okAnswer s.view (.openMessage payload) (some msg))
      (drainResult msg) fun _ => T.Holds w := by
  cases msg with
  | other => exact Spec.pure fun _ _ h => h.1
  | ack ids =>
    cases ids with
    | none => exact Spec.pure fun _ _ h => h.1
    | some ids =>
      refine spec_drainOwnedResult hO (fun v rest => { w with duty := { w.duty with
        taken := rest.filter (· ∈ v.view.ledger) ++ w.duty.taken
        accepting := rest ++ w.duty.accepting } }) (fun _ => rfl) ?_ ?_
      · rintro s t ⟨h, hok⟩
        refine h.change hO ((h.sound.detach _).duty rfl rfl) ?_
        rw [view_detach]
        exact .detachAck payload ids hok
      · intro v id rest
        exact spec_accept hO id rfl (taken_cons _ _ _ _)
  | inboundRejected overloaded ids =>
    cases overloaded with
    | false => exact Spec.pure fun _ _ h => h.1
    | true =>
      cases ids with
      | none => exact Spec.pure fun _ _ h => h.1
      | some ids =>
        refine spec_drainOwnedResult hO (fun v rest => { w with duty := { w.duty with
          taken := rest.filter (· ∈ v.view.ledger) ++ w.duty.taken
          rejecting := rest ++ w.duty.rejecting } }) (fun _ => rfl) ?_ ?_
        · rintro s t ⟨h, hok⟩
          refine h.change hO ((h.sound.detach _).duty rfl rfl) ?_
          rw [view_detach]
          exact .detachRejected payload ids hok
        · intro v id rest
          exact spec_reject hO id rfl (taken_cons _ _ _ _)

theorem keeps_openAndDeliver (payload : String) :
    T.contract.Keeps (T.Holds w) (openAndDeliver payload) := by
  refine Spec.bind (Q := fun msg s t => T.Holds w s t ∧ T.okAnswer s.view (.openMessage payload) msg)
    (Spec.query fun _ _ _ h hok => ⟨h, hok⟩) fun msg => ?_
  cases msg with
  | none => exact Spec.pure fun _ _ h => h.1
  | some msg => exact Spec.bind (spec_drainResult hO payload msg) fun _ => keeps_call hO rfl

theorem keeps_handleRaw (payload : String) : T.contract.Keeps (T.Holds w) (handleRaw payload) :=
  Keeps.get fun _ => Keeps.ite (keeps_openAndDeliver hO payload)
    (Keeps.ite (keeps_quiet fun _ => rfl) (keeps_quiet fun _ => rfl))

theorem keeps_drainPendingInbound : T.contract.Keeps (T.Holds w) drainPendingInbound := by
  refine Keeps.get fun _ => Keeps.onlyIf (Keeps.bind (keeps_quiet fun _ => rfl) fun _ => ?_)
  exact Keeps.each fun payload => Keeps.get fun _ => Keeps.onlyIf (keeps_openAndDeliver hO payload)

end Rules

end Webchannel.Session
