import Webchannel.Session.Arming

/-!
# The browser client: sealing leaves the ledger covered

A message that is sealed is in the ledger before it is published, and the timer is armed after
that, unless a listener of its send state did so first. A publish that fails ends the session.
-/

namespace Webchannel.Session.Retry

open Webchannel.Reentrant Prog Contract

variable {o : Options} {p : Place} {c c' : Client} {w : Watch}

/-! ### Send states -/

theorem holds_emitSendState (id : WireId) (state : SendState) (failure : Option SendFailure) :
    Holds o (Kept o p) (emitSendState id state failure) := by
  refine Preserves.bind (holds_modify overlooks_kept fun _ => rfl) fun _ => Preserves.get fun c => Preserves.onlyIf ?_
  refine Preserves.bind (holds_modify overlooks_kept fun _ => rfl) fun _ => ?_
  refine Preserves.bind (Preserves.whileTrue ?_) fun _ => holds_modify overlooks_kept fun _ => rfl
  refine Meets.pre (P := Kept o p) (Preserves.get fun c => ?_) fun x hx => hx.1
  cases c.pendingSendStateEvents with
  | nil => exact Preserves.pure ()
  | cons event rest =>
    refine Preserves.bind (holds_modify overlooks_kept fun _ => rfl) fun _ => ?_
    exact holds_call rfl (fun _ _ => rfl) fun _ => trivial

theorem holds_trackerAdvance (id : WireId) (next : SendState) : Holds o (Kept o p) (trackerAdvance id next) := by
  refine Preserves.get fun c => ?_
  cases c.sendTracker.get id with
  | none => exact Preserves.pure ()
  | some entry =>
    exact Preserves.onlyIf (Preserves.bind (holds_modify overlooks_kept fun _ => rfl) fun _ => holds_emitSendState id _ _)

theorem holds_trackerFail (id : WireId) (failure : SendFailure) : Holds o (Kept o p) (trackerFail id failure) := by
  refine Preserves.get fun c => ?_
  cases c.sendTracker.get id with
  | none => exact Preserves.pure ()
  | some entry =>
    exact Preserves.onlyIf (Preserves.bind (holds_modify overlooks_kept fun _ => rfl) fun _ => holds_emitSendState id _ _)

theorem holds_failSend (reason : FailureReason) (retryable : Bool) (id : WireId) :
    Holds o (Kept o p) (failSend reason retryable id) :=
  Preserves.get fun _ => holds_trackerFail id _

theorem holds_finishPostSeal (evicted : List WireId) : Holds o (Kept o p) (finishPostSeal evicted) :=
  Preserves.each fun id => holds_failSend .evicted true id

/-! ### Another ledger -/

/-- What a function reads of the agenda is what it reads of the client. -/
theorem eq_of_agenda {α : Type} (f : Client → α) (hf : ∀ c : Client, f c.agenda = f c) (h : c'.agenda = c.agenda) :
    f c' = f c := by
  rw [← hf c', ← hf c, h]

theorem Steady.ledger (h : Steady o c w) {m : OrderedMap WireId UnackedLedgerEntry}
    (hplanned : ∀ id entry, m.get id = some entry → entry.published = true → entry.nextRetryAt.isSome = true)
    (hbounded : m.size ≤ maxUnacked) : Steady o { c with unackedLedger := m } w :=
  ⟨h.options, ⟨h.timers.held, h.timers.drawn, h.timers.scheduled, h.timers.nodup⟩, hplanned, hbounded, h.recoveries⟩

theorem Ready.ledger (h : Ready o p (c, w)) {m : OrderedMap WireId UnackedLedgerEntry}
    (hplanned : ∀ id entry, m.get id = some entry → entry.published = true → entry.nextRetryAt.isSome = true)
    (hbounded : m.size ≤ maxUnacked) : Ready o p ({ c with unackedLedger := m }, w) :=
  ⟨⟨h.sound.steady.ledger hplanned hbounded, ⟨h.sound.linked.session, h.sound.linked.terminal⟩, h.sound.counted⟩, h.calls⟩

/-- An entry is changed in place. -/
theorem Ready.updateLedger (h : Ready o p (c, w)) {id : WireId} {f : UnackedLedgerEntry → UnackedLedgerEntry}
    (hf : ∀ entry, c.unackedLedger.get id = some entry → (f entry).published = true → (f entry).nextRetryAt.isSome = true) :
    Ready o p (c.updateLedger id f, w) := by
  unfold Client.updateLedger
  cases hget : c.unackedLedger.get id with
  | none => exact h
  | some entry =>
    have hkeys : (c.unackedLedger.set id (f entry)).keys = c.unackedLedger.keys :=
      OrderedMap.keys_set_of_has _ (by simp [OrderedMap.has, hget])
    refine h.ledger (fun id' entry' hget' hpublished => ?_) ?_
    · rw [OrderedMap.get_set_eq] at hget'
      split at hget'
      · obtain rfl := Option.some.inj hget'
        exact hf entry hget hpublished
      · exact h.sound.steady.planned id' entry' hget' hpublished
    · rw [← OrderedMap.length_keys, hkeys, OrderedMap.length_keys]
      exact h.sound.steady.bounded

theorem agenda_stampAttempt (c : Client) (id : WireId) (attemptAt : Int) : (c.stampAttempt id attemptAt).agenda = c.agenda := by
  unfold Client.stampAttempt
  split <;> rfl

/-! ### The message is recorded -/

theorem leads_recordUnacked (id : WireId) (text : String) :
    Leads o (· = (c, w)) (recordUnacked id text) fun _ x => x = ((c.record id text).evict, w) := by
  refine Meets.get fun _ => ?_
  refine Meets.bind (Q := fun _ x => x = (c.record id text, w)) (Meets.modify ?_) fun _ => Meets.get fun _ => ?_
  · rintro s g ⟨-, heq⟩
    obtain ⟨rfl, rfl⟩ := Prod.mk.inj heq
    exact ⟨trivial, rfl⟩
  refine Meets.bind (Q := fun _ x => x = ((c.record id text).evict, w)) (Meets.modify ?_) fun _ => Meets.pure fun _ h => h
  rintro s g ⟨-, heq⟩
  obtain ⟨rfl, rfl⟩ := Prod.mk.inj heq
  exact ⟨trivial, rfl⟩

/-- The cap. -/
theorem size_evict (c : Client) : c.evict.unackedLedger.size ≤ maxUnacked := by
  have hkeys : c.evict.unackedLedger.keys = c.ledgerIds.drop (c.ledgerIds.length - maxUnacked) := by
    show (c.overflow.foldl (·.delete ·) c.unackedLedger).keys = _
    rw [OrderedMap.keys_foldl_delete]
    exact filter_not_mem_take (OrderedMap.keys_nodup _) _
  rw [← OrderedMap.length_keys, hkeys, List.length_drop]
  omega

/-- The message that was recorded is not among the oldest ones. -/
theorem get_evict_record (hbounded : c.unackedLedger.size ≤ maxUnacked) (id : WireId) (text : String) :
    ((c.record id text).evict.unackedLedger.get id).isSome = true := by
  show (((c.record id text).overflow.foldl (·.delete ·) (c.record id text).unackedLedger).get id).isSome = true
  have hpos : 0 < maxUnacked := by decide
  cases hhas : c.unackedLedger.has id with
  | true =>
    have hrecord : c.record id text = c := if_pos hhas
    have hoverflow : c.overflow = [] := by
      have hlength : c.ledgerIds.length ≤ maxUnacked := by
        rw [Client.ledgerIds, OrderedMap.length_keys]
        exact hbounded
      rw [Client.overflow, Nat.sub_eq_zero_of_le hlength, List.take_zero]
    rw [hrecord, hoverflow]
    exact hhas
  | false =>
    have hrecord : (c.record id text).unackedLedger = c.unackedLedger.set id ⟨c.nextStamp, text, 0, none, false⟩ := by
      rw [Client.record, hhas]
      rfl
    have hids : (c.record id text).ledgerIds = c.ledgerIds ++ [id] := by
      rw [Client.ledgerIds, hrecord]
      exact OrderedMap.keys_set_of_not_has _ hhas
    have hnot : id ∉ (c.record id text).overflow := by
      rw [Client.overflow, hids, List.length_append, List.length_singleton, List.take_append_of_le_length (by omega)]
      intro hmem
      have hold : c.unackedLedger.has id = true := OrderedMap.mem_keys.mp (List.mem_of_mem_take hmem)
      rw [hhas] at hold
      cases hold
    rw [OrderedMap.get_foldl_delete, if_neg hnot, hrecord, OrderedMap.get_set_self]
    rfl

theorem Ready.record (h : Ready o p (c, w)) (id : WireId) (text : String) : Ready o p ((c.record id text).evict, w) := by
  have hplanned (id' : WireId) (entry : UnackedLedgerEntry)
      (hget : (c.record id text).evict.unackedLedger.get id' = some entry) (hpublished : entry.published = true) :
      entry.nextRetryAt.isSome = true := by
    have hget' : ((c.record id text).overflow.foldl (·.delete ·) (c.record id text).unackedLedger).get id' = some entry := hget
    rw [OrderedMap.get_foldl_delete] at hget'
    split at hget'
    · cases hget'
    unfold Client.record at hget'
    split at hget'
    · exact h.sound.steady.planned id' entry hget' hpublished
    · rw [OrderedMap.get_set_eq] at hget'
      split at hget'
      · obtain rfl := Option.some.inj hget'
        cases hpublished
      · exact h.sound.steady.planned id' entry hget' hpublished
  refine (h.ledger hplanned (size_evict _)).congr ?_
  unfold Client.record
  split <;> rfl

/-! ### The message is published -/

theorem sealFence_of_ownerFence (c : Client) (x : Sealing) :
    c.sealFence { x with mutationEpoch := c.ackStallMutationEpoch } = c.ownerFence x := by
  show (c.ownerFence x && c.ackStallMutationEpoch == c.ackStallMutationEpoch) = c.ownerFence x
  simp

theorem ownerFence_updateLedger {x : Sealing} {id : WireId} {f : UnackedLedgerEntry → UnackedLedgerEntry}
    (hf : ∀ e, (f e).stamp = e.stamp) : (c.updateLedger id f).ownerFence x = c.ownerFence x := by
  have hepoch : (c.updateLedger id f).ackStallMutationEpoch = c.ackStallMutationEpoch := by
    unfold Client.updateLedger
    split <;> rfl
  rw [← sealFence_of_ownerFence, ← sealFence_of_ownerFence, hepoch]
  exact sealFence_updateLedger hf

theorem live_of_ownerFence {x : Sealing} (h : c.ownerFence x = true) : c.live = true := (ownerFence_iff.mp h).2.2.2

/-- The entry of the message has a time for its retry. -/
def Planned (x : Sealing) (c : Client) : Prop := ∃ entry, c.unackedLedger.get x.id = some entry ∧ entry.nextRetryAt.isSome = true

/-- The message has been written, and the entry is still its own. -/
structure Written (o : Options) (p : Place) (x : Sealing) (y : Client × Watch) : Prop where
  ready : Ready o p y
  owner : y.1.ownerFence x = true
  planned : Planned x y.1
  waiting : Waiting y.2.clock y.2.log

theorem Written.clock {x : Sealing} (h : Written o p x (c, w)) {now : Int} (hnow : w.clock ≤ now) :
    Written o p x (c, { w with clock := now }) :=
  ⟨h.ready.watch (w := w) rfl rfl rfl, h.owner, h.planned, h.waiting.mono hnow⟩

theorem Written.confirm {x : Sealing} (h : Written o p x (c, w)) :
    Written o p x (c.updateLedger x.id fun e => { e with published := true }, w) := by
  obtain ⟨entry, hget, hnext⟩ := h.planned
  refine ⟨h.ready.updateLedger fun entry' hget' _ => ?_, ?_, ?_, h.waiting⟩
  · rw [hget] at hget'
    obtain rfl := Option.some.inj hget'
    exact hnext
  · exact (ownerFence_updateLedger (f := fun e => { e with published := true }) fun _ => rfl).trans h.owner
  · refine ⟨{ entry with published := true }, ?_, hnext⟩
    show (Client.updateLedger c x.id _).unackedLedger.get x.id = _
    rw [Client.updateLedger, show c.unackedLedger.get x.id = some entry from hget]
    exact OrderedMap.get_set_self ..

/-- The stall is counted from the time that is read after the write. -/
theorem Written.counted {x : Sealing} (h : Written o p x (c, w))
    (hcond : (c.ackStallSinceAt.isNone && !c.ackStallRecoveryIssued) = true) :
    Written o p x ({ c with
      ackStallMutationEpoch := c.ackStallMutationEpoch + 1
      ackStallSinceAt := some w.clock
      ackStallRecoveryIssued := false }, w) := by
  have hsound := h.ready.sound
  simp only [Bool.and_eq_true, Bool.not_eq_true'] at hcond
  have hunspent : Unspent w.log := by
    rcases hsound.counted with hterminal | hissued | ⟨hunspent, -⟩
    · cases hterminal.symm.trans (not_terminal_of_live (live_of_ownerFence h.owner))
    · cases hissued.symm.trans hcond.2
    · exact hunspent
  refine ⟨⟨⟨hsound.steady.rest rfl, ⟨hsound.linked.session, hsound.linked.terminal⟩, .inr (.inr ⟨hunspent, ?_⟩)⟩,
    h.ready.calls⟩, h.owner, h.planned, h.waiting⟩
  intro since hsince
  obtain rfl := Option.some.inj hsince
  exact h.waiting

theorem leads_confirmOwnership (x : Sealing) : Leads o (Written o p x) (confirmOwnership x) fun schedule y =>
    schedule = some (y.1.ackStallMutationEpoch, y.1.captureLedgerScheduling) ∧ Ready o p y ∧ y.1.ownerFence x = true := by
  refine Meets.get fun c => Meets.ite (fun _ => ?_) fun hlost => Meets.of_fact (F := False) ?_ False.elim
  swap
  · rintro y ⟨rfl, h⟩
    exact hlost h.owner
  refine Meets.bind (Q := fun _ => Written o p x) (Meets.modify fun s g h => ⟨trivial, h.2.confirm⟩) fun _ => Meets.get fun c => ?_
  refine Meets.bind (Q := fun now y => Written o p x y ∧ y.1 = c ∧ y.2.clock = now) (leads_retryNow ?_) fun now => ?_
  · rintro s g now ⟨rfl, h⟩ hnow
    exact ⟨h.clock hnow, rfl, rfl⟩
  refine Meets.get fun c' => Meets.ite (fun _ => ?_) fun hlost => Meets.of_fact (F := False) ?_ False.elim
  swap
  · rintro y ⟨rfl, h, rfl, -⟩
    refine hlost ?_
    rw [h.owner]
    simp
  refine Meets.bind (Q := fun _ => Written o p x) (Meets.onlyIf (fun hcond => Meets.modify ?_) fun _ y h => h.2.1) fun _ => ?_
  · rintro s g ⟨rfl, h, -, rfl⟩
    exact ⟨trivial, h.counted hcond⟩
  · refine Meets.get fun c => Meets.pure ?_
    rintro y ⟨rfl, h⟩
    exact ⟨rfl, h.ready, h.owner⟩

/-- A listener of the send state has armed the timer itself, or it has left alone what the program
compares. -/
theorem leads_confirmPublished (x : Sealing) : Leads o (Written o p x) (confirmPublished x) fun _ => Kept o p := by
  refine Meets.bind (leads_confirmOwnership x) fun schedule => Meets.each_state ?_
  rintro ⟨c, w⟩ ⟨rfl, hready, howner⟩
  refine Meets.bind (Q := fun _ => Kept o ⟨p.calls, some c⟩) ((holds_trackerAdvance x.id .sent).pre ?_) fun _ => ?_
  · rintro y rfl
    exact ⟨hready.sound, hready.calls, .inr ⟨c, rfl, rfl⟩⟩
  have hback : ∀ y, Kept o ⟨p.calls, some c⟩ y → Ready o p y := fun y h => ⟨h.sound, h.calls⟩
  refine Meets.get fun c' => Meets.onlyIf (fun _ => leads_armLiveRetryTimer.pre fun y h => hback y h.2) ?_
  rintro hmoved y ⟨rfl, h⟩
  refine (hback y h).kept (h.armed.resolve_right ?_)
  rintro ⟨v, hv, hagenda⟩
  obtain rfl := Option.some.inj hv
  let check (v : Client) : Bool := v.ownerFence x && v.ackStallMutationEpoch == c.ackStallMutationEpoch
    && v.ledgerSchedulingMatches c.captureLedgerScheduling
  have hsame : check y.1 = check c := eq_of_agenda check (fun _ => rfl) hagenda
  have hcheck : check c = true := by
    show (c.ownerFence x && c.ackStallMutationEpoch == c.ackStallMutationEpoch && _) = true
    rw [howner, ledgerSchedulingMatches_self]
    simp
  cases hmoved.symm.trans (hsame.trans hcheck)

/-- A state from which a publish of a session that is live has to end the session or to go out. -/
theorem Ready.connection (h : Ready o p (c, w)) {key : SessionKey} (hkey : c.sessionKey = some key) (hlive : c.live = true) :
    (c.connected && c.ws.isSome) = true := by
  obtain ⟨hconnected, hws⟩ := h.sound.socket (by simp [hkey]) hlive
  rw [hconnected, hws]
  rfl

/-- The message may be published: it is recorded, and nothing has moved since. -/
structure Sealed (o : Options) (p : Place) (x : Sealing) (y : Client × Watch) : Prop where
  ready : Ready o p y
  fence : y.1.sealFence x = true

theorem Sealed.owner {x : Sealing} (h : Sealed o p x (c, w)) : c.ownerFence x = true := (sealFence_iff.mp h.fence).1

theorem Sealed.clock {x : Sealing} (h : Sealed o p x (c, w)) (now : Int) : Sealed o p x (c, { w with clock := now }) :=
  ⟨h.ready.watch (w := w) rfl rfl rfl, h.fence⟩

theorem Sealed.plan {x : Sealing} (h : Sealed o p x (c, w)) (due : Int) :
    Sealed o p x (c.updateLedger x.id fun e => { e with nextRetryAt := some due }, w) ∧
      Planned x (c.updateLedger x.id fun e => { e with nextRetryAt := some due }) := by
  refine ⟨⟨h.ready.updateLedger fun _ _ _ => rfl, ?_⟩, ?_⟩
  · exact (sealFence_updateLedger (f := fun e => { e with nextRetryAt := some due }) fun _ => rfl).trans h.fence
  · have hholds : c.ledgerHolds x.id x.stamp = true := (ownerFence_iff.mp h.owner).1
    cases hget : c.unackedLedger.get x.id with
    | none => simp [Client.ledgerHolds, hget] at hholds
    | some entry =>
      refine ⟨{ entry with nextRetryAt := some due }, ?_, rfl⟩
      rw [Client.updateLedger, hget]
      exact OrderedMap.get_set_self ..

theorem Sealed.stamp {x : Sealing} (h : Sealed o p x (c, w)) (attemptAt : Int) :
    Sealed o p x (c.stampAttempt x.id attemptAt, w) :=
  ⟨h.ready.congr (agenda_stampAttempt c x.id attemptAt), (sealFence_stampAttempt c x x.id attemptAt).trans h.fence⟩

theorem Planned.stamp {x : Sealing} (h : Planned x c) (attemptAt : Int) : Planned x (c.stampAttempt x.id attemptAt) := by
  unfold Client.stampAttempt
  split
  · exact h
  · exact h

/-- What is written may be confirmed. -/
theorem Sealed.written {x : Sealing} (h : Sealed o p x (c, w)) (hplanned : Planned x c) :
    Written o p x (c, w.acted c (.wire (.pub (.userMessage x.text x.id) x.key x.epoch))) :=
  ⟨⟨h.ready.sound.publishedMark x.id, h.ready.calls⟩, h.owner, hplanned, .inl ⟨le_refl _, .inl ⟨x.id, rfl⟩⟩⟩

theorem leads_attemptPublish (hp : p.Calm) (x : Sealing) (initialRetryDelay : Option Int) :
    Leads o (fun y => Sealed o p x y ∧ (initialRetryDelay = none → Planned x y.1)) (attemptPublish x initialRetryDelay)
      fun _ => Kept o p := by
  refine Meets.bind (Q := fun _ y => Sealed o p x y ∧ (initialRetryDelay = none → Planned x y.1))
    (leads_retryNow fun c w now h _ => ⟨h.1.clock now, h.2⟩) fun attemptAt => ?_
  refine Meets.get fun c => Meets.ite (fun hlost => Meets.of_fact (F := False) ?_ False.elim) fun _ => ?_
  · rintro y ⟨rfl, h, -⟩
    rw [h.fence] at hlost
    cases hlost
  let planned (y : Client × Watch) : Prop := Sealed o p x y ∧ Planned x y.1
  refine Meets.bind (Q := fun _ => planned) (Meets.modify ?_) fun _ => ?_
  · rintro s w ⟨rfl, h, hplanned⟩
    refine ⟨trivial, ?_⟩
    cases initialRetryDelay with
    | none => exact ⟨h, hplanned rfl⟩
    | some delay => exact h.plan (attemptAt + delay)
  refine Meets.bind (Q := fun _ => planned) (Meets.modify fun s w h => ⟨trivial, h.1.stamp attemptAt, h.2.stamp attemptAt⟩)
    fun _ => ?_
  refine Meets.get fun c => Meets.ite (fun hlost => Meets.of_fact (F := False) ?_ False.elim) fun _ => Meets.each_state ?_
  · rintro y ⟨rfl, h, -⟩
    rw [h.fence] at hlost
    cases hlost
  rintro ⟨c, w⟩ ⟨-, h, hplanned⟩
  have hdue (text : String) (id : WireId) (_ : OutboundMessage.userMessage x.text x.id = .userMessage text id)
      (hretry : w.inRetry = true) : DueRetry c w text id := by
    rw [inRetry_of_calm hp h.ready.calls] at hretry
    cases hretry
  refine Meets.bind (leads_publish (.userMessage x.text x.id) x.key x.epoch h.ready hdue) fun ok => ?_
  refine Meets.bind (Q := fun _ => Kept o p) (Meets.onlyIf ?_ ?_) fun _ => holds_finishPostSeal x.evicted
  · rintro rfl
    refine (leads_confirmPublished x).pre ?_
    rintro y rfl
    exact h.written hplanned
  · rintro rfl y (hkept | ⟨-, hoff⟩)
    · exact hkept
    · obtain ⟨-, hkey, -, hlive⟩ := ownerFence_iff.mp h.owner
      cases (h.ready.connection hkey hlive).symm.trans hoff

/-- A session that is current for the message. -/
theorem leads_sealUserMessage (hp : p.Calm) (key : SessionKey) (text : String) (id : WireId) :
    Leads o (fun y => Ready o p y ∧ y.1.sessionKey = some key) (sealUserMessage key text id) fun _ => Kept o p := by
  refine Meets.get fun c => Meets.each_state ?_
  rintro ⟨s, w⟩ ⟨hs, hready, hkey⟩
  obtain rfl : s = c := hs
  let recorded : Client := (s.record id text).evict
  have hready' : Ready o p (recorded, w) := hready.record id text
  have hsame : recorded.sessionKey = s.sessionKey ∧ recorded.connectionEpoch = s.connectionEpoch ∧
      recorded.ackStallMutationEpoch = s.ackStallMutationEpoch := by
    show (s.record id text).evict.sessionKey = _ ∧ (s.record id text).evict.connectionEpoch = _ ∧
      (s.record id text).evict.ackStallMutationEpoch = _
    unfold Client.record
    split <;> exact ⟨rfl, rfl, rfl⟩
  refine Meets.bind (leads_recordUnacked id text) fun r => Meets.get fun c' => ?_
  refine Meets.of_fact (F := c' = recorded) (fun y hy => hy.1.symm.trans (congrArg Prod.fst hy.2)) ?_
  rintro rfl
  cases hget : recorded.unackedLedger.get id with
  | none =>
    refine Meets.of_fact (F := False) (fun _ _ => ?_) False.elim
    have hsome := get_evict_record hready.sound.steady.bounded id text
    rw [show (s.record id text).evict.unackedLedger.get id = none from hget] at hsome
    cases hsome
  | some entry =>
    let x : Sealing := ⟨id, text, key, s.connectionEpoch, s.ackStallMutationEpoch, entry.stamp, r.2, r.1⟩
    have hfence : recorded.sealFence x = recorded.live := by
      rw [Client.sealFence, Client.ownerFence, Client.ledgerHolds, hget, hsame.1, hsame.2.1, hsame.2.2,
        show s.sessionKey = some key from hkey]
      simp [x]
    refine Meets.get fun c'' => ?_
    refine Meets.of_fact (F := c'' = recorded) (fun y hy => hy.1.symm.trans hy.2.1) ?_
    rintro rfl
    refine Meets.ite (fun hdead => ?_) fun hlive => ?_
    · refine (holds_finishPostSeal r.1).pre ?_
      rintro y ⟨-, -, rfl⟩
      refine hready'.kept (armed_of_dead ?_)
      rw [← hfence]
      exact (Bool.not_eq_true' _).mp hdead
    have hsealed : recorded.sealFence x = true := by simpa using hlive
    refine Meets.ite (fun hplanned => ?_) fun _ => ?_
    · refine (leads_attemptPublish hp x none).pre ?_
      rintro y ⟨-, -, rfl⟩
      exact ⟨⟨hready', hsealed⟩, fun _ => ⟨entry, hget, hplanned⟩⟩
    · let still (y : Client × Watch) : Prop := y = (recorded, w)
      refine Meets.bind (Q := fun _ => still) ((holds_retryDelay entry.retryCount).pre fun y hy => hy.2.2) fun delay => ?_
      refine Meets.get fun u => Meets.ite (fun hlost => Meets.of_fact (F := False) ?_ False.elim) fun _ => ?_
      · rintro y ⟨rfl, rfl⟩
        rw [hsealed] at hlost
        cases hlost
      · refine (leads_attemptPublish hp x (some delay)).pre ?_
        rintro y ⟨-, rfl⟩
        exact ⟨⟨hready', hsealed⟩, fun hnone => by cases hnone⟩

/-! ### Queue -/

theorem holds_publish_control (message : OutboundMessage) (key : SessionKey) (epoch : Nat) (hcontrol : message.userId = none) :
    Holds o (Kept o p) (publish message key epoch) := by
  refine Meets.each_state ?_
  rintro ⟨c, w⟩ hkept
  have hnot (text : String) (id : WireId) : message ≠ .userMessage text id := by
    rintro rfl
    cases hcontrol
  refine (leads_publish message key epoch hkept.ready fun text id hmessage _ => absurd hmessage (hnot text id)).post ?_
  rintro (_ | _) y hy
  · rcases hy with hy | ⟨rfl, -⟩
    · exact hy
    · exact hkept.watch (w := w) rfl rfl rfl
  · obtain rfl : y = _ := hy
    cases message with
    | userMessage text id => exact absurd rfl (hnot text id)
    | approvalDecision id decision => exact hkept
    | loadHistory before limit => exact hkept
    | loadCommands => exact hkept

theorem holds_sealOutbound (hp : p.Calm) (message : OutboundMessage) : Holds o (Kept o p) (sealOutbound message) := by
  refine Meets.get fun c => ?_
  cases hkey : c.sessionKey with
  | none => exact Meets.modify fun s w h => ⟨trivial, overlooks_kept s (s.push message) w rfl h.2⟩
  | some key =>
    have hcontrol (hmessage : message.userId = none) : Leads o (fun y => y.1 = c ∧ Kept o p y) (do
        let _ ← publish message key c.connectionEpoch
        pure ()) fun _ => Kept o p :=
      Meets.bind ((holds_publish_control message key c.connectionEpoch hmessage).pre fun y hy => hy.2) fun _ => Preserves.pure ()
    cases message with
    | userMessage text id =>
      refine (leads_sealUserMessage hp key text id).pre ?_
      rintro y ⟨rfl, h⟩
      exact ⟨h.ready, hkey⟩
    | approvalDecision id decision => exact hcontrol rfl
    | loadHistory before limit => exact hcontrol rfl
    | loadCommands => exact hcontrol rfl

theorem holds_drainOutboundQueue (hp : p.Calm) : Holds o (Kept o p) drainOutboundQueue := by
  refine Preserves.get fun c => Preserves.onlyIf (Preserves.bind (holds_modify overlooks_kept fun _ => rfl) fun _ => ?_)
  refine Preserves.bind (Preserves.whileTrue ?_) fun _ => holds_modify overlooks_kept fun _ => rfl
  refine Meets.pre (P := Kept o p) (Preserves.get fun c => ?_) fun x hx => hx.1
  cases c.outboundQueue with
  | nil => exact Preserves.pure ()
  | cons message rest => exact Preserves.bind (holds_modify overlooks_kept fun _ => rfl) fun _ => holds_sealOutbound hp message

theorem holds_enqueue (hp : p.Calm) (message : OutboundMessage) : Holds o (Kept o p) (enqueue message) :=
  Preserves.bind (holds_modify overlooks_kept fun _ => rfl) fun _ => holds_drainOutboundQueue hp

/-- Nothing is published once the ledger is back in the queue. -/
theorem leads_flushQueue (hp : p.Calm) : Leads o (Ready o p) flushQueue fun _ => Kept o p := by
  refine Meets.get fun c => Meets.onlyIf (fun _ => ?_) ?_
  · refine Meets.bind (Q := fun _ => Kept o p) (Meets.modify ?_) fun _ => holds_drainOutboundQueue hp
    rintro s w ⟨-, h⟩
    have hempty : Ready o p ({ s with unackedLedger := .empty }, w) := h.ledger (fun _ _ hget => nomatch hget) (Nat.zero_le _)
    have hreplay : Ready o p (s.replay, w) := Ready.congr (c := { s with unackedLedger := .empty }) rfl hempty
    exact ⟨trivial, hreplay.kept (armed_of_unpublished rfl)⟩
  · rintro hkey y ⟨rfl, h⟩
    exact h.kept (armed_of_no_session (by simpa using hkey))

end Webchannel.Session.Retry
