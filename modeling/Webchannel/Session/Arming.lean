import Webchannel.Session.Schedule

/-!
# The browser client: arming the retry timer

The contract of the watched client, and what the programs that work on the timer, the socket, the
queue and the ledger do under it.
-/

namespace Webchannel.Session

/-- A suspended flow of the current epoch has its connection. -/
def Client.Joined (c : Client) : Prop :=
  ∀ flow ∈ c.flows, flow.flow.epoch = c.connectionEpoch → c.connected = true ∧ c.ws.isSome = true

namespace Retry

open Webchannel.Reentrant Prog Contract

/-- What the answers have to be in a run in which every dial keeps the socket of a connection. -/
def Truthful (x : Client × Watch) : (q : Ask) → Answer q → Prop
  | .now, now => x.2.clock ≤ (now : Int)
  | .readyState true, readyState =>
    x.1.connected = true → readyState = ReadyState.open ∨ readyState = ReadyState.connecting
  | _, _ => True

/-- A publish of the retry timer's callback is due. -/
def Punctual (x : Client × Watch) : Out → Prop
  | .wire (.pub (.userMessage text id) _ _) => x.2.inRetry = true → DueRetry x.1 x.2 text id
  | _ => True

def contract (o : Options) : Contract (Client × Watch) Ask Answer Out Entry Place where
  inv p x _ := Kept o p x
  changes _ _ := True
  atAct e x _ := Punctual x e
  okAnswer := Truthful
  okEnter top x _ e := (top = true ∧ x.1.Joined) ∨ e.isPublic = true
  base := .idle
  changes_refl _ := trivial

/-- From `P` the program keeps the contract and ends in `Q`. -/
abbrev Leads {α : Type} (o : Options) (P : Client × Watch → Prop) (prog : Code α) (Q : α → Client × Watch → Prop) : Prop :=
  (contract o).Meets observer P prog Q

/-- The program may start and end wherever `P` holds. -/
abbrev Holds {α : Type} (o : Options) (P : Client × Watch → Prop) (prog : Code α) : Prop :=
  (contract o).Preserves observer P prog

variable {o : Options} {p : Place} {P : Client × Watch → Prop} {c c' : Client} {w : Watch}

/-! ### Steps that the schedule does not see -/

/-- The predicate depends on the agenda and on what was observed. -/
def Overlooks (P : Client × Watch → Prop) : Prop :=
  ∀ c c' w, c'.agenda = c.agenda → P (c, w) → P (c', w)

theorem overlooks_kept : Overlooks (Kept o p) := fun _ _ _ hagenda h => h.congr hagenda

theorem holds_modify (hP : Overlooks P) {f : Client → Client} (hf : ∀ c, (f c).agenda = c.agenda) : Holds o P (modify f) :=
  Meets.modify fun c w hx => ⟨trivial, hP c (f c) w (hf c) hx⟩

/-- A listener other than one for the state of the connection. -/
theorem holds_call {e : Out} (hreturns : e.returns = false) (hacted : ∀ c w, Watch.acted c e w = w)
    (hpunctual : ∀ x, Punctual x e) : Holds o (Kept o p) (call e) := by
  refine Meets.call hreturns fun c w t hx => ⟨trivial, hpunctual _, p, ?_, fun x' t' hx' => hx'⟩
  show Kept o p (c, Watch.acted c e w)
  rw [hacted]
  exact hx

theorem holds_query {q : Ask} (hP : ∀ c w a, P (c, w) → P (c, Watch.answered c q a w)) : Holds o P (query q) :=
  Meets.query fun c w a hx _ => ⟨trivial, hP c w a hx⟩

theorem holds_socketOpen : Holds o P socketOpen :=
  Preserves.bind (holds_query fun _ _ _ h => h) fun _ => Preserves.pure _

/-! ### Hooks -/

theorem leads_retryNow {Q : Int → Client × Watch → Prop}
    (h : ∀ c w now, P (c, w) → w.clock ≤ now → Q now (c, { w with clock := now })) : Leads o P retryNow Q := by
  refine Meets.bind (Q := fun _ => P) (Meets.call_returns rfl fun c w hx => ⟨trivial, fun _ => trivial, hx⟩) fun _ => ?_
  exact Meets.query fun c w now hx hnow => ⟨trivial, h c w now hx hnow⟩

theorem holds_retryDelay (retryCount : Nat) : Holds o P (retryDelay retryCount) := by
  refine Meets.bind (Q := fun _ => P) (Meets.call_returns rfl fun c w hx => ⟨trivial, fun _ => trivial, hx⟩) fun _ => ?_
  exact Preserves.bind (holds_query fun _ _ _ h => h) fun _ => Preserves.pure _

theorem leads_cancelLiveRetryTimer {Q : Nat → Client × Watch → Prop}
    (h : ∀ c w, P (c, w) → Q (c.liveRetryTimerGeneration + 1) (c.cancelled, w.cancelled c)) :
    Leads o P cancelLiveRetryTimer Q := by
  refine Meets.get fun c => ?_
  refine Meets.bind (Q := fun _ x => ∃ w, P (c, w) ∧ x = (c.cancelled, w)) (Meets.modify ?_) fun _ => ?_
  · rintro s w ⟨rfl, hx⟩
    exact ⟨trivial, w, hx, rfl⟩
  refine Meets.bind (Q := fun _ x => ∃ w, P (c, w) ∧ x = (c.cancelled, w.cancelled c)) (Meets.onlyIf ?_ ?_) fun _ => ?_
  · intro hsome
    refine Meets.call_returns rfl ?_
    rintro s w ⟨w₀, hx, heq⟩
    obtain ⟨rfl, rfl⟩ := Prod.mk.inj heq
    refine ⟨trivial, fun _ => trivial, w, hx, Prod.ext rfl ?_⟩
    show ({ w with timers := w.timers.tail } : Watch) = w.cancelled c
    rw [Watch.cancelled, if_pos hsome]
  · rintro hnone x ⟨w, hx, rfl⟩
    refine ⟨w, hx, Prod.ext rfl ?_⟩
    show w = w.cancelled c
    rw [Watch.cancelled, if_neg (Bool.eq_false_iff.mp hnone)]
  · refine Meets.pure ?_
    rintro x ⟨w, hx, rfl⟩
    exact h c w hx

theorem leads_resetSession {Q : Unit → Client × Watch → Prop}
    (h : ∀ c w, P (c, w) → Q () (c.cancelled.reset, w.cancelled c)) : Leads o P resetSession Q := by
  refine Meets.bind (Q := fun _ x => ∃ c w, P (c, w) ∧ x = (c.cancelled, w.cancelled c))
    (leads_cancelLiveRetryTimer fun c w hx => ⟨c, w, hx, rfl⟩) fun _ => Meets.modify ?_
  rintro s g ⟨c, w, hx, heq⟩
  obtain ⟨rfl, rfl⟩ := Prod.mk.inj heq
  exact ⟨trivial, h c w hx⟩

theorem Steady.cancelled (h : Steady o c w) : Steady o c.cancelled (w.cancelled c) := by
  obtain ⟨-, -, -, hlog⟩ := watch_cancelled c w
  exact ⟨h.options, h.timers.cancelled, h.planned, h.bounded, hlog ▸ h.recoveries⟩

theorem Counted.cancelled (h : Counted c w) : Counted c.cancelled (w.cancelled c) := by
  obtain ⟨-, -, -, hlog⟩ := watch_cancelled c w
  rw [Counted, hlog]
  exact h

theorem Ready.cancelled (h : Ready o p (c, w)) : Ready o p (c.cancelled, w.cancelled c) := by
  obtain ⟨-, hcalls, -, -⟩ := watch_cancelled c w
  exact ⟨⟨h.sound.steady.cancelled, ⟨h.sound.linked.session, h.sound.linked.terminal⟩, h.sound.counted.cancelled⟩,
    hcalls.trans h.calls⟩

/-! ### Giving the connection up -/

/-- A recovery that the retry timer's callback begins was earned, and its allowance is spent. -/
def Earned (o : Options) (x : Client × Watch) : Prop :=
  x.2.inRetry = true → x.2.refused = false → x.1.ackStallRecoveryIssued = true ∧ Unspent x.2.log ∧
    0 < o.ackStallTimeoutMs ∧ Waiting (x.2.clock - o.ackStallTimeoutMs) x.2.log

/-- The socket may be gone already while the session is still there. -/
structure Torn (o : Options) (p : Place) (x : Client × Watch) : Prop where
  steady : Steady o x.1 x.2
  terminal : x.1.terminal = true → x.1.terminalReached = true
  counted : Counted x.1 x.2
  calls : x.2.calls = p.calls
  earned : Earned o x

/-- The retry timer's callback is not the innermost call. -/
def Place.Calm (p : Place) : Prop := ∀ generation rest, p.calls ≠ .retryTimer generation :: rest

theorem inRetry_of_calm (hp : p.Calm) (hcalls : w.calls = p.calls) : w.inRetry = false := by
  cases hretry : w.inRetry with
  | false => rfl
  | true =>
    unfold Watch.inRetry at hretry
    split at hretry
    · rename_i generation rest heq
      exact absurd (hcalls.symm.trans heq) (hp generation rest)
    · cases hretry

theorem Ready.torn {x : Client × Watch} (h : Ready o p x) (hearned : Earned o x) : Torn o p x :=
  ⟨h.sound.steady, h.sound.linked.terminal, h.sound.counted, h.calls, hearned⟩

theorem Ready.torn_of_calm (hp : p.Calm) {x : Client × Watch} (h : Ready o p x) : Torn o p x := by
  refine h.torn fun hretry => ?_
  rw [inRetry_of_calm hp h.calls] at hretry
  cases hretry

theorem Torn.cancelled (h : Torn o p (c, w)) : Torn o p (c.cancelled, w.cancelled c) := by
  obtain ⟨hclock, hcalls, hrefused, hlog⟩ := watch_cancelled c w
  refine ⟨h.steady.cancelled, h.terminal, h.counted.cancelled, hcalls.trans h.calls, ?_⟩
  intro hretry hnot
  have hinRetry : (w.cancelled c).inRetry = w.inRetry := by rw [Watch.inRetry, Watch.inRetry, hcalls]
  have hearned := h.earned (hinRetry.symm.trans hretry) (hrefused.symm.trans hnot)
  show c.ackStallRecoveryIssued = true ∧ Unspent (w.cancelled c).log ∧ 0 < o.ackStallTimeoutMs ∧
    Waiting ((w.cancelled c).clock - o.ackStallTimeoutMs) (w.cancelled c).log
  rw [hlog, hclock]
  exact hearned

/-- The session's key is gone with the timer. -/
theorem Torn.reset (h : Torn o p (c, w)) : Torn o p (c.cancelled.reset, w.cancelled c) :=
  ⟨h.cancelled.steady.rest rfl, h.terminal, h.cancelled.counted, h.cancelled.calls, h.cancelled.earned⟩

theorem leads_onRawLoss : Leads o (Torn o p) onRawLoss fun _ x => Torn o p x ∧ x.1.sessionKey = none := by
  refine Meets.bind (Q := fun _ => Torn o p) (Meets.modify fun c w h => ⟨trivial, ?_⟩) fun _ => ?_
  · exact ⟨h.steady.rest rfl, h.terminal, h.counted, h.calls, h.earned⟩
  refine Meets.get fun c => Meets.bind (Q := fun _ => Torn o p) (Meets.onlyIf (fun _ => Meets.modify ?_) ?_) fun _ => ?_
  · rintro c' w ⟨-, h⟩
    exact ⟨trivial, h.steady.rest rfl, h.terminal, .inr (.inl rfl), h.calls,
      fun hretry hrefused => ⟨rfl, (h.earned hretry hrefused).2⟩⟩
  · rintro - x ⟨-, h⟩
    exact h
  · exact leads_resetSession fun c w h => ⟨h.reset, rfl⟩

theorem Torn.congr (h : Torn o p (c, w)) (hagenda : c'.agenda = c.agenda) : Torn o p (c', w) := by
  have hrest : Torn o p (c.agenda, w) := ⟨h.steady.rest rfl, h.terminal, h.counted, h.calls, h.earned⟩
  rw [← hagenda] at hrest
  exact ⟨hrest.steady.rest rfl, hrest.terminal, hrest.counted, hrest.calls, hrest.earned⟩

theorem overlooks_torn : Overlooks (Torn o p) := fun _ _ _ hagenda h => h.congr hagenda

/-- Without a session there is nothing to arm for. -/
theorem Torn.kept (h : Torn o p (c, w)) (hkey : c.sessionKey = none) : Kept o p (c, w) := by
  have hlinked : Linked c := by
    refine ⟨fun hsome => ?_, h.terminal⟩
    rw [hkey] at hsome
    cases hsome
  exact ⟨⟨h.steady, hlinked, h.counted⟩, h.calls, .inl (armed_of_no_session hkey)⟩

/-- The listeners of the state hear of the loss when the session is gone. -/
theorem Torn.told (h : Torn o p (c, w)) (hkey : c.sessionKey = none) (connected : Bool) :
    Kept o p (c, Watch.acted c (.state connected) w) := by
  show Kept o p (c, if w.inRetry && !w.refused then w.mark .recovery else w)
  split
  · rename_i hbegun
    simp only [Bool.and_eq_true, Bool.not_eq_true'] at hbegun
    obtain ⟨hissued, hunspent, hpos, hwaiting⟩ := h.earned hbegun.1 hbegun.2
    exact ⟨⟨h.steady.marked ⟨fun _ => ⟨hunspent, hpos, hwaiting⟩, h.steady.recoveries⟩, (h.kept hkey).sound.linked,
      .inr (.inl hissued)⟩, h.calls, .inl (armed_of_no_session hkey)⟩
  · exact h.kept hkey

theorem leads_notifyRawLoss : Leads o (Torn o p) notifyRawLoss fun _ => Kept o p := by
  refine Meets.bind leads_onRawLoss fun _ => Meets.get fun c => Meets.call rfl ?_
  rintro c' w t ⟨-, h, hkey⟩
  exact ⟨trivial, trivial, p, h.told hkey c.connected, fun x' t' hx' => hx'⟩

theorem leads_rawDisconnect : Leads o (Torn o p) rawDisconnect fun _ => Kept o p :=
  Meets.bind (Q := fun _ => Torn o p) (Meets.modify fun _ _ h =>
    ⟨trivial, h.steady.rest rfl, h.terminal, h.counted, h.calls, h.earned⟩) fun _ => leads_notifyRawLoss

theorem agenda_scheduleReconnect (c : Client) :
    (if c.terminal then c else { c with reconnectTimer := true }).agenda = c.agenda := by
  split <;> rfl

theorem holds_scheduleReconnect (hP : Overlooks P) : Holds o P scheduleReconnect :=
  holds_modify hP agenda_scheduleReconnect

theorem leads_forceReconnect : Leads o (Torn o p) forceReconnect fun _ => Kept o p := by
  refine Meets.bind (Q := fun _ => Torn o p) (Meets.modify fun _ _ h =>
    ⟨trivial, h.steady.rest rfl, h.terminal, h.counted, h.calls, h.earned⟩) fun _ => ?_
  refine Meets.get fun c => Meets.bind (leads_notifyRawLoss.pre fun x hx => hx.2) fun _ => ?_
  exact Preserves.get fun c => Preserves.onlyIf (holds_scheduleReconnect overlooks_kept)

theorem leads_rawReconnect :
    Leads o (fun x => Torn o p x ∧ (x.1.terminal = true → Kept o p x)) rawReconnect fun _ => Kept o p := by
  refine Meets.get fun c => Meets.onlyIf (fun _ => leads_forceReconnect.pre fun x hx => hx.2.1) ?_
  rintro hterminal x ⟨rfl, -, hkept⟩
  exact hkept (by simpa using hterminal)

/-- The public method, and the call of it that the stall check makes. -/
theorem leads_requestApplicationRecovery :
    Leads o (fun x => Ready o p x ∧ Earned o x ∧ (x.1.live = false → Kept o p x)) requestApplicationRecovery
      fun _ => Kept o p := by
  refine Meets.get fun c => Meets.ite (fun hdead => Meets.pure ?_) fun hlive => ?_
  · rintro x ⟨rfl, -, -, hkept⟩
    exact hkept (by simpa using hdead)
  have hlive' : c.live = true := by simpa using hlive
  let still (x : Client × Watch) : Prop := Torn o p x ∧ x.1.connectionEpoch = c.connectionEpoch ∧ x.1.live = true
  refine Meets.bind (Q := fun _ => still) (Meets.onlyIf (fun _ => Meets.modify ?_) ?_) fun _ => ?_
  · rintro c' w ⟨rfl, hready, hearned, -⟩
    exact ⟨trivial, ⟨hready.sound.steady.rest rfl, hready.sound.linked.terminal, .inr (.inl rfl), hready.calls,
      fun hretry hrefused => ⟨rfl, (hearned hretry hrefused).2⟩⟩, rfl, hlive'⟩
  · rintro - x ⟨rfl, hready, hearned, -⟩
    exact ⟨hready.torn hearned, rfl, hlive'⟩
  refine Meets.bind (Q := fun _ => still) (leads_cancelLiveRetryTimer fun c' w h => ⟨h.1.cancelled, h.2⟩) fun _ =>
    Meets.get fun c' => ?_
  refine Meets.ite (fun hmoved => Meets.pure ?_) fun _ => ?_
  · rintro x ⟨rfl, -, hepoch, hstill⟩
    simp [hepoch, hstill] at hmoved
  · refine Meets.bind (Q := fun _ => Kept o p) (leads_rawReconnect.pre ?_) fun _ => Meets.pure fun _ h => h
    rintro x ⟨rfl, htorn, -, hstill⟩
    refine ⟨htorn, fun hterminal => ?_⟩
    have hreached := htorn.terminal hterminal
    rw [not_terminal_of_live hstill] at hreached
    cases hreached

/-! ### The socket -/

theorem leads_publishFailed (message : OutboundMessage) :
    Leads o (Ready o p) (publishFailed message) fun ok x => ok = false ∧ Kept o p x := by
  refine Meets.bind (Q := fun _ => Torn o p) (Meets.record fun c w h => ⟨trivial, fun _ => trivial, ?_⟩) fun _ => ?_
  · have hready : Ready o p (c, { w with refused := true }) := Ready.watch (w := w) rfl rfl rfl h
    exact hready.torn fun _ hrefused => nomatch hrefused
  · exact Meets.bind (Q := fun _ => Kept o p) leads_forceReconnect fun _ => Meets.pure fun _ h => ⟨rfl, h⟩

/-- A publish is written and leaves the state alone, or the connection is given up. It does neither
only without a connection. -/
theorem leads_publish (message : OutboundMessage) (key : SessionKey) (epoch : Nat) (hready : Ready o p (c, w))
    (hdue : ∀ text id, message = .userMessage text id → w.inRetry = true → DueRetry c w text id) :
    Leads o (· = (c, w)) (publish message key epoch) fun ok x =>
      if ok then x = (c, w.acted c (.wire (.pub message key epoch)))
      else Kept o p x ∨ (x = (c, { w with refused := true }) ∧ (c.connected && c.ws.isSome) = false) := by
  have hfailed : Leads o (· = (c, w)) (publishFailed message) fun ok x =>
      if ok then x = (c, w.acted c (.wire (.pub message key epoch)))
      else Kept o p x ∨ (x = (c, { w with refused := true }) ∧ (c.connected && c.ws.isSome) = false) := by
    refine ((leads_publishFailed message).pre fun x hx => hx ▸ hready).post ?_
    rintro ok x ⟨rfl, hkept⟩
    exact .inl hkept
  refine Meets.get fun s => Meets.ite (fun _ => ?_) fun hclosed => ?_
  · refine (Meets.bind holds_socketOpen fun isOpen => Meets.ite (fun _ => ?_) fun _ => hfailed).pre fun x hx => hx.2
    refine Meets.bind (holds_query fun _ _ _ h => h) fun throws => Meets.ite (fun _ => hfailed) fun _ => ?_
    refine Meets.bind (Q := fun _ x => x = (c, w.acted c (.wire (.pub message key epoch)))) (Meets.call_returns rfl ?_)
      fun _ => Meets.pure fun x hx => hx
    rintro s w' heq
    obtain ⟨rfl, rfl⟩ := Prod.mk.inj heq
    refine ⟨trivial, fun _ => ?_, rfl⟩
    show Punctual _ _
    cases message with
    | userMessage text id => exact fun hretry => hdue text id rfl hretry
    | approvalDecision id decision => trivial
    | loadHistory before limit => trivial
    | loadCommands => trivial
  · refine Meets.bind (Q := fun _ x => x = (c, { w with refused := true }) ∧ (c.connected && c.ws.isSome) = false)
      (Meets.record ?_) fun _ => Meets.pure fun x hx => .inr hx
    rintro s' w' ⟨rfl, heq⟩
    obtain ⟨rfl, rfl⟩ := Prod.mk.inj heq
    exact ⟨trivial, fun _ => trivial, rfl, Bool.eq_false_iff.mpr hclosed⟩

/-- A write of another frame. -/
theorem holds_write {frame : Frame} (hacted : ∀ c w, Watch.acted c (.wire frame) w = w)
    (hpunctual : ∀ x, Punctual x (.wire frame)) : Holds o P (call (.wire frame)) := by
  refine Meets.call_returns rfl fun c w h => ⟨trivial, fun _ => hpunctual _, ?_⟩
  show P (c, Watch.acted c (.wire frame) w)
  rw [hacted]
  exact h

theorem holds_subscribe (hP : Overlooks P) : Holds o P subscribe := by
  refine Preserves.get fun c => Preserves.ite ?_ (Preserves.pure _)
  refine Preserves.bind (holds_modify hP fun _ => rfl) fun _ => ?_
  exact Preserves.bind (holds_write (fun _ _ => rfl) fun _ => trivial) fun _ => Preserves.pure _

theorem holds_unsubscribe (sid : Nat) : Holds o P (unsubscribe sid) := by
  refine Preserves.get fun c => Preserves.onlyIf (Preserves.bind holds_socketOpen fun _ => Preserves.onlyIf ?_)
  exact holds_write (fun _ _ => rfl) fun _ => trivial

theorem holds_request (hP : Overlooks P) (flow : FlowId) (op : RegisterOp) : Holds o P (request flow op) := by
  refine Preserves.get fun c => Preserves.ite ?_ (Preserves.pure _)
  refine Preserves.bind (holds_subscribe hP) fun _ => Preserves.get fun c => ?_
  refine Preserves.bind (Preserves.onlyIf (holds_write (fun _ _ => rfl) fun _ => trivial)) fun _ => Preserves.pure _

/-- Without a live session there is nothing to arm for. -/
theorem armed_of_retired (h : c.sessionKey.isSome = true → c.terminalReached = true) : Armed (c, w) := by
  intro hkey hlive
  have hterminal : c.terminalReached = true := h hkey
  rw [not_terminal_of_live hlive] at hterminal
  cases hterminal

/-- While the client is connected its socket is kept, and there is no session while it is not. -/
theorem holds_connectInternal : Holds o (Kept o p) connectInternal := by
  refine Meets.get fun c => Meets.onlyIf (fun _ => ?_) fun _ x hx => hx.2
  refine Meets.bind (Q := fun readyState x => (x.1 = c ∧ Kept o p x) ∧
    (c.connected = true → readyState = ReadyState.open ∨ readyState = ReadyState.connecting)) (Meets.query ?_) fun readyState => ?_
  · rintro s w readyState ⟨rfl, hkept⟩ hanswer
    exact ⟨trivial, ⟨rfl, hkept⟩, hanswer⟩
  refine Meets.onlyIf (fun hdial => Meets.modify ?_) fun _ x hx => hx.1.2
  rintro s w ⟨⟨rfl, hkept⟩, hanswer⟩
  have hretired : s.sessionKey.isSome = true → s.terminalReached = true := by
    intro hkey
    rcases hkept.sound.linked.session hkey with hterminal | ⟨hconnected, hws, -⟩
    · exact hterminal
    · rcases hanswer hconnected with rfl | rfl <;> simp [show s.ws.isSome = true from hws] at hdial
  exact ⟨trivial, ⟨hkept.sound.steady.rest rfl, ⟨fun hkey => .inl (hretired hkey), hkept.sound.linked.terminal⟩,
    hkept.sound.counted⟩, hkept.calls, .inl (armed_of_retired hretired)⟩

/-! ### Arming -/

/-- The timer that is set covers the ledger. -/
theorem Ready.armed (h : Ready o p (c, w)) (hnone : c.liveRetryTimer = none) {delay : Int}
    (hdelay : ∀ earliest, c.earliestRetry = some earliest → delay ≤ max 0 (earliest - w.clock)) :
    Kept o p (c.armed, { w with timers := ⟨c.liveRetryTimerGeneration + 1, w.clock, w.clock + delay⟩ :: w.timers }) := by
  have hsteady := h.sound.steady
  obtain ⟨htimers, harmed⟩ := hsteady.timers.armed hnone w.clock (w.clock + delay)
  refine ⟨⟨⟨hsteady.options, htimers, hsteady.planned, hsteady.bounded, hsteady.recoveries⟩,
    ⟨h.sound.linked.session, h.sound.linked.terminal⟩, h.sound.counted⟩, h.calls, .inl fun _ _ hpublished => ?_⟩
  obtain ⟨earliest, hearliest⟩ := earliestRetry_of_published hsteady hpublished
  refine ⟨_, earliest, harmed, rfl, rfl, hearliest, ?_⟩
  have := hdelay earliest hearliest
  show w.clock + delay ≤ max w.clock earliest
  omega

/-- The timer covers the ledger, whatever it covered before. -/
theorem leads_armLiveRetryTimer : Leads o (Ready o p) armLiveRetryTimer fun _ => Kept o p := by
  refine Meets.bind (Q := fun token x => Ready o p x ∧ x.1.liveRetryTimer = none ∧ x.1.liveRetryTimerGeneration = token)
    (leads_cancelLiveRetryTimer fun c w h => ⟨h.cancelled, rfl, rfl⟩) fun token => Meets.get fun c => ?_
  refine Meets.onlyIf (fun hcond => ?_) ?_
  · -- Nothing moves while the hooks run.
    have hlive : c.live = true := by
      simp only [Bool.and_eq_true] at hcond
      exact hcond.1.2
    refine Meets.bind (Q := fun now x => Ready o p x ∧ x.1 = c ∧ x.2.clock = now ∧ c.liveRetryTimer = none ∧
      c.liveRetryTimerGeneration = token) (leads_retryNow ?_) fun now => Meets.get fun c' => ?_
    · rintro s w now ⟨rfl, hready, hnone, htoken⟩ -
      exact ⟨hready.watch (w := w) rfl rfl rfl, rfl, rfl, hnone, htoken⟩
    refine Meets.of_fact (F := c' = c) (fun x hx => hx.1.symm.trans hx.2.2.1) ?_
    rintro rfl
    let timer (w : Watch) : RetryTimer := ⟨c'.liveRetryTimerGeneration + 1, w.clock, w.clock + c'.timerDelay now⟩
    let set (x : Client × Watch) : Prop := ∃ w, Ready o p (c', w) ∧ w.clock = now ∧ c'.liveRetryTimer = none ∧
      x = (c'.drawn, { w with timers := timer w :: w.timers })
    refine Meets.onlyIf (fun _ => ?_) ?_
    · refine Meets.bind (Q := fun _ x => ∃ w, Ready o p (c', w) ∧ w.clock = now ∧ c'.liveRetryTimer = none ∧
        x = (c'.drawn, w)) (Meets.modify ?_) fun _ => ?_
      · rintro s w ⟨hs, hready, -, hclock, hnone, -⟩
        obtain rfl : s = c' := hs
        exact ⟨trivial, w, hready, hclock, hnone, rfl⟩
      refine Meets.bind (Q := fun _ => set) (Meets.call_returns rfl ?_) fun _ => Meets.get fun c'' => ?_
      · rintro s w' ⟨w, hready, hclock, hnone, heq⟩
        obtain ⟨rfl, rfl⟩ := Prod.mk.inj heq
        exact ⟨trivial, fun _ => trivial, w', hready, hclock, hnone, rfl⟩
      refine Meets.ite (fun _ => Meets.modify ?_) fun hmoved => ?_
      · rintro s w' ⟨-, w, hready, rfl, hnone, heq⟩
        obtain ⟨rfl, rfl⟩ := Prod.mk.inj heq
        exact ⟨trivial, hready.armed hnone fun earliest hearliest => timerDelay_le hearliest w.clock⟩
      · refine Meets.of_fact (F := False) ?_ False.elim
        rintro x ⟨rfl, w, -, -, hnone, rfl⟩
        have hfence : c'.scheduleFence c'.drawn = true := scheduleFence_self hlive
        have hheld : c'.drawn.liveRetryTimer = none := hnone
        refine hmoved ?_
        rw [hfence, hheld]
        simp [Client.drawn]
    · rintro hmoved x ⟨-, -, -, -, hnone, rfl⟩
      simp [hnone, scheduleFence_self hlive] at hmoved
  · rintro hidle x ⟨rfl, hready, hnone, htoken⟩
    refine hready.kept fun hkey hlive hpublished => ?_
    obtain ⟨earliest, hearliest⟩ := earliestRetry_of_published hready.sound.steady hpublished
    obtain ⟨id, entry, hget, -⟩ := hasPublished_iff.mp hpublished
    have hsize : x.1.unackedLedger.size ≠ 0 := by
      intro hzero
      rw [OrderedMap.get_of_size_eq_zero hzero] at hget
      cases hget
    simp [htoken, hnone, hkey, hlive, hsize, hearliest] at hidle

end Retry

end Webchannel.Session
