import Webchannel.Session.Covering

/-!
# The browser client: the retry timer's callback and the result frames

The callback republishes what is due, one entry after the other, and arms the next timer; when the
agent has been silent for too long it begins a recovery instead. A frame that reports on owned
entries starts a new stall interval. Only the listeners of the send states come in between.
-/

namespace Webchannel.Session.Retry

open Webchannel.Reentrant Prog Contract

variable {o : Options} {p : Place} {c c' : Client} {w : Watch}

/-! ### Retries -/

/-- The callback goes through the ledger of a session that is live. -/
structure Retrying (o : Options) (p : Place) (now : Int) (x : Client × Watch) : Prop where
  ready : Ready o p x
  live : x.1.live = true
  session : x.1.sessionKey.isSome = true
  clock : now ≤ x.2.clock

/-- The entry is due, and nothing has moved since the callback came to it. -/
structure Due (o : Options) (p : Place) (s : Client) (id : WireId) (entry : UnackedLedgerEntry) (now : Int)
    (x : Client × Watch) : Prop where
  ready : Ready o p x
  fence : s.retryFence x.1 id entry.stamp = true
  held : x.1.unackedLedger.get id = some entry
  clock : now ≤ x.2.clock

section Entry

variable {s : Client} {id : WireId} {entry : UnackedLedgerEntry} {now : Int}

theorem Due.tick (h : Due o p s id entry now (c, w)) {clock : Int} (hclock : w.clock ≤ clock) :
    Due o p s id entry now (c, { w with clock }) :=
  ⟨h.ready.watch (w := w) rfl rfl rfl, h.fence, h.held, h.clock.trans hclock⟩

theorem Due.stamp (h : Due o p s id entry now (c, w)) (attemptAt : Int) :
    Due o p s id entry now (c.stampAttempt id attemptAt, w) := by
  have hagenda := agenda_stampAttempt c id attemptAt
  have hledger : (c.stampAttempt id attemptAt).unackedLedger = c.unackedLedger :=
    eq_of_agenda Client.unackedLedger (fun _ => rfl) hagenda
  refine ⟨h.ready.congr hagenda, ?_, ?_, h.clock⟩
  · exact (eq_of_agenda (fun v => s.retryFence v id entry.stamp) (fun _ => rfl) hagenda).trans h.fence
  · exact (congrArg (fun m => OrderedMap.get m id) hledger).trans h.held

/-- What the entry needs to be published: the session that the callback found, and its time. -/
theorem Due.session (h : Due o p s id entry now (c, w)) : c.sessionKey = s.sessionKey ∧ c.live = true := by
  have hfence := h.fence
  simp only [Client.retryFence, Bool.and_eq_true, beq_iff_eq] at hfence
  exact ⟨hfence.1.1.1.1.2, hfence.2⟩

theorem Due.dueRetry (h : Due o p s id entry now (c, w)) {due : Int} (hdue : entry.nextRetryAt = some due) (hle : due ≤ now) :
    DueRetry c w entry.text id :=
  ⟨entry, due, h.held, rfl, hdue, hle.trans h.clock⟩

/-- The entry was written, and its next retry is set. -/
theorem Due.retried (h : Due o p s id entry now (c, w)) (hkey : s.sessionKey.isSome = true) {retryCount : Nat} {due : Int} :
    Retrying o p now (c.updateLedger id fun e => { e with retryCount, nextRetryAt := some due }, w.mark (.published id)) := by
  have hwritten : Ready o p (c, w.mark (.published id)) := ⟨h.ready.sound.publishedMark id, h.ready.calls⟩
  obtain ⟨hsession, hlive⟩ := h.session
  refine ⟨hwritten.updateLedger fun _ _ _ => rfl, ?_, ?_, h.clock⟩
  · show (Client.updateLedger c id _).live = true
    unfold Client.updateLedger
    split <;> exact hlive
  · show (Client.updateLedger c id _).sessionKey.isSome = true
    rw [← hsession] at hkey
    unfold Client.updateLedger
    split <;> exact hkey

/-- Nothing moves while one entry is republished, unless the publish gives up the connection. -/
theorem leads_retryEntry {due : Int} (hdue : entry.nextRetryAt = some due) (hle : due ≤ now) :
    Leads o (fun x => Retrying o p now x ∧ x.1.unackedLedger.get id = some entry) (retryEntry id entry) fun ok x =>
      if ok then Retrying o p now x else Kept o p x := by
  refine Meets.get fun s => Meets.of_fact (F := s.sessionKey.isSome = true ∧ s.live = true)
    (fun x hx => hx.1 ▸ ⟨hx.2.1.session, hx.2.1.live⟩) ?_
  rintro ⟨hsome, hlive⟩
  obtain ⟨key, hkey⟩ := Option.isSome_iff_exists.mp hsome
  rw [hkey]
  refine Meets.ite (fun hdead => ?_) fun _ => ?_
  · simp [hlive] at hdead
  have hlost {β : Type} {k : Code β} {R : β → Client × Watch → Prop} {v : Client}
      (h : (!s.retryFence v id entry.stamp) = true) :
      Leads o (fun x => x.1 = v ∧ Due o p s id entry now x) k R := by
    refine Meets.of_fact (F := False) ?_ False.elim
    rintro x ⟨rfl, hx⟩
    rw [hx.fence] at h
    cases h
  refine Meets.bind (Q := fun _ => Due o p s id entry now) ((holds_retryDelay (entry.retryCount + 1)).pre ?_) fun delay => ?_
  · rintro x ⟨rfl, hretrying, hget⟩
    refine ⟨hretrying.ready, ?_, hget, hretrying.clock⟩
    simp [Client.retryFence, Client.ledgerHolds, hget, hlive]
  refine Meets.get fun v => Meets.ite hlost fun _ => ?_
  refine Meets.bind (Q := fun _ => Due o p s id entry now) (leads_retryNow fun c w now hx hclock => hx.2.tick hclock)
    fun attemptAt => ?_
  refine Meets.get fun v => Meets.ite hlost fun _ => ?_
  refine Meets.bind (Q := fun _ => Due o p s id entry now) (Meets.modify fun c w hx => ⟨trivial, hx.2.stamp attemptAt⟩)
    fun _ => Meets.each_state ?_
  rintro ⟨c, w⟩ hpublish
  obtain ⟨hsession, hlive'⟩ := hpublish.session
  have hpunctual (text : String) (id' : WireId) (heq : OutboundMessage.userMessage entry.text id = .userMessage text id')
      (_ : w.inRetry = true) : DueRetry c w text id' := by
    cases heq
    exact hpublish.dueRetry hdue hle
  refine Meets.bind (leads_publish (.userMessage entry.text id) key s.connectionEpoch hpublish.ready hpunctual) fun ok => ?_
  cases ok with
  | false =>
    refine Meets.pure ?_
    rintro x (hkept | ⟨-, hoff⟩)
    · exact hkept
    · cases (hpublish.ready.connection (hsession.trans hkey) hlive').symm.trans hoff
  | true =>
    refine Meets.get fun v => Meets.ite (fun hmoved => Meets.of_fact (F := False) ?_ False.elim) fun _ => ?_
    · rintro x ⟨rfl, rfl⟩
      rw [hpublish.fence] at hmoved
      cases hmoved
    refine Meets.bind (Q := fun _ => Retrying o p now) (Meets.modify ?_) fun _ => Meets.pure fun x hx => hx
    rintro u w' ⟨-, heq⟩
    obtain ⟨rfl, rfl⟩ := Prod.mk.inj heq
    exact ⟨trivial, hpublish.retried hsome⟩

end Entry

/-- What the scheduler found due is due when the loop comes to it. -/
theorem leads_retryLoop (schedulerNow : Int) :
    Leads o (Retrying o p schedulerNow) (retryLoop schedulerNow) fun all x => if all then Ready o p x else Kept o p x := by
  refine Meets.loop (J := fun _ => Retrying o p schedulerNow) fun cursor => Meets.get fun c => ?_
  cases hfind : c.unackedLedger.entries.find? fun e => decide (cursor ≤ e.2.stamp) with
  | none => exact Meets.pure fun x hx => hx.2.ready
  | some found =>
    obtain ⟨id, entry⟩ := found
    refine Meets.ite (fun _ => Meets.pure fun x hx => hx.2) fun hdue => ?_
    obtain ⟨due, hnext, hle⟩ : ∃ due, entry.nextRetryAt = some due ∧ due ≤ schedulerNow := by
      cases hnext : entry.nextRetryAt with
      | none => simp [hnext] at hdue
      | some due => exact ⟨due, rfl, by simpa [hnext] using hdue⟩
    have hget : c.unackedLedger.get id = some entry := OrderedMap.mem_entries.mp (List.mem_of_find?_eq_some hfind)
    refine Meets.bind ((leads_retryEntry (p := p) hnext hle).pre ?_) fun ok => ?_
    · rintro x ⟨rfl, hretrying⟩
      exact ⟨hretrying, hget⟩
    · cases ok with
      | false => exact Meets.pure fun x hx => hx
      | true => exact Meets.pure fun x hx => hx

/-! ### Stall -/

/-- The stall has lasted for the whole timeout, and its allowance is spent with this. -/
theorem Ready.stalled (h : Ready o p (c, w)) (hlive : c.live = true) (hcandidate : c.hasStallCandidate = true)
    (hlong : c.ackStallSinceAt.any (fun since =>
      decide ((c.options.ackStallTimeoutMs : Int) ≤ max 0 (w.clock - since))) = true) :
    Ready o p ({ c with ackStallMutationEpoch := c.ackStallMutationEpoch + 1, ackStallRecoveryIssued := true }, w) ∧
      Earned o ({ c with ackStallMutationEpoch := c.ackStallMutationEpoch + 1, ackStallRecoveryIssued := true }, w) := by
  have hsound := h.sound
  have hoptions : c.options = o := hsound.steady.options
  refine ⟨⟨⟨hsound.steady.rest rfl, ⟨hsound.linked.session, hsound.linked.terminal⟩, .inr (.inl rfl)⟩, h.calls⟩, fun _ _ => ?_⟩
  simp only [Client.hasStallCandidate, Bool.and_eq_true, decide_eq_true_eq, Bool.not_eq_true'] at hcandidate
  obtain ⟨⟨hpos, hsince⟩, hnot⟩ := hcandidate
  obtain ⟨since, hsome⟩ := Option.isSome_iff_exists.mp hsince
  rw [hsome, Option.any_some, decide_eq_true_eq] at hlong
  rw [hoptions] at hpos hlong
  rcases hsound.counted with hterminal | hissued | ⟨hunspent, hwaiting⟩
  · cases hterminal.symm.trans (not_terminal_of_live hlive)
  · cases hissued.symm.trans hnot
  · refine ⟨rfl, hunspent, hpos, (hwaiting since hsome).mono ?_⟩
    show since ≤ w.clock - o.ackStallTimeoutMs
    omega

theorem leads_retryDueUnacked : Leads o (Ready o p) retryDueUnacked fun _ => Kept o p := by
  refine Meets.get fun c => Meets.onlyIf (fun hcond => ?_) ?_
  swap
  · rintro hidle x ⟨rfl, hready⟩
    refine hready.kept fun hkey hlive _ => ?_
    simp [hkey, hlive] at hidle
  simp only [Bool.and_eq_true] at hcond
  obtain ⟨hkey, hlive⟩ := hcond
  refine Meets.bind (Q := fun now x => Ready o p x ∧ x.1 = c ∧ x.2.clock = now) (leads_retryNow ?_) fun schedulerNow => ?_
  · rintro s w now ⟨rfl, hready⟩ -
    exact ⟨hready.watch (w := w) rfl rfl rfl, rfl, rfl⟩
  refine Meets.get fun c' => Meets.of_fact (F := c' = c) (fun x hx => hx.1.symm.trans hx.2.2.1) ?_
  rintro rfl
  refine Meets.onlyIf (fun _ => Meets.ite (fun hstall => ?_) fun _ => ?_) ?_
  · simp only [Bool.and_eq_true] at hstall
    refine Meets.bind (Q := fun _ x => Ready o p x ∧ Earned o x ∧ x.1.live = true) (Meets.modify ?_) fun _ => ?_
    · rintro s w ⟨rfl, hready, -, rfl⟩
      obtain ⟨hready', hearned⟩ := hready.stalled hlive hstall.1.1 hstall.2
      exact ⟨trivial, hready', hearned, hlive⟩
    · refine Meets.bind (Q := fun _ => Kept o p) (leads_requestApplicationRecovery.pre ?_) fun _ => Meets.pure fun _ h => h
      rintro x ⟨hready, hearned, hstill⟩
      refine ⟨hready, hearned, fun hdead => ?_⟩
      cases hstill.symm.trans hdead
  · refine Meets.bind ((leads_retryLoop (p := p) schedulerNow).pre ?_) fun all => ?_
    · rintro x ⟨rfl, hready, -, rfl⟩
      exact ⟨hready, hlive, hkey, le_refl _⟩
    · cases all with
      | false => exact Meets.pure fun x hx => hx
      | true => exact leads_armLiveRetryTimer
  · rintro hmoved x ⟨rfl, -⟩
    simp [scheduleFence_self hlive] at hmoved

/-! ### Timers that fire -/

theorem armedTimers_erase {generation : Nat} (h : ∀ timer ∈ armedTimers c w, timer.generation ≠ generation) :
    armedTimers { c with scheduledTimers := c.scheduledTimers.erase generation } w = armedTimers c w := by
  apply List.filter_congr
  intro timer htimer
  show (c.scheduledTimers.erase generation).contains timer.generation = c.scheduledTimers.contains timer.generation
  cases hscheduled : c.scheduledTimers.contains timer.generation with
  | true =>
    have hne := h timer (List.mem_filter.mpr ⟨htimer, hscheduled⟩)
    exact List.contains_iff_mem.mpr ((List.mem_erase_of_ne hne).mpr (List.contains_iff_mem.mp hscheduled))
  | false =>
    refine Bool.eq_false_iff.mpr fun hmem => ?_
    have hold := List.contains_iff_mem.mpr (List.mem_of_mem_erase (List.contains_iff_mem.mp hmem))
    rw [hscheduled] at hold
    cases hold

/-- A timer that was given up fires: nothing that is armed is lost. -/
theorem Kept.stale (h : Kept o ⟨p.calls, none⟩ (c, w)) {generation : Nat} (hne : c.liveRetryTimerGeneration ≠ generation) :
    Kept o ⟨p.calls, none⟩ ({ c with scheduledTimers := c.scheduledTimers.erase generation }, w) := by
  have hsteady := h.sound.steady
  have htimers := hsteady.timers
  have hsame : armedTimers { c with scheduledTimers := c.scheduledTimers.erase generation } w = armedTimers c w := by
    apply armedTimers_erase
    intro timer hmem
    rcases htimers.held with ⟨-, hnone⟩ | ⟨only, rest, -, hone, -, hcurrent⟩
    · rw [hnone] at hmem
      cases hmem
    · rw [hone, List.mem_singleton] at hmem
      rw [hmem, hcurrent]
      exact hne
  refine ⟨⟨⟨hsteady.options, ⟨?_, htimers.drawn, fun g hg => htimers.scheduled g (List.mem_of_mem_erase hg),
    htimers.nodup.erase _⟩, hsteady.planned, hsteady.bounded, hsteady.recoveries⟩,
    ⟨h.sound.linked.session, h.sound.linked.terminal⟩, h.sound.counted⟩, h.calls, .inl fun hkey hlive hpublished => ?_⟩
  · rw [hsame]
    exact htimers.held
  · obtain ⟨timer, earliest, hone, hrest⟩ := h.covered hkey hlive hpublished
    exact ⟨timer, earliest, hsame.trans hone, hrest⟩

/-- The timer that the client holds fires, and the client gives it up. -/
theorem Kept.fired (h : Kept o p (c, w)) : Ready o p ({ c with
      scheduledTimers := c.scheduledTimers.erase c.liveRetryTimerGeneration
      liveRetryTimer := none
      liveRetryTimerGeneration := c.liveRetryTimerGeneration + 1 }, w) := by
  have hsteady := h.sound.steady
  have htimers := hsteady.timers
  refine ⟨⟨⟨hsteady.options, ⟨.inl ⟨rfl, ?_⟩, fun timer htimer => ?_, fun g hg => ?_, htimers.nodup.erase _⟩,
    hsteady.planned, hsteady.bounded, hsteady.recoveries⟩,
    ⟨h.sound.linked.session, h.sound.linked.terminal⟩, h.sound.counted⟩, h.calls⟩
  · refine List.filter_eq_nil_iff.mpr fun timer htimer hmem => ?_
    have herased : timer.generation ∈ c.scheduledTimers.erase c.liveRetryTimerGeneration := List.contains_iff_mem.mp hmem
    obtain ⟨hne, hscheduled⟩ := htimers.nodup.mem_erase_iff.mp herased
    have harmed : timer ∈ armedTimers c w := List.mem_filter.mpr ⟨htimer, List.contains_iff_mem.mpr hscheduled⟩
    rcases htimers.held with ⟨-, hnone⟩ | ⟨only, rest, -, hone, -, hcurrent⟩
    · rw [hnone] at harmed
      cases harmed
    · rw [hone, List.mem_singleton] at harmed
      exact hne (harmed ▸ hcurrent)
  · exact (htimers.drawn timer htimer).trans (Nat.le_succ _)
  · exact (htimers.scheduled g (List.mem_of_mem_erase hg)).trans (Nat.le_succ _)

theorem leads_onRetryTimer (generation : Nat) :
    Leads o (Kept o ⟨p.calls, none⟩) (onRetryTimer generation) fun _ => Kept o ⟨p.calls, none⟩ := by
  refine Meets.each_state ?_
  rintro ⟨c, w⟩ hkept
  refine Meets.bind (Q := fun _ x => x = ({ c with scheduledTimers := c.scheduledTimers.erase generation }, w))
    (Meets.modify ?_) fun _ => Meets.get fun v => ?_
  · rintro s u heq
    obtain ⟨rfl, rfl⟩ := Prod.mk.inj heq
    exact ⟨trivial, rfl⟩
  refine Meets.onlyIf (fun hcurrent => ?_) ?_
  · refine Meets.bind (Q := fun _ => Ready o ⟨p.calls, none⟩) (Meets.modify ?_) fun _ => leads_retryDueUnacked
    rintro s u ⟨rfl, heq⟩
    obtain ⟨rfl, rfl⟩ := Prod.mk.inj heq
    have hgeneration : c.liveRetryTimerGeneration = generation := beq_iff_eq.mp hcurrent
    subst hgeneration
    exact ⟨trivial, hkept.fired⟩
  · rintro hother x ⟨rfl, rfl⟩
    exact hkept.stale (p := p) (beq_eq_false_iff_ne.mp hother)

/-! ### Results -/

/-- A frame was decrypted that reports on the ids. When it owns something it begins a new interval,
which the stall is not counted in yet. -/
def Opened (o : Options) (p : Place) (ids : List WireId) (x : Client × Watch) : Prop :=
  if ids.any x.1.unackedLedger.has then
    Steady o x.1 x.2 ∧ Linked x.1 ∧ x.2.calls = p.calls ∧ x.1.sessionKey.isSome = true ∧
      ∃ log, x.2.log = ⟨.result (x.1.detach ids).hasPublishedUnackedOwnership, x.2.clock⟩ :: log
  else Kept o p x

theorem unspent_of_result {remains : Bool} {clock : Int} {log : List Mark} (h : w.log = ⟨.result remains, clock⟩ :: log) :
    Unspent w.log := by
  rw [h]
  exact .inl (.inl ⟨remains, rfl⟩)

/-- Entries that are not there are not taken out. -/
theorem detach_of_not_has {ids : List WireId} (h : ids.any c.unackedLedger.has = false) : c.detach ids = c := by
  have hledger : ids.foldl (·.delete ·) c.unackedLedger = c.unackedLedger := by
    induction ids with
    | nil => rfl
    | cons id ids ih =>
      rw [List.any_cons, Bool.or_eq_false_iff] at h
      rw [List.foldl_cons, OrderedMap.delete_of_not_has h.1]
      exact ih h.2
  show { c with unackedLedger := ids.foldl (·.delete ·) c.unackedLedger } = c
  rw [hledger]

theorem Steady.detach (h : Steady o c w) (ids : List WireId) : Steady o (c.detach ids) w := by
  refine h.ledger (fun id entry hget => ?_) ?_
  · rw [OrderedMap.get_foldl_delete] at hget
    split at hget
    · cases hget
    · exact h.planned id entry hget
  · rw [← OrderedMap.length_keys, OrderedMap.keys_foldl_delete]
    refine (List.length_filter_le _ _).trans ?_
    rw [OrderedMap.length_keys]
    exact h.bounded

/-- A session that is not live is retired. -/
theorem Linked.retired (h : Linked c) (hkey : c.sessionKey.isSome = true) (hdead : c.live = false) : c.terminalReached = true := by
  rcases h.session hkey with hterminal | ⟨-, -, hopen⟩
  · exact hterminal
  · cases hreached : c.terminalReached with
    | true => rfl
    | false => simp [Client.live, hopen, hreached] at hdead

/-- What the commit of a result's time relies on: it is the latest mark, and published work is left. -/
structure Reported (o : Options) (p : Place) (captured : Client) (resultEpoch : Nat) (x : Client × Watch) : Prop where
  steady : Steady o x.1 x.2
  linked : Linked x.1
  calls : x.2.calls = p.calls
  mark : ∃ time log, x.2.log = ⟨.result true, time⟩ :: log ∧ time ≤ x.2.clock
  session : x.1.sessionKey = captured.sessionKey ∧ x.1.sessionKey.isSome = true
  epoch : x.1.connectionEpoch = captured.connectionEpoch ∧ x.1.ackStallMutationEpoch = resultEpoch
  live : x.1.live = captured.live
  remains : x.1.hasPublishedUnackedOwnership = true

/-- The state in which the time of a result was committed. -/
structure Committed (captured : Client) (c : Client) (at_ : Int) : Prop where
  epoch : c.connectionEpoch = captured.connectionEpoch
  session : c.sessionKey = captured.sessionKey
  live : c.live = true
  since : c.ackStallSinceAt = some at_
  issued : c.ackStallRecoveryIssued = false

/-- The time is committed, unless the client is retired. -/
theorem leads_commitResultTime {captured : Client} {resultEpoch : Nat} :
    Leads o (Reported o p captured resultEpoch) (commitResultTime captured resultEpoch) fun committed x =>
      Ready o p x ∧ match committed with
        | none => x.1.live = false
        | some (epoch, at_, generation, snapshot) => Committed captured x.1 at_ ∧ epoch = x.1.ackStallMutationEpoch ∧
          generation = x.1.liveRetryTimerGeneration ∧ snapshot = x.1.captureLedgerScheduling := by
  let fence (c : Client) : Bool := c.connectionEpoch == captured.connectionEpoch && c.sessionKey == captured.sessionKey
    && c.live && c.ackStallMutationEpoch == resultEpoch && c.hasPublishedUnackedOwnership
  have hfence (x : Client × Watch) (hx : Reported o p captured resultEpoch x) : fence x.1 = captured.live := by
    simp [fence, hx.epoch.1, hx.epoch.2, hx.session.1, hx.live, hx.remains]
  refine Meets.get fun c => Meets.ite (fun hcond => ?_) fun hcond => Meets.pure ?_
  · have hlive : captured.live = true := by
      simp only [Bool.and_eq_true] at hcond
      exact hcond.1.1
    refine Meets.bind (Q := fun now x => Reported o p captured resultEpoch x ∧ x.2.clock = now) (leads_retryNow ?_)
      fun sampledResultAt => Meets.get fun c' => Meets.ite (fun _ => ?_) fun hlost => Meets.of_fact (F := False) ?_ False.elim
    · rintro s w now ⟨-, hx⟩ hnow
      obtain ⟨time, log, hlog, htime⟩ := hx.mark
      exact ⟨⟨hx.steady.watch (w := w) rfl rfl, hx.linked, hx.calls, ⟨time, log, hlog, htime.trans hnow⟩, hx.session, hx.epoch,
        hx.live, hx.remains⟩, rfl⟩
    · refine Meets.bind (Q := fun _ x => Ready o p x ∧ Committed captured x.1 sampledResultAt) (Meets.modify ?_)
        fun _ => Meets.get fun c'' => Meets.pure ?_
      · rintro s w ⟨rfl, hx, rfl⟩
        obtain ⟨time, log, hlog, htime⟩ := hx.mark
        refine ⟨trivial, ⟨⟨hx.steady.rest rfl, ⟨hx.linked.session, hx.linked.terminal⟩, .inr (.inr ?_)⟩, hx.calls⟩,
          ⟨hx.epoch.1, hx.session.1, hx.live.trans hlive, rfl, rfl⟩⟩
        refine ⟨unspent_of_result hlog, fun since hsince => ?_⟩
        obtain rfl := Option.some.inj hsince
        show Waiting w.clock w.log
        rw [hlog]
        exact .inl ⟨htime, .inr rfl⟩
      · rintro x ⟨rfl, hready, hcommitted⟩
        exact ⟨hready, hcommitted, rfl, rfl, rfl⟩
    · rintro x ⟨rfl, hx, -⟩
      exact hlost ((hfence x hx).trans hlive)
  · rintro x ⟨rfl, hx⟩
    have hdead : x.1.live = false := by
      cases hlive : x.1.live with
      | false => rfl
      | true =>
        have hcaptured : captured.live = true := hx.live.symm.trans hlive
        refine absurd ?_ hcond
        show (captured.live && captured.sessionKey.isSome && fence x.1) = true
        rw [hfence x hx, hcaptured, ← hx.session.1, hx.session.2]
        rfl
    exact ⟨⟨⟨hx.steady, hx.linked, .inl (hx.linked.retired hx.session.2 hdead)⟩, hx.calls⟩, hdead⟩

/-- A listener of an outcome has armed the timer itself, or it has left alone what the program compares. -/
theorem leads_drainOwnedResult {apply : WireId → Code Unit} (happly : ∀ (p : Place) id, Holds o (Kept o p) (apply id))
    (frameIds : List WireId) : Leads o (Opened o p frameIds) (drainOwnedResult frameIds apply) fun _ => Kept o p := by
  refine Meets.get fun c => Meets.each_state ?_
  rintro ⟨s, w⟩ ⟨hs, hopened⟩
  obtain rfl : s = c := hs
  refine Meets.bind (Q := fun _ x => x = (s.detach frameIds, w)) (Meets.modify ?_) fun _ => ?_
  · rintro u v heq
    obtain ⟨rfl, rfl⟩ := Prod.mk.inj heq
    exact ⟨trivial, rfl⟩
  refine Meets.ite (fun hnone => ?_) fun hsome => ?_
  · have hnone' : frameIds.any s.unackedLedger.has = false := by simpa using hnone
    refine (Preserves.each fun id => happly p id).pre ?_
    rintro x rfl
    rw [detach_of_not_has hnone']
    rw [Opened, if_neg (Bool.eq_false_iff.mp hnone')] at hopened
    exact hopened
  have hsome' : frameIds.any s.unackedLedger.has = true := by simpa using hsome
  rw [Opened, if_pos hsome'] at hopened
  obtain ⟨hsteady, hlinked, hcalls, hkey, log, hlog⟩ := hopened
  let counted : Client := { s.detach frameIds with ackStallMutationEpoch := s.ackStallMutationEpoch + 1 }
  have hsteady' : Steady o counted w := (hsteady.detach frameIds).rest rfl
  have hlinked' : Linked counted := ⟨hlinked.session, hlinked.terminal⟩
  refine Meets.bind (Q := fun _ x => x = (counted, w)) (Meets.modify ?_) fun _ => Meets.get fun v => ?_
  · rintro u g heq
    obtain ⟨rfl, rfl⟩ := Prod.mk.inj heq
    exact ⟨trivial, rfl⟩
  refine Meets.of_fact (F := v = counted) (fun x hx => hx.1.symm.trans (congrArg Prod.fst hx.2)) ?_
  rintro rfl
  cases hremains : counted.hasPublishedUnackedOwnership with
  | false =>
    -- Nothing that was published is left, so there is nothing to arm for.
    let settled (x : Client × Watch) : Prop := Ready o p x ∧ x.1.hasPublishedUnackedOwnership = false
    refine Meets.bind (Q := fun _ => settled) (Meets.modify ?_) fun _ => ?_
    · rintro u g ⟨-, heq⟩
      obtain ⟨rfl, rfl⟩ := Prod.mk.inj heq
      refine ⟨trivial, ⟨⟨hsteady'.rest rfl, ⟨hlinked'.session, hlinked'.terminal⟩, .inr (.inr ?_)⟩, hcalls⟩, hremains⟩
      exact ⟨unspent_of_result hlog, fun since hsince => by cases hsince⟩
    refine Meets.bind (Q := fun _ => settled) (leads_cancelLiveRetryTimer fun c w h => ⟨h.1.cancelled, h.2⟩) fun _ => ?_
    refine Meets.bind (Q := fun committed x => committed = none ∧ settled x) (Meets.pure fun x hx => ⟨rfl, hx⟩) fun committed => ?_
    refine Meets.of_fact (F := committed = none) (fun x hx => hx.1) ?_
    rintro rfl
    refine Meets.bind (Q := fun _ => Kept o p) ((Preserves.each fun id => happly p id).pre ?_) fun _ => Preserves.pure ()
    rintro x ⟨-, hready, hempty⟩
    exact hready.kept (armed_of_unpublished hempty)
  | true =>
    have hmark : w.log = ⟨.result true, w.clock⟩ :: log := by
      rw [hlog, ← hremains]
      rfl
    refine Meets.bind (Q := fun _ x => x = (counted, w)) (Meets.pure fun x hx => hx.2) fun _ => ?_
    refine Meets.bind (Q := fun _ => Reported o p s (s.ackStallMutationEpoch + 1)) (leads_cancelLiveRetryTimer ?_) fun _ => ?_
    · rintro u g heq
      obtain ⟨rfl, rfl⟩ := Prod.mk.inj heq
      obtain ⟨hclock, hcalls', -, hlog'⟩ := watch_cancelled counted g
      exact ⟨hsteady'.cancelled, ⟨hlinked'.session, hlinked'.terminal⟩, hcalls'.trans hcalls,
        ⟨g.clock, log, hlog'.trans hmark, le_of_eq hclock.symm⟩, ⟨rfl, hkey⟩, ⟨rfl, rfl⟩, rfl, hremains⟩
    refine Meets.bind leads_commitResultTime fun committed => ?_
    cases committed with
    | none =>
      refine Meets.bind (Q := fun _ => Kept o p) ((Preserves.each fun id => happly p id).pre ?_) fun _ => Preserves.pure ()
      rintro x ⟨hready, hdead⟩
      exact hready.kept (armed_of_dead hdead)
    | some commit =>
      obtain ⟨epoch, at_, generation, snapshot⟩ := commit
      refine Meets.each_state ?_
      rintro ⟨c, w⟩ ⟨hready, hcommitted, rfl, rfl, rfl⟩
      refine Meets.bind (Q := fun _ => Kept o ⟨p.calls, some c⟩) ((Preserves.each fun id => happly _ id).pre ?_) fun _ => ?_
      · rintro x rfl
        exact ⟨hready.sound, hready.calls, .inr ⟨c, rfl, rfl⟩⟩
      have hback : ∀ x, Kept o ⟨p.calls, some c⟩ x → Ready o p x := fun x h => ⟨h.sound, h.calls⟩
      refine Meets.get fun c' => Meets.onlyIf (fun _ => leads_armLiveRetryTimer.pre fun x h => hback x h.2) ?_
      rintro hmoved x ⟨rfl, h⟩
      refine (hback x h).kept (h.armed.resolve_right ?_)
      rintro ⟨v, hv, hagenda⟩
      obtain rfl := Option.some.inj hv
      let check (v : Client) : Bool := v.connectionEpoch == s.connectionEpoch && v.sessionKey == s.sessionKey && v.live
        && v.ackStallMutationEpoch == c.ackStallMutationEpoch && v.ackStallSinceAt == some at_ && !v.ackStallRecoveryIssued
        && v.liveRetryTimerGeneration == c.liveRetryTimerGeneration && v.ledgerSchedulingMatches c.captureLedgerScheduling
      have hsame : check x.1 = check c := eq_of_agenda check (fun _ => rfl) hagenda
      have hcommitted' : Committed s c at_ := hcommitted
      have hcheck : check c = true := by
        simp [check, hcommitted'.epoch, hcommitted'.session, hcommitted'.live, hcommitted'.since, hcommitted'.issued,
          ledgerSchedulingMatches_self]
      cases hmoved.symm.trans (hsame.trans hcheck)

/-! ### Frames -/

theorem leads_drainResult (msg : InboundMessage) :
    Leads o (Opened o p msg.resultIds) (drainResult msg) fun _ => Kept o p := by
  cases msg with
  | ack ids =>
    cases ids with
    | none => exact Meets.pure fun x hx => hx
    | some ids => exact leads_drainOwnedResult (fun p id => holds_trackerAdvance id .accepted) _
  | inboundRejected overloaded ids =>
    cases overloaded with
    | false => exact Meets.pure fun x hx => hx
    | true =>
      cases ids with
      | none => exact Meets.pure fun x hx => hx
      | some ids => exact leads_drainOwnedResult (fun p id => holds_failSend .overloaded true id) _
  | other => exact Meets.pure fun x hx => hx

/-- The mark of a frame is the one that the observation sets when the frame is decrypted. -/
theorem Kept.opened (h : Kept o p (c, w)) (hkey : c.sessionKey.isSome = true) (msg : Option InboundMessage) :
    Opened o p ((msg.map InboundMessage.resultIds).getD []) (c, w.opened c msg) := by
  let ids := (msg.map InboundMessage.resultIds).getD []
  cases howned : ids.any c.unackedLedger.has with
  | true =>
    have hmarked : w.opened c msg = w.mark (.result (c.detach ids).hasPublishedUnackedOwnership) := if_pos howned
    rw [hmarked, Opened, if_pos howned]
    exact ⟨h.sound.steady.marked (h.sound.steady.recoveries.cons nofun), h.sound.linked, h.calls, hkey, w.log, rfl⟩
  | false =>
    have hsame : w.opened c msg = w := if_neg (Bool.eq_false_iff.mp howned)
    rw [hsame, Opened, if_neg (Bool.eq_false_iff.mp howned)]
    exact h

theorem leads_openAndDeliver (payload : String) :
    Leads o (fun x => Kept o p x ∧ x.1.sessionKey.isSome = true) (openAndDeliver payload) fun _ => Kept o p := by
  refine Meets.bind (Q := fun msg => Opened o p ((msg.map InboundMessage.resultIds).getD []))
    (Meets.query fun c w msg h _ => ⟨trivial, h.1.opened h.2 msg⟩) fun msg => ?_
  cases msg with
  | none => exact Meets.pure fun x hx => hx
  | some msg =>
    exact Meets.bind (leads_drainResult msg) fun _ => holds_call rfl (fun _ _ => rfl) fun _ => trivial

theorem holds_handleRaw (payload : String) : Holds o (Kept o p) (handleRaw payload) := by
  refine Meets.get fun c => Meets.ite (fun hkey => (leads_openAndDeliver payload).pre ?_) fun _ => Meets.ite (fun _ => ?_) fun _ => ?_
  · rintro x ⟨rfl, h⟩
    exact ⟨h, hkey⟩
  · exact Meets.modify fun s w h => ⟨trivial, overlooks_kept s _ w rfl h.2⟩
  · exact Meets.modify fun s w h => ⟨trivial, overlooks_kept s _ w rfl h.2⟩

theorem holds_drainPendingInbound : Holds o (Kept o p) drainPendingInbound := by
  refine Preserves.get fun c => Preserves.onlyIf (Preserves.bind (holds_modify overlooks_kept fun _ => rfl) fun _ => ?_)
  refine Preserves.each fun payload => Meets.get fun c => Meets.onlyIf (fun hkey => (leads_openAndDeliver payload).pre ?_) ?_
  · rintro x ⟨rfl, h⟩
    exact ⟨h, hkey⟩
  · rintro - x ⟨-, h⟩
    exact h

end Webchannel.Session.Retry
