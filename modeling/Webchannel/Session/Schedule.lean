import Webchannel.Session.Watch
import Webchannel.Session.Refinement

/-!
# The browser client: the invariant of the retry schedule

Whenever a listener has control or nothing is on the stack, either the retry timer covers what the
ledger has published, or a suspended program is about to look after it: then everything that the
program will compare is still as it was when the program was suspended. The hooks and the socket
return at once, so between two listeners a program is undisturbed.
-/

namespace Webchannel.Session

open Webchannel.Reentrant Contract

/-- What the retry schedule depends on; the other fields are forgotten. -/
def Client.agenda (c : Client) : Client :=
  { Client.init c.options with
    connected := c.connected
    ws := c.ws
    connectionGeneration := c.connectionGeneration
    terminal := c.terminal
    terminalReached := c.terminalReached
    disconnected := c.disconnected
    sessionKey := c.sessionKey
    unackedLedger := c.unackedLedger
    liveRetryTimer := c.liveRetryTimer
    liveRetryTimerGeneration := c.liveRetryTimerGeneration
    scheduledTimers := c.scheduledTimers
    ackStallSinceAt := c.ackStallSinceAt
    ackStallRecoveryIssued := c.ackStallRecoveryIssued
    ackStallMutationEpoch := c.ackStallMutationEpoch
    connectionEpoch := c.connectionEpoch }

/-! ### Marks -/

section Marks

variable {log : List Mark}

theorem Waiting.mono {t t' : Int} (ht : t ≤ t') (h : Waiting t log) : Waiting t' log := by
  induction log with
  | nil => exact h
  | cons m log ih => exact h.imp (fun h => ⟨h.1.trans ht, h.2⟩) fun h => ⟨h.1, ih h.2⟩

theorem Waiting.cons {t : Int} {m : Mark} (hm : ¬ m.Resets) (h : Waiting t log) : Waiting t (m :: log) := .inr ⟨hm, h⟩

theorem Unspent.cons {m : Mark} (hm : m.event ≠ .recovery) (h : Unspent log) : Unspent (m :: log) := .inr ⟨hm, h⟩

/-- A mark that is no recovery needs no reason. -/
theorem Recoveries.cons {timeout : Nat} {m : Mark} (hm : m.event ≠ .recovery) (h : Recoveries timeout log) :
    Recoveries timeout (m :: log) := ⟨fun h => absurd h hm, h⟩

theorem not_resets_published (id : WireId) (t : Int) : ¬ (Mark.mk (.published id) t).Resets := by
  rintro (⟨remains, h⟩ | h) <;> cases h

end Marks

namespace Retry

variable {c : Client} {w : Watch}

/-! ### Timers -/

/-- The timer that the client holds is the only one that is armed. Generations only grow. -/
structure Timers (c : Client) (w : Watch) : Prop where
  held : (c.liveRetryTimer = none ∧ armedTimers c w = []) ∨ ∃ timer rest, w.timers = timer :: rest ∧
    armedTimers c w = [timer] ∧ c.liveRetryTimer = some timer.generation ∧
    timer.generation = c.liveRetryTimerGeneration
  drawn : ∀ timer ∈ w.timers, timer.generation ≤ c.liveRetryTimerGeneration
  scheduled : ∀ generation ∈ c.scheduledTimers, generation ≤ c.liveRetryTimerGeneration
  nodup : c.scheduledTimers.Nodup

end Retry

def Client.cancelled (c : Client) : Client :=
  { c with liveRetryTimerGeneration := c.liveRetryTimerGeneration + 1, liveRetryTimer := none }

def Watch.cancelled (c : Client) (w : Watch) : Watch :=
  if c.liveRetryTimer.isSome then { w with timers := w.timers.tail } else w

/-- The timers and the ledger. -/
def Client.plan (c : Client) : Options × Option Nat × Nat × List Nat × OrderedMap WireId UnackedLedgerEntry :=
  (c.options, c.liveRetryTimer, c.liveRetryTimerGeneration, c.scheduledTimers, c.unackedLedger)

/-- A timer is set with the next generation. -/
def Client.drawn (c : Client) : Client :=
  { c with
    liveRetryTimerGeneration := c.liveRetryTimerGeneration + 1
    scheduledTimers := (c.liveRetryTimerGeneration + 1) :: c.scheduledTimers }

/-- The client holds the timer that it has set. -/
def Client.armed (c : Client) : Client := { c.drawn with liveRetryTimer := some (c.liveRetryTimerGeneration + 1) }

namespace Retry

variable {o : Options} {c c' : Client} {w w' : Watch}

theorem watch_cancelled (c : Client) (w : Watch) :
    (w.cancelled c).clock = w.clock ∧ (w.cancelled c).calls = w.calls ∧ (w.cancelled c).refused = w.refused ∧
      (w.cancelled c).log = w.log := by
  unfold Watch.cancelled
  split <;> exact ⟨rfl, rfl, rfl, rfl⟩

theorem Timers.none_armed (h : Timers c w) (hnone : c.liveRetryTimer = none) : armedTimers c w = [] := by
  rcases h.held with ⟨-, harmed⟩ | ⟨timer, rest, -, -, hsome, -⟩
  · exact harmed
  · rw [hnone] at hsome
    cases hsome

theorem Timers.cancelled (h : Timers c w) : Timers c.cancelled (w.cancelled c) := by
  have hnext : c.cancelled.liveRetryTimerGeneration = c.liveRetryTimerGeneration + 1 := rfl
  refine ⟨.inl ⟨rfl, ?_⟩, fun timer htimer => ?_, fun generation hgen => ?_, h.nodup⟩
  · show (w.cancelled c).timers.filter (fun timer => c.scheduledTimers.contains timer.generation) = []
    rcases h.held with ⟨hnone, harmed⟩ | ⟨timer, rest, htimers, harmed, hsome, -⟩
    · rw [Watch.cancelled, hnone]
      exact harmed
    · rw [Watch.cancelled, hsome, if_pos Option.isSome_some]
      show w.timers.tail.filter _ = []
      rw [armedTimers, htimers] at harmed
      have hmem : timer ∈ (timer :: rest).filter fun timer => c.scheduledTimers.contains timer.generation := by
        rw [harmed]
        exact List.mem_singleton_self timer
      rw [List.filter_cons, if_pos (List.mem_filter.mp hmem).2] at harmed
      rw [htimers]
      exact (List.cons.inj harmed).2
  · have hold : timer ∈ w.timers := by
      unfold Watch.cancelled at htimer
      split at htimer
      · exact List.mem_of_mem_tail htimer
      · exact htimer
    have := h.drawn timer hold
    omega
  · have := h.scheduled generation hgen
    omega

/-- A new generation is set while no timer is armed. -/
theorem Timers.armed (h : Timers c w) (hnone : c.liveRetryTimer = none) (armedAt due : Int) :
    Timers c.armed { w with timers := ⟨c.liveRetryTimerGeneration + 1, armedAt, due⟩ :: w.timers } ∧
      armedTimers c.armed { w with timers := ⟨c.liveRetryTimerGeneration + 1, armedAt, due⟩ :: w.timers } =
        [⟨c.liveRetryTimerGeneration + 1, armedAt, due⟩] := by
  have hgen : c.armed.liveRetryTimerGeneration = c.liveRetryTimerGeneration + 1 := rfl
  have harmed : armedTimers c.armed { w with timers := ⟨c.liveRetryTimerGeneration + 1, armedAt, due⟩ :: w.timers } =
      [⟨c.liveRetryTimerGeneration + 1, armedAt, due⟩] := by
    have hold : w.timers.filter (fun timer => c.armed.scheduledTimers.contains timer.generation) = [] := by
      rw [← h.none_armed hnone, armedTimers]
      apply List.filter_congr
      intro timer htimer
      have hdrawn := h.drawn timer htimer
      have hne : timer.generation ≠ c.liveRetryTimerGeneration + 1 := by omega
      simp [Client.armed, Client.drawn, hne]
    show List.filter _ (_ :: w.timers) = _
    rw [List.filter_cons, hold]
    simp [Client.armed, Client.drawn]
  refine ⟨⟨.inr ⟨_, _, rfl, harmed, rfl, rfl⟩, fun timer htimer => ?_, fun generation hmem => ?_, ?_⟩, harmed⟩
  · rcases List.mem_cons.mp htimer with rfl | hold
    · exact Nat.le_refl _
    · have := h.drawn timer hold
      omega
  · rcases List.mem_cons.mp hmem with rfl | hold
    · exact Nat.le_refl _
    · have := h.scheduled generation hold
      omega
  · refine List.nodup_cons.mpr ⟨fun hmem => ?_, h.nodup⟩
    have := h.scheduled _ hmem
    omega

/-! ### Invariant -/

/-- What holds at every step. It depends on the fields of `Client.plan`. -/
structure Steady (o : Options) (c : Client) (w : Watch) : Prop where
  options : c.options = o
  timers : Timers c w
  planned : ∀ id entry, c.unackedLedger.get id = some entry → entry.published = true → entry.nextRetryAt.isSome = true
  bounded : c.unackedLedger.size ≤ maxUnacked
  recoveries : Recoveries o.ackStallTimeoutMs w.log

/-- A session goes with a connection, unless the client is retired. -/
structure Linked (c : Client) : Prop where
  session : c.sessionKey.isSome = true →
    c.terminalReached = true ∨ (c.connected = true ∧ c.ws.isSome = true ∧ c.disconnected = false)
  terminal : c.terminal = true → c.terminalReached = true

/-- The allowance is there only when no recovery was begun since the last result, and the stall is
counted from a time since which published work has waited. -/
def Counted (c : Client) (w : Watch) : Prop :=
  c.terminalReached = true ∨ c.ackStallRecoveryIssued = true ∨
    (Unspent w.log ∧ ∀ since, c.ackStallSinceAt = some since → Waiting since w.log)

structure Sound (o : Options) (x : Client × Watch) : Prop where
  steady : Steady o x.1 x.2
  linked : Linked x.1
  counted : Counted x.1 x.2

/-- Published work has its retry timer. -/
def Armed (x : Client × Watch) : Prop :=
  x.1.sessionKey.isSome = true → x.1.live = true → x.1.hasPublishedUnackedOwnership = true → LiveRetry x.1 x.2

/-- Where the environment has control: the entries on the stack, and the state in which a program was
suspended that will look after the timer. -/
structure Place where
  calls : List Entry
  owed : Option Client

def Place.idle : Place := ⟨[], none⟩

structure Kept (o : Options) (p : Place) (x : Client × Watch) : Prop where
  sound : Sound o x
  calls : x.2.calls = p.calls
  armed : Armed x ∨ ∃ v, p.owed = some v ∧ x.1.agenda = v.agenda

/-- Nothing is wrong but for the timer. -/
structure Ready (o : Options) (p : Place) (x : Client × Watch) : Prop where
  sound : Sound o x
  calls : x.2.calls = p.calls

theorem Kept.ready {p : Place} {x : Client × Watch} (h : Kept o p x) : Ready o p x := ⟨h.sound, h.calls⟩

theorem Ready.kept {p : Place} {x : Client × Watch} (h : Ready o p x) (harmed : Armed x) : Kept o p x :=
  ⟨h.sound, h.calls, .inl harmed⟩

/-- A program that is owed nothing relies on the timer. -/
theorem Kept.covered {calls : List Entry} {x : Client × Watch} (h : Kept o ⟨calls, none⟩ x) : Armed x :=
  h.armed.resolve_right fun ⟨_, hv, _⟩ => nomatch hv

theorem Kept.settle {p : Place} {x : Client × Watch} (h : Kept o ⟨p.calls, none⟩ x) : Kept o p x :=
  ⟨h.sound, h.calls, .inl h.covered⟩

/-! ### What the invariant depends on -/

/-- The same timers and the same ledger. -/
theorem Steady.rest (h : Steady o c w) (hplan : c'.plan = c.plan) : Steady o c' w := by
  simp only [Client.plan, Prod.mk.injEq] at hplan
  obtain ⟨hoptions, htimer, hgeneration, hscheduled, hledger⟩ := hplan
  have harmed : armedTimers c' w = armedTimers c w := by rw [armedTimers, armedTimers, hscheduled]
  refine ⟨hoptions.trans h.options, ⟨?_, ?_, ?_, ?_⟩, ?_, ?_, h.recoveries⟩
  · rw [htimer, hgeneration, harmed]
    exact h.timers.held
  · rw [hgeneration]
    exact h.timers.drawn
  · rw [hscheduled, hgeneration]
    exact h.timers.scheduled
  · rw [hscheduled]
    exact h.timers.nodup
  · rw [hledger]
    exact h.planned
  · rw [hledger]
    exact h.bounded

theorem Steady.congr (hagenda : c'.agenda = c.agenda) (h : Steady o c w) : Steady o c' w :=
  h.rest (show c'.agenda.plan = c.agenda.plan from congrArg Client.plan hagenda)

/-- The same timers and a longer log. -/
theorem Steady.marked (h : Steady o c w) {event : WatchEvent}
    (hrecoveries : Recoveries o.ackStallTimeoutMs (⟨event, w.clock⟩ :: w.log)) : Steady o c (w.mark event) :=
  ⟨h.options, ⟨h.timers.held, h.timers.drawn, h.timers.scheduled, h.timers.nodup⟩, h.planned, h.bounded, hrecoveries⟩

theorem Linked.congr (hagenda : c'.agenda = c.agenda) (h : Linked c) : Linked c' := by
  have hlinked : Linked c.agenda := ⟨h.session, h.terminal⟩
  rw [← hagenda] at hlinked
  exact ⟨hlinked.session, hlinked.terminal⟩

theorem Counted.congr (hagenda : c'.agenda = c.agenda) (h : Counted c w) : Counted c' w := by
  have hcounted : Counted c.agenda w := h
  rw [← hagenda] at hcounted
  exact hcounted

theorem Armed.congr (hagenda : c'.agenda = c.agenda) (h : Armed (c, w)) : Armed (c', w) := by
  have harmed : Armed (c.agenda, w) := h
  rw [← hagenda] at harmed
  exact harmed

theorem Sound.congr (hagenda : c'.agenda = c.agenda) (h : Sound o (c, w)) : Sound o (c', w) :=
  ⟨h.steady.congr hagenda, h.linked.congr hagenda, h.counted.congr hagenda⟩

theorem Ready.congr {p : Place} (hagenda : c'.agenda = c.agenda) (h : Ready o p (c, w)) : Ready o p (c', w) :=
  ⟨h.sound.congr hagenda, h.calls⟩

theorem Kept.congr {p : Place} (hagenda : c'.agenda = c.agenda) (h : Kept o p (c, w)) : Kept o p (c', w) := by
  refine ⟨h.sound.congr hagenda, h.calls, ?_⟩
  rcases h.armed with harmed | ⟨v, hv, heq⟩
  · exact .inl (harmed.congr hagenda)
  · exact .inr ⟨v, hv, hagenda.trans heq⟩

/-- The clock is read, a publish is refused, or an entry begins or ends. -/
theorem Steady.watch (hlog : w'.log = w.log) (htimers : w'.timers = w.timers) (h : Steady o c w) : Steady o c w' := by
  have harmed : armedTimers c w' = armedTimers c w := by rw [armedTimers, armedTimers, htimers]
  refine ⟨h.options, ⟨?_, ?_, h.timers.scheduled, h.timers.nodup⟩, h.planned, h.bounded, ?_⟩
  · rw [harmed, htimers]
    exact h.timers.held
  · rw [htimers]
    exact h.timers.drawn
  · rw [hlog]
    exact h.recoveries

theorem Sound.watch (hlog : w'.log = w.log) (htimers : w'.timers = w.timers) (h : Sound o (c, w)) : Sound o (c, w') := by
  refine ⟨h.steady.watch hlog htimers, h.linked, ?_⟩
  show Counted c w'
  rw [Counted, hlog]
  exact h.counted

theorem Armed.watch (htimers : w'.timers = w.timers) (h : Armed (c, w)) : Armed (c, w') := by
  intro hkey hlive hpublished
  obtain ⟨timer, earliest, harmed, hrest⟩ := h hkey hlive hpublished
  refine ⟨timer, earliest, ?_, hrest⟩
  rw [armedTimers, htimers]
  exact harmed

theorem Ready.watch {p : Place} (hlog : w'.log = w.log) (htimers : w'.timers = w.timers) (hcalls : w'.calls = w.calls)
    (h : Ready o p (c, w)) : Ready o p (c, w') := ⟨h.sound.watch hlog htimers, hcalls.trans h.calls⟩

theorem Kept.watch {p : Place} (hlog : w'.log = w.log) (htimers : w'.timers = w.timers) (hcalls : w'.calls = w.calls)
    (h : Kept o p (c, w)) : Kept o p (c, w') :=
  ⟨h.sound.watch hlog htimers, hcalls.trans h.calls, h.armed.imp_left fun harmed => harmed.watch htimers⟩

/-- A message was published. -/
theorem Sound.publishedMark (id : WireId) (h : Sound o (c, w)) : Sound o (c, w.mark (.published id)) := by
  refine ⟨h.steady.marked (h.steady.recoveries.cons nofun), h.linked, ?_⟩
  refine h.counted.imp_right fun h => h.imp_right fun h => ⟨h.1.cons nofun, fun since hsince => ?_⟩
  exact (h.2 since hsince).cons (not_resets_published id _)

/-! ### Sessions that are gone -/

theorem armed_of_no_session (h : c.sessionKey = none) : Armed (c, w) := by
  intro hkey
  rw [show (c, w).1.sessionKey = none from h] at hkey
  cases hkey

theorem armed_of_dead (h : c.live = false) : Armed (c, w) := by
  intro _ hlive
  rw [show (c, w).1.live = false from h] at hlive
  cases hlive

theorem armed_of_unpublished (h : c.hasPublishedUnackedOwnership = false) : Armed (c, w) := by
  intro _ _ hpublished
  rw [show (c, w).1.hasPublishedUnackedOwnership = false from h] at hpublished
  cases hpublished

theorem Sound.socket (h : Sound o (c, w)) (hkey : c.sessionKey.isSome = true) (hlive : c.live = true) :
    c.connected = true ∧ c.ws.isSome = true := by
  rcases h.linked.session hkey with hterminal | hlinked
  · simp only [Client.live, Bool.and_eq_true, Bool.not_eq_true'] at hlive
    rw [hlive.2] at hterminal
    cases hterminal
  · exact ⟨hlinked.1, hlinked.2.1⟩

theorem not_terminal_of_live (hlive : c.live = true) : c.terminalReached = false := by
  simp only [Client.live, Bool.and_eq_true, Bool.not_eq_true'] at hlive
  exact hlive.2

/-! ### Ledger facts -/

theorem hasPublished_iff : c.hasPublishedUnackedOwnership = true ↔
    ∃ id entry, c.unackedLedger.get id = some entry ∧ entry.published = true := by
  rw [Client.hasPublishedUnackedOwnership, List.any_eq_true]
  constructor
  · rintro ⟨⟨id, entry⟩, hmem, hpublished⟩
    exact ⟨id, entry, OrderedMap.mem_entries.mp hmem, hpublished⟩
  · rintro ⟨id, entry, hget, hpublished⟩
    exact ⟨(id, entry), OrderedMap.mem_entries.mpr hget, hpublished⟩

theorem earliestRetry_of_published (h : Steady o c w) (hpublished : c.hasPublishedUnackedOwnership = true) :
    ∃ earliest, c.earliestRetry = some earliest := by
  obtain ⟨id, entry, hget, hentry⟩ := hasPublished_iff.mp hpublished
  obtain ⟨due, hdue⟩ := Option.isSome_iff_exists.mp (h.planned id entry hget hentry)
  have hmem : due ∈ c.unackedLedger.entries.filterMap (·.2.nextRetryAt) :=
    List.mem_filterMap.mpr ⟨(id, entry), OrderedMap.mem_entries.mpr hget, hdue⟩
  cases hmin : c.earliestRetry with
  | none =>
    rw [List.min?_eq_none_iff.mp hmin] at hmem
    cases hmem
  | some earliest => exact ⟨earliest, rfl⟩

theorem ledgerSchedulingMatches_self (c : Client) : c.ledgerSchedulingMatches c.captureLedgerScheduling = true := by
  simp only [Client.ledgerSchedulingMatches, Client.captureLedgerScheduling, List.length_map, OrderedMap.size,
    BEq.rfl, Bool.true_and, List.all_map, List.all_eq_true, Function.comp_apply]
  rintro ⟨id, entry⟩ hmem
  rw [OrderedMap.mem_entries.mp hmem]
  simp

theorem scheduleFence_self (hlive : c.live = true) : c.scheduleFence c = true := by
  simp [Client.scheduleFence, hlive, ledgerSchedulingMatches_self]

/-- The delay of the timer does not pass the earliest retry. -/
theorem timerDelay_le {earliest : Int} (h : c.earliestRetry = some earliest) (now : Int) :
    c.timerDelay now ≤ max 0 (earliest - now) := by
  unfold Client.timerDelay
  rw [h]
  split
  · cases c.ackStallSinceAt with
    | none => simp
    | some since =>
      simp only [Option.map_some, Option.toList_some, List.singleton_append, List.min?_cons, List.min?_nil,
        Option.elim_some, Option.elim_none, Option.getD_some]
      exact Int.min_le_left _ _
  · simp

end Retry

end Webchannel.Session
