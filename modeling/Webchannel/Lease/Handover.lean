import Webchannel.Lease.Safety

/-!
# Exclusion and hand-over

Ownership changes hands inside one step, so who may own a slot is a statement about a step:
the new owner has a live signal, its generation is the newest the slot has seen, and it
comes before every other waiter that is eligible. A run starts later, when the task of the
owner resumes. A newer generation may have arrived in between, and the owner runs all the
same: nobody takes a slot away from its owner.
-/

namespace Webchannel.Lease

open Webchannel.Runs

variable {s s' s'' : State} {k c : Nat} {slot : AccountSlot} {call : Call}

/-! ## The log -/

/-- A probe of an arrival later than `m` has confirmed the close. -/
def Confirmed (events : List Event) (accountId : String) (k m : Nat) : Prop :=
  ∃ arrival report, Event.probed accountId k arrival report ∈ events ∧ m < arrival ∧
    report.confirmed = true

/-- Between an unconfirmed close and the next run of the account there is a probe that
confirms it. -/
def Fenced (events : List Event) : Prop :=
  ∀ pre mid post accountId k m c,
    events = pre ++ .unconfirmed accountId k m :: (mid ++ .started c accountId :: post) →
    Confirmed mid accountId k m

/-- The slot is in quarantine for a close at which `m` had arrived. -/
def Held (s : State) (accountId : String) (k m : Nat) : Prop :=
  ∃ slot q, s.objects.get k = some slot ∧ slot.accountId = accountId ∧ slot.quarantine = some q ∧
    m ≤ q.probeCutoffArrival

structure Logged (s : State) : Prop where
  fenced : Fenced s.events
  held : ∀ pre mid accountId k m, s.events = pre ++ .unconfirmed accountId k m :: mid →
    Confirmed mid accountId k m ∨ Held s accountId k m

theorem concat_eq_split {α : Type} {l pre mid : List α} {e u : α} (h : l ++ [e] = pre ++ u :: mid) :
    (mid = [] ∧ e = u ∧ l = pre) ∨ ∃ mid', mid = mid' ++ [e] ∧ l = pre ++ u :: mid' := by
  rcases List.eq_nil_or_concat mid with rfl | ⟨mid', x, rfl⟩
  · obtain ⟨hl, he⟩ := List.append_inj' h rfl
    exact .inl ⟨rfl, List.singleton_inj.mp he, hl⟩
  · rw [List.concat_eq_append, ← List.cons_append, ← List.append_assoc] at h
    obtain ⟨hl, he⟩ := List.append_inj' h rfl
    obtain rfl := List.singleton_inj.mp he
    exact .inr ⟨mid', List.concat_eq_append, hl⟩

theorem Confirmed.mono {events events' : List Event} {accountId : String} {m : Nat}
    (h : Confirmed events accountId k m) (hsub : events ⊆ events') : Confirmed events' accountId k m := by
  obtain ⟨arrival, report, hmem, hlt, hconf⟩ := h
  exact ⟨arrival, report, hsub hmem, hlt, hconf⟩

theorem Logged.keep (h : Logged s) (hev : s'.events = s.events)
    (hkeep : ∀ a k m, Held s a k m → Held s' a k m) : Logged s' := by
  refine ⟨by rw [hev]; exact h.fenced, fun pre mid a k m heq => ?_⟩
  rw [hev] at heq
  exact (h.held pre mid a k m heq).imp_right (hkeep a k m)

theorem Logged.append (h : Logged s) {e : Event} (hev : s'.events = s.events ++ [e])
    (hstart : ∀ c a, e = .started c a → ∀ k m, ¬ Held s a k m)
    (hnew : ∀ a k m, e = .unconfirmed a k m → Held s' a k m)
    (hkeep : ∀ a k m, Held s a k m → Held s' a k m ∨ Confirmed [e] a k m) : Logged s' := by
  refine ⟨?_, ?_⟩
  · intro pre mid post a k m c heq
    rw [hev, ← List.cons_append, ← List.append_assoc] at heq
    rcases concat_eq_split heq with ⟨-, he, hl⟩ | ⟨post', -, hl⟩
    · -- The run starts now, so the close is not held any more.
      rcases h.held pre mid a k m hl with hconf | hheld
      · exact hconf
      · exact absurd hheld (hstart c a he k m)
    · rw [List.append_assoc, List.cons_append] at hl
      exact h.fenced pre mid post' a k m c hl
  · intro pre mid a k m heq
    rw [hev] at heq
    rcases concat_eq_split heq with ⟨rfl, he, -⟩ | ⟨mid', rfl, hl⟩
    · exact .inr (hnew a k m he)
    · rcases h.held pre mid' a k m hl with hconf | hheld
      · exact .inl (hconf.mono (List.subset_append_left _ _))
      · rcases hkeep a k m hheld with hheld | hconf
        · exact .inr hheld
        · exact .inl (hconf.mono (List.subset_append_right _ _))

theorem Steady.held (h : Steady s s') (a : String) (k m : Nat) (hheld : Held s a k m) :
    Held s' a k m := by
  obtain ⟨slot, q, hk, hacc, hq, hm⟩ := hheld
  obtain ⟨slot', hk', hacc', hq', -⟩ := h.kept k slot hk
  exact ⟨slot', q, hk', hacc'.trans hacc, hq'.trans hq, hm⟩

/-! ## Starts -/

/-- No run starts. -/
structure Quiet (s s' : State) : Prop where
  events : s'.events = s.events
  aborted : s'.aborted = s.aborted
  running : ∀ c call, s'.calls.get c = some call → call.phase = .running → s.calls.get c = some call

theorem Quiet.refl (s : State) : Quiet s s := ⟨rfl, rfl, fun _ _ h _ => h⟩

theorem Quiet.trans (h : Quiet s s') (h' : Quiet s' s'') : Quiet s s'' :=
  ⟨h'.events.trans h.events, h'.aborted.trans h.aborted,
    fun c call hc hp => h.running c call (h'.running c call hc hp) hp⟩

theorem Quiet.setSlot {f : AccountSlot → AccountSlot} : Quiet s (s.setSlot k f) :=
  ⟨rfl, rfl, fun _ _ h _ => h⟩

theorem Quiet.setPhase {phase : Phase} (hp : phase ≠ .running) : Quiet s (s.setPhase c phase) := by
  refine ⟨rfl, rfl, fun c' call' hc' hp' => ?_⟩
  rcases Heap.get_update_cases hc' with ⟨-, a, -, rfl⟩ | ⟨-, hc'⟩
  · exact absurd hp' hp
  · exact hc'

theorem Quiet.alloc (hp : call.phase ≠ .running) : Quiet s { s with calls := s.calls.alloc call } := by
  refine ⟨rfl, rfl, fun c' call' hc' hp' => ?_⟩
  rcases Heap.get_alloc_cases hc' with ⟨-, rfl⟩ | hc'
  · exact absurd hp' hp
  · exact hc'

theorem Quiet.cleanupSlot (accountId : String) : Quiet s (s.cleanupSlot accountId k) := by
  unfold State.cleanupSlot
  split <;> exact ⟨rfl, rfl, fun _ _ h _ => h⟩

theorem Quiet.promote : Quiet s (s.promote k) := by
  unfold State.promote
  split
  · exact .refl s
  · dsimp only
    split
    · exact .setSlot
    · exact Quiet.setSlot.trans (.setPhase (by simp))

theorem Quiet.leave : Quiet s (s.leave c k) := Quiet.setSlot.trans (.setPhase (by simp))

theorem Quiet.release (accountId : String) : Quiet s (s.release accountId c k) :=
  (Quiet.leave.trans .promote).trans (.cleanupSlot accountId)

theorem Quiet.removeWaiter (accountId : String) : Quiet s (s.removeWaiter accountId c k) :=
  Quiet.setSlot.trans (.cleanupSlot accountId)

theorem Quiet.enqueue : Quiet s (s.enqueue c call) := Quiet.setSlot.trans (.setPhase (by simp))

theorem Quiet.maybeProbe (w : Waiter) : Quiet s (s.maybeProbe k w) := by
  unfold State.maybeProbe
  split
  · exact .refl s
  · split
    · exact .refl s
    · exact ⟨rfl, rfl, fun _ _ h _ => h⟩

theorem Quiet.arrived (accountId : String) (generation : Nat) :
    Quiet s (s.arrived accountId generation) := by
  unfold State.arrived State.findSlot
  split <;> exact ⟨rfl, rfl, fun _ _ h _ => h⟩

theorem Quiet.queued (hp : call.phase ≠ .running) : Quiet s (s.queued call) :=
  ((Quiet.alloc hp).trans .enqueue).trans (.maybeProbe _)

theorem Quiet.admitted : Quiet s (s.admitted call) := by
  have hset : Quiet s (s.setSlot call.slot ({ · with owner := some s.calls.next })) := .setSlot
  exact hset.trans (.alloc (by simp))

theorem quiet_of_onAbort (hstep : s.onAbort c = some s') : Quiet s s' := by
  obtain ⟨call, -, hstep⟩ := Option.bind_eq_some_iff.mp hstep
  split at hstep
  · obtain rfl := Option.some.inj hstep
    split
    · exact (Quiet.removeWaiter _).trans (.setPhase (by simp))
    · exact .removeWaiter _
  · cases hstep

theorem quiet_of_callbackReturned (hstep : s.callbackReturned c = some s') : Quiet s s' := by
  obtain ⟨call, -, hstep⟩ := Option.bind_eq_some_iff.mp hstep
  split at hstep
  · dsimp only at hstep
    split at hstep
    · obtain rfl := Option.some.inj hstep
      exact Quiet.leave.trans (.cleanupSlot _)
    · obtain rfl := Option.some.inj hstep
      exact Quiet.leave.trans .enqueue
  · cases hstep

/-- A run that is new in a step has a live signal and is in the log. -/
def Starts (s s' : State) : Prop :=
  ∀ c call, s'.calls.get c = some call → call.phase = .running →
    s.calls.get c = some call ∨
      (call.signal ∉ s'.aborted ∧ s'.events = s.events ++ [.started c call.accountId])

theorem Quiet.starts (h : Quiet s s') : Starts s s' :=
  fun c call hc hp => .inl (h.running c call hc hp)

/-- What `startRun` does: it is quiet, or one live call runs and is logged. -/
theorem startRun_cases (s : State) (c : Nat) (call : Call) :
    (Quiet s (s.startRun c call) ∧ call.signal ∈ s.aborted ∧
        s.startRun c call = s.release call.accountId c call.slot) ∨
      (call.signal ∉ s.aborted ∧
        s.startRun c call =
          { s.setPhase c .running with events := s.events ++ [.started c call.accountId] }) := by
  by_cases hab : s.isAborted call.signal = true
  · have heq : s.startRun c call = s.release call.accountId c call.slot := if_pos hab
    rw [heq]
    exact .inl ⟨.release _, mem_aborted.mp hab, rfl⟩
  · exact .inr ⟨fun hin => hab (mem_aborted.mpr hin), if_neg hab⟩

theorem Starts.startRun (hq : Quiet s s') (hc : s'.calls.get c = some call) :
    Starts s (s'.startRun c call) := by
  rcases startRun_cases s' c call with ⟨hquiet, -, -⟩ | ⟨hab, heq⟩
  · exact (hq.trans hquiet).starts
  · rw [heq]
    intro c' call' hc' hp'
    rcases setPhase_cases hc hc' with ⟨rfl, rfl⟩ | ⟨-, hc'⟩
    · exact .inr ⟨hab, by rw [← hq.events]⟩
    · exact .inl (hq.running c' call' hc' hp')

/-! ## What an action adds to the log -/

/-- While a call owns its slot and runs, no slot of the account is in quarantine. -/
theorem Core.not_held (h : Core s none none) (hc : s.calls.get c = some call)
    (hp : call.phase = .running) (k m : Nat) : ¬ Held s call.accountId k m := by
  rintro ⟨slot, q, hk, hacc, hq, -⟩
  obtain ⟨slot', hk'⟩ := h.calls c call hc
  obtain ⟨hinv, -⟩ := h.slots call.slot slot' hk'
  have howner := hinv.owned c call hc rfl (by rw [hp]; rfl)
  have hlive := h.live k slot hk (by simp [AccountSlot.isEmpty, hq])
  have hlive' := h.live call.slot slot' hk' (by simp [AccountSlot.isEmpty, howner])
  rw [hacc, hinv.account c call hc rfl, hlive'] at hlive
  obtain rfl := Option.some.inj hlive
  obtain rfl := Option.some.inj (hk.symm.trans hk')
  have hphase := (hinv.fenced c call howner hc).mp (by rw [hq]; rfl)
  rw [hp] at hphase
  cases hphase

theorem Logged.startRun (h : Logged s) (hs : Steady s s') (hq : Quiet s s')
    (hc : s'.calls.get c = some call) (hcore : Core (s'.startRun c call) none none) :
    Logged (s'.startRun c call) := by
  have hsteady : Steady s (s'.startRun c call) := hs.trans .startRun
  rcases startRun_cases s' c call with ⟨hquiet, -, -⟩ | ⟨-, heq⟩
  · exact h.keep (hq.trans hquiet).events hsteady.held
  · refine h.append (e := .started c call.accountId) ?_ ?_ (by simp) (fun a k m hh => .inl (hsteady.held a k m hh))
    · rw [heq, ← hq.events]
    · rintro c' a ⟨⟩ k m hheld
      have hrun : (s'.startRun c call).calls.get c = some { call with phase := .running } := by
        rw [heq]
        exact Heap.get_update_self hc
      exact hcore.not_held hrun rfl k m (hsteady.held _ k m hheld)

theorem Held.setSlot {f : AccountSlot → AccountSlot} {a : String} {k' m : Nat} (h : Held s a k' m)
    (hne : k' ≠ k) : Held (s.setSlot k f) a k' m := by
  obtain ⟨slot, q, hk, hrest⟩ := h
  exact ⟨slot, q, by rw [State.setSlot, Heap.get_update_of_ne hne]; exact hk, hrest⟩

theorem Logged.settle (h : Logged s) (hcore : Core s none none) {settlement : Settlement}
    (hstep : s.settle c settlement = some s') : Logged s' := by
  obtain ⟨call, hc, hstep⟩ := Option.bind_eq_some_iff.mp hstep
  obtain ⟨slot, hk, hstep⟩ := Option.bind_eq_some_iff.mp hstep
  obtain ⟨hinv, -⟩ := hcore.slots call.slot slot hk
  split at hstep
  · rename_i hp
    split at hstep
    · obtain rfl := Option.some.inj hstep
      exact h.keep (Quiet.release _).events (Steady.release _).held
    · obtain rfl := Option.some.inj hstep
      have hacc := hinv.account c call hc rfl
      refine h.append (e := .unconfirmed call.accountId call.slot slot.nextArrival) rfl (by simp) ?_ ?_
      · rintro a k m ⟨⟩
        exact ⟨_, _, Heap.get_update_self hk, hacc.symm, rfl, Nat.le_refl _⟩
      · intro a k m hheld
        have hne : k ≠ call.slot := by
          rintro rfl
          obtain ⟨slot', q, hk', ha, hrest⟩ := hheld
          obtain rfl := Option.some.inj (hk.symm.trans hk')
          rw [← hacc] at ha
          subst ha
          exact hcore.not_held hc hp call.slot m ⟨slot, q, hk, hacc.symm, hrest⟩
        exact .inl (hheld.setSlot hne)
  · cases hstep

theorem Logged.settleProbe (h : Logged s) (hprobing : Probing s) {i : Nat}
    {outcome : Option TransportCloseReport} (hstep : s.settleProbe i outcome = some s') : Logged s' := by
  obtain ⟨probe, slot, hi, hk, hcases⟩ := settleProbe_cases hstep
  rcases hcases with ⟨-, rfl⟩ | ⟨q, hq, hid, hcases⟩
  · exact h.keep rfl fun _ _ _ hh => hh
  · -- What the quarantine holds had arrived before the waiter that asked for the probe.
    have hat {a : String} {m : Nat} (hheld : Held s a probe.slot m) :
        slot.accountId = a ∧ m ≤ q.probeCutoffArrival := by
      obtain ⟨slot', q', hk', ha, hq', hm⟩ := hheld
      obtain rfl := Option.some.inj (hk.symm.trans hk')
      obtain rfl := Option.some.inj (hq.symm.trans hq')
      exact ⟨ha, hm⟩
    have hcut := ((hprobing.pending probe (List.mem_of_getElem? hi)).2 probe.slot slot q hk hq hid).2
    rcases hcases with ⟨report, hconf, rfl⟩ | ⟨events, hevents, rfl⟩
    · refine h.append (e := .probed slot.accountId probe.slot probe.arrival report) ?_ (by simp) (by simp) ?_
      · exact ((Quiet.setSlot.trans .promote).trans (.cleanupSlot _)).events
      · intro a k m hheld
        by_cases hne : k = probe.slot
        · subst hne
          obtain ⟨rfl, hm⟩ := hat hheld
          exact .inr ⟨_, _, List.mem_singleton.mpr rfl, Nat.lt_of_le_of_lt hm hcut, hconf⟩
        · refine .inl ((Steady.promote.trans (.cleanupSlot _)).held a k m ?_)
          exact Held.setSlot hheld hne
    · have hkeep (a : String) (k m : Nat) (hheld : Held s a k m) :
          Held (({ s with probes := s.probes.eraseIdx i, events }.setSlot probe.slot
            ({ · with quarantine := some { q with
              probing := false, probeCutoffArrival := slot.nextArrival } })).cleanupSlot
                slot.accountId probe.slot) a k m := by
        refine (Steady.cleanupSlot _).held a k m ?_
        by_cases hne : k = probe.slot
        · subst hne
          obtain ⟨rfl, hm⟩ := hat hheld
          exact ⟨_, _, Heap.get_update_self hk, rfl, rfl,
            Nat.le_trans hm (hprobing.quarantined _ slot q hk hq).2.1⟩
        · exact Held.setSlot hheld hne
      have hev := (Quiet.cleanupSlot (s := { s with probes := s.probes.eraseIdx i, events }.setSlot
        probe.slot ({ · with quarantine := some { q with
          probing := false, probeCutoffArrival := slot.nextArrival } })) (k := probe.slot)
            slot.accountId).events
      rcases hevents with rfl | ⟨report, -, rfl⟩
      · exact h.keep hev hkeep
      · exact h.append hev (by simp) (by simp) fun a k m hh => .inl (hkeep a k m hh)

theorem held_queued {a : String} {m : Nat} (h : Held s a k m) : Held (s.queued call) a k m := by
  have henqueue : Held ({ s with calls := s.calls.alloc call }.enqueue s.calls.next call) a k m :=
    Steady.enqueue.held a k m h
  obtain ⟨slot, q, hk, ha, hq, hm⟩ := henqueue
  unfold State.queued State.maybeProbe
  split
  · exact ⟨slot, q, hk, ha, hq, hm⟩
  · rename_i q' hget
    split
    · exact ⟨slot, q, hk, ha, hq, hm⟩
    · by_cases hne : k = call.slot
      · subst hne
        rw [hk, Option.bind_some, hq] at hget
        obtain rfl := Option.some.inj hget
        exact ⟨_, _, Heap.get_update_self hk, ha, rfl, hm⟩
      · exact ⟨slot, q, by rw [State.setSlot, Heap.get_update_of_ne hne]; exact hk, ha, hq, hm⟩

theorem Logged.runAccount (h : Logged s) (hcore : Core s none none) {accountId : String} {signal : Nat}
    (hstep : s.runAccount accountId signal = some s') : Logged s' := by
  have hcore' := hcore.runAccount hstep
  obtain ⟨install, slot, call, -, -, hcall, hcases⟩ := runAccount_cases hstep
  have hphase : call.phase ≠ .running := by simp [hcall, newCall]
  have hsteady : Steady s (s.arrived accountId install.generation) :=
    (Steady.findSlot accountId).trans (.arrive _)
  have hquiet : Quiet s (s.arrived accountId install.generation) := .arrived _ _
  rcases hcases with ⟨-, -, rfl⟩ | ⟨-, hcases⟩
  · refine h.startRun (hsteady.trans (steady_admitted call)) (hquiet.trans .admitted) ?_ hcore'
    rw [← arrived_calls (s := s) accountId install.generation]
    exact Heap.get_alloc_next _ _
  · have hqueue : Logged ((s.arrived accountId install.generation).queued call) := by
      refine h.keep (hquiet.trans (.queued hphase)).events fun a k m hheld => ?_
      exact held_queued (hsteady.held a k m hheld)
    rcases hcases with ⟨-, rfl⟩ | ⟨-, rfl⟩
    · refine hqueue.keep ?_ ((Steady.removeWaiter _).trans (.setPhase _)).held
      exact ((Quiet.removeWaiter _).trans (.setPhase (by simp))).events
    · exact hqueue

theorem Logged.step (h : Logged s) (hinv : s.Inv) {a : Action} (hstep : s.step a = some s') :
    Logged s' := by
  have hinv' := hinv.step hstep
  cases a with
  | installFull full fingerprint =>
    obtain rfl := Option.some.inj hstep
    refine h.keep ?_ (steady_of_installFull full fingerprint).held
    unfold State.installFull
    split
    · split <;> rfl
    · rfl
  | runAccount accountId signal => exact h.runAccount hinv.core hstep
  | abort signal =>
    obtain rfl := Option.some.inj hstep
    exact h.keep rfl fun _ _ _ hh => hh
  | onAbort c => exact h.keep (quiet_of_onAbort hstep).events (steady_of_onAbort hstep).held
  | resume c =>
    obtain ⟨-, hstep⟩ := step_guarded hstep
    obtain ⟨call, hc, hstep⟩ := Option.bind_eq_some_iff.mp hstep
    split at hstep
    · obtain rfl := Option.some.inj hstep
      exact h.startRun (.refl s) (.refl s) hc hinv'.core
    · obtain rfl := Option.some.inj hstep
      exact h.keep rfl (Steady.setPhase _).held
    · cases hstep
  | settle c settlement =>
    obtain ⟨-, hstep⟩ := step_guarded hstep
    exact h.settle hinv.core hstep
  | callbackReturned c =>
    exact h.keep (quiet_of_callbackReturned hstep).events (steady_of_callbackReturned hstep).held
  | settleProbe i outcome =>
    obtain ⟨-, hstep⟩ := step_guarded hstep
    exact h.settleProbe hinv.probing hstep

theorem Starts.step {a : Action} (hstep : s.step a = some s') : Starts s s' := by
  cases a with
  | installFull full fingerprint =>
    obtain rfl := Option.some.inj hstep
    refine Quiet.starts ⟨?_, ?_, ?_⟩ <;> unfold State.installFull <;> split <;> try split
    all_goals first | rfl | exact fun _ _ hc _ => hc
  | runAccount accountId signal =>
    obtain ⟨install, slot, call, -, -, hcall, hcases⟩ := runAccount_cases hstep
    have hphase : call.phase ≠ .running := by simp [hcall, newCall]
    have hquiet : Quiet s (s.arrived accountId install.generation) := .arrived _ _
    rcases hcases with ⟨-, -, rfl⟩ | ⟨-, hcases⟩
    · refine Starts.startRun (hquiet.trans .admitted) ?_
      rw [← arrived_calls (s := s) accountId install.generation]
      exact Heap.get_alloc_next _ _
    · rcases hcases with ⟨-, rfl⟩ | ⟨-, rfl⟩
      · refine ((hquiet.trans (.queued hphase)).trans ?_).starts
        exact (Quiet.removeWaiter _).trans (.setPhase (by simp))
      · exact (hquiet.trans (.queued hphase)).starts
  | abort signal =>
    obtain rfl := Option.some.inj hstep
    exact fun c call hc _ => .inl hc
  | onAbort c => exact (quiet_of_onAbort hstep).starts
  | resume c =>
    obtain ⟨-, hstep⟩ := step_guarded hstep
    obtain ⟨call, hc, hstep⟩ := Option.bind_eq_some_iff.mp hstep
    split at hstep
    · obtain rfl := Option.some.inj hstep
      exact .startRun (.refl s) hc
    · obtain rfl := Option.some.inj hstep
      exact (Quiet.setPhase (by simp)).starts
    · cases hstep
  | settle c settlement =>
    obtain ⟨-, hstep⟩ := step_guarded hstep
    obtain ⟨call, hc, hstep⟩ := Option.bind_eq_some_iff.mp hstep
    obtain ⟨slot, hk, hstep⟩ := Option.bind_eq_some_iff.mp hstep
    split at hstep
    · split at hstep
      · obtain rfl := Option.some.inj hstep
        exact (Quiet.release _).starts
      · obtain rfl := Option.some.inj hstep
        intro c' call' hc' hp'
        rcases setPhase_cases hc hc' with ⟨-, rfl⟩ | ⟨-, hc'⟩
        · cases hp'
        · exact .inl hc'
    · cases hstep
  | callbackReturned c => exact (quiet_of_callbackReturned hstep).starts
  | settleProbe i outcome =>
    obtain ⟨-, hstep⟩ := step_guarded hstep
    obtain ⟨probe, slot, -, -, hcases⟩ := settleProbe_cases hstep
    rcases hcases with ⟨-, rfl⟩ | ⟨q, -, -, ⟨report, -, rfl⟩ | ⟨events, -, rfl⟩⟩
    · exact fun c call hc _ => .inl hc
    · intro c call hc hp
      have hbefore := ((Quiet.setSlot.trans .promote).trans (.cleanupSlot _)).running c call hc hp
      exact .inl hbefore
    · intro c call hc hp
      have hbefore := (Quiet.setSlot.trans (.cleanupSlot _)).running c call hc hp
      exact .inl hbefore

/-! ## Grants -/

/-- Nobody becomes an owner. -/
def NoGrant (s s' : State) : Prop :=
  ∀ k slot' c, s'.objects.get k = some slot' → slot'.owner = some c →
    ∃ slot, s.objects.get k = some slot ∧ slot.owner = some c

/-- Nobody becomes an owner and the waiters are the same. -/
structure Handed (s s' : State) : Prop where
  owners : NoGrant s s'
  waiters : ∀ k slot, s.objects.get k = some slot → ∃ slot', s'.objects.get k = some slot' ∧
    slot'.waiters = slot.waiters
  aborted : s'.aborted = s.aborted

/-- Whoever becomes an owner in a step has a live signal and the newest generation, and comes
before every waiter of which the same is true. -/
def Chosen (s s' : State) : Prop :=
  ∀ k slot' c call, s'.objects.get k = some slot' → slot'.owner = some c → s'.calls.get c = some call →
    (∃ slot, s.objects.get k = some slot ∧ slot.owner = some c) ∨
      (call.signal ∉ s'.aborted ∧ slot'.highestGeneration ≤ call.generation ∧
        ∀ slot w, s.objects.get k = some slot → w ∈ slot.waiters → w.signal ∉ s.aborted →
          slot'.highestGeneration ≤ w.generation → State.precedes (call.waiter c) w)

theorem NoGrant.refl (s : State) : NoGrant s s := fun _ slot _ hk ho => ⟨slot, hk, ho⟩

theorem NoGrant.of_objects (h : s'.objects = s.objects) : NoGrant s s' := by
  intro k slot c hk ho
  rw [h] at hk
  exact ⟨slot, hk, ho⟩

theorem NoGrant.trans (h : NoGrant s s') (h' : NoGrant s' s'') : NoGrant s s'' := by
  intro k slot c hk ho
  obtain ⟨slot', hk', ho'⟩ := h' k slot c hk ho
  exact h k slot' c hk' ho'

theorem NoGrant.setSlot {f : AccountSlot → AccountSlot}
    (hf : ∀ slot c, (f slot).owner = some c → slot.owner = some c) : NoGrant s (s.setSlot k f) := by
  intro k' slot' c hk' ho
  rcases Heap.get_update_cases hk' with ⟨rfl, a, ha, rfl⟩ | ⟨-, hold⟩
  · exact ⟨a, ha, hf a c ho⟩
  · exact ⟨slot', hold, ho⟩

theorem cleanupSlot_objects (accountId : String) :
    (s.cleanupSlot accountId k).objects = s.objects := by
  unfold State.cleanupSlot
  split <;> rfl

theorem cleanupSlot_calls (accountId : String) : (s.cleanupSlot accountId k).calls = s.calls := by
  unfold State.cleanupSlot
  split <;> rfl

theorem NoGrant.removeWaiter (accountId : String) : NoGrant s (s.removeWaiter accountId c k) := by
  have hset : NoGrant s (s.setSlot k fun slot => { slot with
      waiters := slot.waiters.filter (·.call ≠ c) }) := .setSlot fun _ _ ho => ho
  exact hset.trans (.of_objects (cleanupSlot_objects _))

theorem NoGrant.enqueue : NoGrant s (s.enqueue c call) := by
  have hset : NoGrant s (s.setSlot call.slot fun slot => { slot with
      waiters := slot.waiters ++ [call.waiter c] }) := .setSlot fun _ _ ho => ho
  exact hset.trans (.of_objects rfl)

theorem Handed.setSlot {f : AccountSlot → AccountSlot}
    (hf : ∀ slot c, (f slot).owner = some c → slot.owner = some c)
    (hw : ∀ slot, (f slot).waiters = slot.waiters) : Handed s (s.setSlot k f) := by
  refine ⟨.setSlot hf, fun k' slot hk' => ?_, rfl⟩
  by_cases hne : k' = k
  · subst hne
    exact ⟨f slot, Heap.get_update_self hk', hw slot⟩
  · exact ⟨slot, by rw [State.setSlot, Heap.get_update_of_ne hne]; exact hk', rfl⟩

theorem Handed.of_objects (h : s'.objects = s.objects) (hab : s'.aborted = s.aborted) : Handed s s' :=
  ⟨.of_objects h, fun _ slot hk => ⟨slot, by rw [h]; exact hk, rfl⟩, hab⟩

theorem Handed.trans (h : Handed s s') (h' : Handed s' s'') : Handed s s'' := by
  refine ⟨h.owners.trans h'.owners, fun k slot hk => ?_, h'.aborted.trans h.aborted⟩
  obtain ⟨slot', hk', hw⟩ := h.waiters k slot hk
  obtain ⟨slot'', hk'', hw'⟩ := h'.waiters k slot' hk'
  exact ⟨slot'', hk'', hw'.trans hw⟩

theorem Handed.leave : Handed s (s.leave c k) := by
  have hset : Handed s (s.setSlot k fun slot => { slot with
      owner := if slot.owner = some c then none else slot.owner }) := by
    refine .setSlot (fun slot c' ho => ?_) fun _ => rfl
    dsimp only at ho
    split at ho
    · cases ho
    · exact ho
  exact hset.trans (.of_objects rfl rfl)

theorem Handed.arrived (accountId : String) (generation : Nat) :
    Handed s (s.arrived accountId generation) := by
  have hfind : Handed s (s.findSlot accountId).2 := by
    unfold State.findSlot
    split
    · exact .of_objects rfl rfl
    · refine ⟨fun k slot' c hk' ho => ?_, fun k slot hk => ?_, rfl⟩
      · rcases Heap.get_alloc_cases hk' with ⟨-, rfl⟩ | hold
        · cases ho
        · exact ⟨slot', hold, ho⟩
      · exact ⟨slot, Heap.get_alloc_of_some hk, rfl⟩
  exact hfind.trans (.setSlot (fun _ _ ho => ho) fun _ => rfl)

theorem NoGrant.chosen (h : NoGrant s s') : Chosen s s' :=
  fun k slot' c _ hk ho _ => .inl (h k slot' c hk ho)

theorem Chosen.after (hc : Chosen s' s'') (h : Handed s s') : Chosen s s'' := by
  intro k slot' c call hk ho hcall
  rcases hc k slot' c call hk ho hcall with ⟨slot, hk₁, ho₁⟩ | ⟨hab, hge, hfirst⟩
  · exact .inl (h.owners k slot c hk₁ ho₁)
  · refine .inr ⟨hab, hge, fun slot w hk₀ hw hlive hwge => ?_⟩
    obtain ⟨slot₁, hk₁, hwaiters⟩ := h.waiters k slot hk₀
    exact hfirst slot₁ w hk₁ (by rw [hwaiters]; exact hw) (by rw [h.aborted]; exact hlive) hwge

theorem Chosen.cleanupSlot (h : Chosen s s') (accountId : String) :
    Chosen s (s'.cleanupSlot accountId k) := by
  intro k' slot' c call hk ho hcall
  rw [cleanupSlot_objects] at hk
  rw [cleanupSlot_calls] at hcall
  rw [(Quiet.cleanupSlot accountId).aborted]
  exact h k' slot' c call hk ho hcall

theorem Chosen.promote {loose open_ : Option Nat} (h : Core s loose open_) : Chosen s (s.promote k) := by
  cases hk : s.objects.get k with
  | none =>
    have heq : s.promote k = s := by simp only [State.promote, hk]
    rw [heq]
    exact (NoGrant.refl s).chosen
  | some slot =>
    unfold State.promote
    rw [hk]
    dsimp only
    cases hsel : s.select { slot with waiters := slot.waiters.filter fun w => !s.isAborted w.signal } with
    | none =>
      refine NoGrant.chosen (NoGrant.setSlot ?_)
      exact fun _ _ ho => ho
    | some w =>
      obtain ⟨⟨hw, hab, hge⟩, hfirst⟩ := select_some hsel
      obtain ⟨call, hcall, -, -, hwaiter⟩ :=
        (h.slots k slot hk).1.waiter w (List.mem_of_mem_filter hw)
      intro k' slot' c call' hk' ho hcall'
      rcases Heap.get_update_cases hk' with ⟨rfl, a, ha, rfl⟩ | ⟨-, hold⟩
      · obtain rfl := Option.some.inj (hk.symm.trans ha)
        obtain rfl := Option.some.inj ho
        rcases setPhase_cases hcall hcall' with ⟨-, rfl⟩ | ⟨hne, -⟩
        · have hsignal : w.signal = call.signal := by rw [hwaiter]; rfl
          have hgen : w.generation = call.generation := by rw [hwaiter]; rfl
          refine .inr ⟨by rw [← hsignal]; exact hab, by rw [← hgen]; exact hge, ?_⟩
          intro slot₀ w' hk₀ hw' hlive hwge
          obtain rfl := Option.some.inj (hk.symm.trans hk₀)
          have hin : w' ∈ slot.waiters.filter fun w => !s.isAborted w.signal :=
            List.mem_filter.mpr ⟨hw', by simpa [State.isAborted] using hlive⟩
          have hprec := hfirst w' ⟨hin, hlive, hwge⟩
          rw [hwaiter] at hprec
          exact hprec
        · exact absurd rfl hne
      · exact .inl ⟨slot', hold, ho⟩

theorem Chosen.release (h : Core s none none) (hc : s.calls.get c = some call)
    (hp : call.phase.owns = true) : Chosen s (s.release call.accountId c call.slot) := by
  obtain ⟨slot, hk⟩ := h.calls c call hc
  exact ((Chosen.promote (h.leave hc hk hp).1).after .leave).cleanupSlot _

theorem Chosen.resume (h : Core s none none) (hstep : s.resume c = some s') : Chosen s s' := by
  obtain ⟨call, hc, hstep⟩ := Option.bind_eq_some_iff.mp hstep
  split at hstep
  · rename_i hp
    obtain rfl := Option.some.inj hstep
    rcases startRun_cases s c call with ⟨-, -, heq⟩ | ⟨-, heq⟩
    · rw [heq]
      exact .release h hc (by rw [hp]; rfl)
    · rw [heq]
      exact (NoGrant.of_objects rfl).chosen
  · obtain rfl := Option.some.inj hstep
    exact (NoGrant.of_objects rfl).chosen
  · cases hstep

/-- A call that finds its slot free has no rival: whoever waits there is too old. -/
theorem Chosen.admitted {loose : Option Nat} (h : Core s loose none)
    (hk : s.objects.get call.slot = some slot) (ho : slot.owner = none) (hq : slot.quarantine = none)
    (hgen : slot.highestGeneration = call.generation) (hab : call.signal ∉ s.aborted)
    (events : List Event) :
    Chosen s { (s.admitted call).setPhase s.calls.next .running with events } := by
  intro k slot' c call' hk' ho' hc'
  rcases Heap.get_update_cases hk' with ⟨rfl, a, ha, rfl⟩ | ⟨-, hold⟩
  · obtain rfl := Option.some.inj (hk.symm.trans ha)
    obtain rfl := Option.some.inj ho'
    have hself : (s.admitted call).calls.get s.calls.next = some { call with phase := .granted } :=
      Heap.get_alloc_next _ _
    rcases setPhase_cases hself hc' with ⟨-, rfl⟩ | ⟨hne, -⟩
    · refine .inr ⟨hab, Nat.le_of_eq hgen, fun slot₀ w hk₀ hw hlive hge => ?_⟩
      obtain rfl := Option.some.inj (hk.symm.trans hk₀)
      have hlt := (h.slots call.slot slot hk).1.served (by simp) ho hq w hw hlive
      exact absurd hge (Nat.not_le.mpr hlt)
    · exact absurd rfl hne
  · exact .inl ⟨slot', hold, ho'⟩

/-- A call that has aborted before it could run leaves its slot as it found it. -/
theorem Handed.admitted_leave (hk : s.objects.get call.slot = some slot) :
    Handed s ((s.admitted call).leave s.calls.next call.slot) := by
  refine ⟨fun k slot' c hk' ho' => ?_, fun k slot₀ hk₀ => ?_, rfl⟩
  · rcases Heap.get_update_cases hk' with ⟨rfl, a, ha, rfl⟩ | ⟨hne, hold⟩
    · obtain rfl := Option.some.inj ((Heap.get_update_self hk).symm.trans ha)
      simp at ho'
    · rcases Heap.get_update_cases hold with ⟨heq, -⟩ | ⟨-, hold⟩
      · exact absurd heq hne
      · exact ⟨slot', hold, ho'⟩
  · by_cases hne : k = call.slot
    · subst hne
      obtain rfl := Option.some.inj (hk.symm.trans hk₀)
      exact ⟨_, Heap.get_update_self (Heap.get_update_self hk), rfl⟩
    · refine ⟨slot₀, ?_, rfl⟩
      change ((s.objects.update call.slot _).update call.slot _).get k = _
      rw [Heap.get_update_of_ne hne, Heap.get_update_of_ne hne]
      exact hk₀

theorem noGrant_maybeProbe (w : Waiter) : NoGrant s (s.maybeProbe k w) := by
  unfold State.maybeProbe
  split
  · exact .refl s
  · split
    · exact .refl s
    · exact NoGrant.setSlot fun _ _ ho => ho

theorem Chosen.runAccount (h : Core s none none) {accountId : String} {signal : Nat}
    (hstep : s.runAccount accountId signal = some s') : Chosen s s' := by
  obtain ⟨install, slot, call, hi, hk, hcall, hcases⟩ := runAccount_cases hstep
  obtain ⟨slot', hk', hacc, hgen, hmap, hcore⟩ := h.arrived accountId hi
  have hslot : call.slot = (s.findSlot accountId).1 := by rw [hcall]; rfl
  have hgeneration : call.generation = install.generation := by rw [hcall]; rfl
  have hcalls := arrived_calls (s := s) accountId install.generation
  rw [← hslot] at hk' hmap hcore
  obtain rfl := Option.some.inj (hk.symm.trans hk')
  rcases hcases with ⟨ho, hq, rfl⟩ | ⟨-, hcases⟩
  · rw [← hcalls]
    have hself : ((s.arrived accountId install.generation).admitted call).calls.get
        (s.arrived accountId install.generation).calls.next = some { call with phase := .granted } :=
      Heap.get_alloc_next _ _
    have hadmitted : Core ((s.arrived accountId install.generation).admitted call) none none := by
      refine hcore.admits hk ?_ ?_ ho hq
      · rw [hacc]
        exact hmap
      · rw [hacc, hcall]
        rfl
    refine Chosen.after ?_ (.arrived accountId install.generation)
    rcases startRun_cases ((s.arrived accountId install.generation).admitted call)
      (s.arrived accountId install.generation).calls.next { call with phase := .granted } with
      ⟨-, -, heq⟩ | ⟨hab, heq⟩
    · rw [heq]
      have hleave := (hadmitted.leave hself (Heap.get_update_self hk) rfl).1
      exact ((Chosen.promote hleave).after (.admitted_leave hk)).cleanupSlot _
    · rw [heq]
      exact .admitted hcore hk ho hq (hgen.trans hgeneration.symm) hab _
  · have hqueue : NoGrant s ((s.arrived accountId install.generation).queued call) := by
      refine ((Handed.arrived accountId install.generation).owners.trans ?_).trans (noGrant_maybeProbe _)
      exact (NoGrant.of_objects rfl).trans .enqueue
    rcases hcases with ⟨-, rfl⟩ | ⟨-, rfl⟩
    · have hgone := hqueue.trans (NoGrant.removeWaiter (c := s.calls.next) (k := call.slot) accountId)
      refine NoGrant.chosen (hgone.trans ?_)
      exact .of_objects rfl
    · exact hqueue.chosen

theorem Chosen.step (h : s.Inv) {a : Action} (hstep : s.step a = some s') : Chosen s s' := by
  cases a with
  | installFull full fingerprint =>
    obtain rfl := Option.some.inj hstep
    refine (NoGrant.of_objects ?_).chosen
    unfold State.installFull
    split
    · split <;> rfl
    · rfl
  | runAccount accountId signal => exact .runAccount h.core hstep
  | abort signal =>
    obtain rfl := Option.some.inj hstep
    refine NoGrant.chosen ?_
    exact .of_objects rfl
  | onAbort c =>
    obtain ⟨call, -, hstep⟩ := Option.bind_eq_some_iff.mp hstep
    split at hstep
    · obtain rfl := Option.some.inj hstep
      refine NoGrant.chosen ?_
      split
      · exact (NoGrant.removeWaiter _).trans (.of_objects rfl)
      · exact .removeWaiter _
    · cases hstep
  | resume c =>
    obtain ⟨-, hstep⟩ := step_guarded hstep
    exact .resume h.core hstep
  | settle c settlement =>
    obtain ⟨-, hstep⟩ := step_guarded hstep
    obtain ⟨call, hc, hstep⟩ := Option.bind_eq_some_iff.mp hstep
    obtain ⟨slot, hk, hstep⟩ := Option.bind_eq_some_iff.mp hstep
    split at hstep
    · rename_i hp
      split at hstep
      · obtain rfl := Option.some.inj hstep
        exact .release h.core hc (by rw [hp]; rfl)
      · obtain rfl := Option.some.inj hstep
        refine NoGrant.chosen (NoGrant.setSlot ?_)
        exact fun _ _ ho => ho
    · cases hstep
  | callbackReturned c =>
    obtain ⟨call, -, hstep⟩ := Option.bind_eq_some_iff.mp hstep
    split at hstep
    · dsimp only at hstep
      split at hstep
      · obtain rfl := Option.some.inj hstep
        exact (Handed.leave.owners.trans (.of_objects (cleanupSlot_objects _))).chosen
      · obtain rfl := Option.some.inj hstep
        exact (Handed.leave.owners.trans .enqueue).chosen
    · cases hstep
  | settleProbe i outcome =>
    obtain ⟨hcb, hstep⟩ := step_guarded hstep
    obtain ⟨probe, slot, -, hk, hcases⟩ := settleProbe_cases hstep
    rcases hcases with ⟨-, rfl⟩ | ⟨q, hq, -, ⟨report, -, rfl⟩ | ⟨events, -, rfl⟩⟩
    · exact (NoGrant.of_objects rfl).chosen
    · have hsome : slot.quarantine.isSome = true := by rw [hq]; rfl
      have hend := h.core.unquarantined hk (h.core.unowned hcb hk hsome) hq (s.probes.eraseIdx i)
        (s.events ++ [.probed slot.accountId probe.slot probe.arrival report])
      refine ((Chosen.promote hend).after ?_).cleanupSlot _
      refine Handed.trans ?_ (Handed.setSlot ?_ ?_)
      · exact .of_objects rfl rfl
      · exact fun _ _ ho => ho
      · exact fun _ => rfl
    · refine NoGrant.chosen (NoGrant.trans ?_ (.of_objects (cleanupSlot_objects _)))
      exact NoGrant.setSlot fun _ _ ho => ho

/-! ## Every run -/

theorem logged_init : Logged State.init := by
  refine ⟨fun pre mid post a k m c heq => ?_, fun pre mid a k m heq => ?_⟩
  · exact absurd heq (by simp [State.init])
  · exact absurd heq (by simp [State.init])

theorem logged_of_reached (h : Reached State.step State.init s) : Logged s := by
  have hboth : s.Inv ∧ Logged s :=
    ReachedBy.invariant (I := fun s => s.Inv ∧ Logged s) h ⟨inv_init, logged_init⟩
      fun _ _ _ hI _ hstep => ⟨hI.1.step hstep, hI.2.step hI.1 hstep⟩
  exact hboth.2

/-- What the coordinator promises of a state. -/
structure Orderly (s : State) : Prop where
  exclusive : ∀ c c' call call', s.calls.get c = some call → s.calls.get c' = some call' →
    call.phase = .running → call'.phase = .running → call.accountId = call'.accountId → c = c'
  fenced : Fenced s.events
  served : ∀ c call slot, s.calls.get c = some call → call.phase = .awaiting →
    call.signal ∉ s.aborted → s.objects.get call.slot = some slot → slot.owner = none →
    slot.quarantine = none → call.generation < slot.highestGeneration
  mapped : ∀ a k, s.slots.get a = some k → ∃ slot, s.objects.get k = some slot ∧
    slot.accountId = a ∧ slot.isEmpty = false

theorem State.Inv.exclusive (h : s.Inv) {c' : Nat} {call' : Call} (hc : s.calls.get c = some call)
    (hc' : s.calls.get c' = some call') (hp : call.phase.owns = true) (hp' : call'.phase.owns = true)
    (hacc : call.accountId = call'.accountId) : c = c' := by
  obtain ⟨slot, hk⟩ := h.core.calls c call hc
  obtain ⟨slot', hk'⟩ := h.core.calls c' call' hc'
  obtain ⟨hinv, -⟩ := h.core.slots call.slot slot hk
  obtain ⟨hinv', -⟩ := h.core.slots call'.slot slot' hk'
  have howner := hinv.owned c call hc rfl hp
  have howner' := hinv'.owned c' call' hc' rfl hp'
  -- Both slots are in the map under the same account, so they are one slot with one owner.
  have hlive := h.core.live call.slot slot hk (by simp [AccountSlot.isEmpty, howner])
  have hlive' := h.core.live call'.slot slot' hk' (by simp [AccountSlot.isEmpty, howner'])
  rw [← hinv.account c call hc rfl, hacc, hinv'.account c' call' hc' rfl, hlive'] at hlive
  rw [Option.some.inj hlive] at hk'
  obtain rfl := Option.some.inj (hk.symm.trans hk')
  exact Option.some.inj (howner.symm.trans howner')

theorem orderly_of_inv (h : s.Inv) (hlog : Logged s) : Orderly s where
  exclusive c c' call call' hc hc' hp hp' hacc :=
    h.exclusive hc hc' (by rw [hp]; rfl) (by rw [hp']; rfl) hacc
  fenced := hlog.fenced
  served c call slot hc hp hab hk ho hq := by
    obtain ⟨hinv, -⟩ := h.core.slots call.slot slot hk
    have hw := hinv.awaiting c call hc rfl hp hab
    exact hinv.served (by simp) ho hq _ hw hab
  mapped a k ha := by
    obtain ⟨slot, hk, hacc, hne⟩ := h.core.mapped a k ha
    exact ⟨slot, hk, hacc, hne (by simp)⟩

/-- A newer generation arrives after the older call has become the owner and before its task
has resumed. -/
def overtaken : List Action :=
  [.installFull true "first", .runAccount "a" 0, .runAccount "a" 1, .settle 0 (.returned none false),
    .installFull true "second", .runAccount "a" 2]

end Webchannel.Lease
