import Webchannel.Lease.Invariant

/-!
# Every action keeps the invariant

Most of what an action does leaves the quarantines alone. The three actions that touch one
are treated apart: a run that ends unconfirmed, a waiter that asks for a probe, and a probe
that reports.
-/

namespace Webchannel.Lease

/-- Nothing has happened to quarantines, probes and events. -/
structure Steady (s s' : State) : Prop where
  kept : ∀ k slot, s.objects.get k = some slot → ∃ slot', s'.objects.get k = some slot' ∧
    slot'.accountId = slot.accountId ∧ slot'.quarantine = slot.quarantine ∧
    slot.nextArrival ≤ slot'.nextArrival
  fresh : ∀ k slot', s'.objects.get k = some slot' → s.objects.get k = none →
    slot'.quarantine = none
  probes : s'.probes = s.probes
  nextQuarantine : s'.nextQuarantine = s.nextQuarantine

variable {s s' s'' : State} {k c : Nat} {slot : AccountSlot} {call : Call}

theorem Steady.refl (s : State) : Steady s s :=
  ⟨fun _ slot h => ⟨slot, h, rfl, rfl, Nat.le_refl _⟩,
    fun _ _ h h' => absurd (h.symm.trans h') (by simp), rfl, rfl⟩

theorem Steady.trans (h : Steady s s') (h' : Steady s' s'') : Steady s s'' := by
  refine ⟨?_, ?_, h'.probes.trans h.probes, h'.nextQuarantine.trans h.nextQuarantine⟩
  · intro k slot hk
    obtain ⟨slot', hk', ha, hq, hn⟩ := h.kept k slot hk
    obtain ⟨slot'', hk'', ha', hq', hn'⟩ := h'.kept k slot' hk'
    exact ⟨slot'', hk'', ha'.trans ha, hq'.trans hq, Nat.le_trans hn hn'⟩
  · intro k slot'' hk'' hnone
    cases hk' : s'.objects.get k with
    | none => exact h'.fresh k slot'' hk'' hk'
    | some slot' =>
      obtain ⟨slot₂, hk₂, -, hq, -⟩ := h'.kept k slot' hk'
      obtain rfl := Option.some.inj (hk''.symm.trans hk₂)
      rw [hq]
      exact h.fresh k slot' hk' hnone

theorem Steady.of_objects (ho : s'.objects = s.objects) (hp : s'.probes = s.probes)
    (hn : s'.nextQuarantine = s.nextQuarantine) : Steady s s' := by
  refine ⟨?_, ?_, hp, hn⟩
  · intro k slot hk
    exact ⟨slot, by rw [ho]; exact hk, rfl, rfl, Nat.le_refl _⟩
  · intro k slot' hk' hnone
    rw [ho, hnone] at hk'
    cases hk'

theorem Steady.setSlot {f : AccountSlot → AccountSlot} (ha : ∀ slot, (f slot).accountId = slot.accountId)
    (hq : ∀ slot, (f slot).quarantine = slot.quarantine)
    (hn : ∀ slot, slot.nextArrival ≤ (f slot).nextArrival) : Steady s (s.setSlot k f) := by
  refine ⟨?_, ?_, rfl, rfl⟩
  · intro k' slot hk'
    by_cases h : k' = k
    · subst h
      exact ⟨f slot, Heap.get_update_self hk', ha slot, hq slot, hn slot⟩
    · exact ⟨slot, by rw [State.setSlot, Heap.get_update_of_ne h]; exact hk', rfl, rfl, Nat.le_refl _⟩
  · intro k' slot' hk' hnone
    rcases Heap.get_update_cases hk' with ⟨rfl, a, ha', -⟩ | ⟨-, hk'⟩
    · rw [hnone] at ha'
      cases ha'
    · rw [hnone] at hk'
      cases hk'

theorem Steady.setPhase (phase : Phase) : Steady s (s.setPhase c phase) := .of_objects rfl rfl rfl

theorem Steady.cleanupSlot (accountId : String) : Steady s (s.cleanupSlot accountId k) := by
  unfold State.cleanupSlot
  split <;> exact .of_objects rfl rfl rfl

theorem Steady.promote : Steady s (s.promote k) := by
  unfold State.promote
  split
  · exact .refl s
  · dsimp only
    split
    · exact .setSlot (fun _ => rfl) (fun _ => rfl) (fun _ => Nat.le_refl _)
    · refine Steady.trans ?_ (.setPhase _)
      exact .setSlot (fun _ => rfl) (fun _ => rfl) (fun _ => Nat.le_refl _)

theorem Steady.leave : Steady s (s.leave c k) := by
  refine Steady.trans ?_ (.setPhase _)
  exact .setSlot (fun _ => rfl) (fun _ => rfl) (fun _ => Nat.le_refl _)

theorem Steady.release (accountId : String) : Steady s (s.release accountId c k) :=
  (Steady.leave.trans .promote).trans (.cleanupSlot accountId)

theorem Steady.removeWaiter (accountId : String) : Steady s (s.removeWaiter accountId c k) := by
  refine Steady.trans ?_ (.cleanupSlot accountId)
  exact .setSlot (fun _ => rfl) (fun _ => rfl) (fun _ => Nat.le_refl _)

theorem Steady.enqueue : Steady s (s.enqueue c call) := by
  refine Steady.trans ?_ (.setPhase _)
  exact .setSlot (fun _ => rfl) (fun _ => rfl) (fun _ => Nat.le_refl _)

theorem Steady.startRun : Steady s (s.startRun c call) := by
  unfold State.startRun
  split
  · exact .release _
  · exact .of_objects rfl rfl rfl

theorem Steady.arrive (generation : Nat) : Steady s (s.arrive k generation) :=
  .setSlot (fun _ => rfl) (fun _ => rfl) (fun _ => Nat.le_succ _)

theorem Steady.findSlot (accountId : String) : Steady s (s.findSlot accountId).2 := by
  unfold State.findSlot
  split
  · exact .refl s
  · refine ⟨?_, ?_, rfl, rfl⟩
    · intro k slot hk
      exact ⟨slot, Heap.get_alloc_of_some hk, rfl, rfl, Nat.le_refl _⟩
    · intro k slot' hk' hnone
      rcases Heap.get_alloc_cases hk' with ⟨-, rfl⟩ | hk'
      · rfl
      · rw [hnone] at hk'
        cases hk'

theorem Probing.steady (h : Probing s) (hs : Steady s s') : Probing s' := by
  have hold {k : Nat} {slot' : AccountSlot} {q : Quarantine} (hk' : s'.objects.get k = some slot')
      (hq : slot'.quarantine = some q) : ∃ slot, s.objects.get k = some slot ∧
        slot.quarantine = some q ∧ slot.nextArrival ≤ slot'.nextArrival := by
    cases hk : s.objects.get k with
    | none =>
      rw [hs.fresh k slot' hk' hk] at hq
      cases hq
    | some slot =>
      obtain ⟨slot₂, hk₂, -, hq₂, hn⟩ := hs.kept k slot hk
      obtain rfl := Option.some.inj (hk'.symm.trans hk₂)
      exact ⟨slot, rfl, hq₂.symm.trans hq, hn⟩
  refine ⟨?_, by rw [hs.probes]; exact h.single, ?_, ?_⟩
  · intro p hp
    rw [hs.probes] at hp
    rw [hs.nextQuarantine]
    refine ⟨(h.pending p hp).1, fun k slot' q hk' hq hid => ?_⟩
    obtain ⟨slot, hk, hq', -⟩ := hold hk' hq
    exact (h.pending p hp).2 k slot q hk hq' hid
  · intro k slot' q hk' hq
    obtain ⟨slot, hk, hq', hn⟩ := hold hk' hq
    obtain ⟨hid, hcut, hpr⟩ := h.quarantined k slot q hk hq'
    rw [hs.nextQuarantine, hs.probes]
    exact ⟨hid, Nat.le_trans hcut hn, hpr⟩
  · intro k k₂ slot' slot₂' q q₂ hk' hk₂' hq hq₂ hid
    obtain ⟨slot, hk, hq', -⟩ := hold hk' hq
    obtain ⟨slot₂, hk₂, hq₂', -⟩ := hold hk₂' hq₂
    exact h.distinct k k₂ slot slot₂ q q₂ hk hk₂ hq' hq₂' hid

variable {loose open_ : Option Nat}

theorem Core.startRun (h : Core s none none) (hc : s.calls.get c = some call)
    (hp : call.phase = .granted) : Core (s.startRun c call) none none := by
  unfold State.startRun
  split
  · exact h.release hc (by rw [hp]; rfl) (by simp [hp])
  · have hrun : Core (s.setPhase c .running) none none := by
      refine h.setPhase hc fun slot hk hinv => ?_
      have howns : call.phase.owns = true := by rw [hp]; rfl
      have hq : slot.quarantine = none := by
        have := hinv.fenced c call (hinv.owned c call hc rfl howns) hc
        simpa [hp] using this
      have hnone : { slot with quarantine := none } = slot := by rw [← hq]
      have hrephase : SlotInv (s.calls.update c ({ · with phase := .running })) s.aborted
          (none = some call.slot) call.slot { slot with quarantine := none } :=
        hinv.rephase hc rfl howns rfl (by simp)
      rw [hnone] at hrephase
      exact hrephase
    exact ⟨hrun.install, hrun.slots, hrun.mapped, hrun.live, hrun.calls⟩

/-- The slot that a call finds may still be empty. -/
theorem Core.findSlot (h : Core s none none) (accountId : String) :
    ∃ slot, (s.findSlot accountId).2.objects.get (s.findSlot accountId).1 = some slot ∧
      slot.accountId = accountId ∧
      (s.findSlot accountId).2.slots.get accountId = some (s.findSlot accountId).1 ∧
      Core (s.findSlot accountId).2 (some (s.findSlot accountId).1) none := by
  unfold State.findSlot
  cases hmap : s.slots.get accountId with
  | some k =>
    obtain ⟨slot, hk, hacc, -⟩ := h.mapped accountId k hmap
    refine ⟨slot, hk, hacc, hmap, h.install, h.slots, fun a k' ha => ?_, h.live, h.calls⟩
    obtain ⟨slot', hk', hacc', hne⟩ := h.mapped a k' ha
    exact ⟨slot', hk', hacc', fun _ => hne (by simp)⟩
  | none =>
    have hfresh (c : Nat) (call : Call) (hc : s.calls.get c = some call) :
        call.slot ≠ s.objects.next := by
      intro heq
      obtain ⟨slot, hk⟩ := h.calls c call hc
      rw [heq, Heap.get_next] at hk
      cases hk
    refine ⟨_, Heap.get_alloc_next _ _, rfl, OrderedMap.get_set_self _ _ _, h.install, ?_, ?_, ?_, ?_⟩
    · intro k slot hk
      rcases Heap.get_alloc_cases hk with ⟨rfl, rfl⟩ | hk
      · refine ⟨?_, Nat.zero_le _⟩
        constructor
        · exact fun c call hc hs => absurd hs (hfresh c call hc)
        · simp
        · exact fun c call hc hs => absurd hs (hfresh c call hc)
        · simp
        · simp
        · exact fun c call hc hs => absurd hs (hfresh c call hc)
        · simp
        · simp
      · exact h.slots k slot hk
    · intro a k ha
      simp only [OrderedMap.get_set_eq] at ha
      split at ha
      · rename_i heq
        obtain rfl := Option.some.inj ha
        exact ⟨_, Heap.get_alloc_next _ _, heq.symm, fun hn => absurd rfl hn⟩
      · obtain ⟨slot, hk, hacc, hne⟩ := h.mapped a k ha
        exact ⟨slot, Heap.get_alloc_of_some hk, hacc, fun _ => hne (by simp)⟩
    · intro k slot hk hne
      rcases Heap.get_alloc_cases hk with ⟨rfl, rfl⟩ | hk
      · cases hne
      · have hlive := h.live k slot hk hne
        simp only [OrderedMap.get_set_eq]
        split
        · rename_i heq
          rw [heq, hmap] at hlive
          cases hlive
        · exact hlive
    · intro c call hc
      obtain ⟨slot, hk⟩ := h.calls c call hc
      exact ⟨slot, Heap.get_alloc_of_some hk⟩

theorem Core.arrive (h : Core s loose open_) (hk : s.objects.get k = some slot) {generation : Nat}
    (hg : generation ≤ s.nextGeneration) : Core (s.arrive k generation) loose open_ := by
  obtain ⟨hinv, hle⟩ := h.slots k slot hk
  refine h.setSlot hk (hinv.arrive _ _ (Nat.le_max_left _ _)) (fun _ _ h => h) (Nat.max_le.mpr ⟨hle, hg⟩)
    rfl ?_ (fun _ _ h => h) (h.live k slot hk)
  intro hl hmap
  obtain ⟨slot', hk', -, hne⟩ := h.mapped _ _ hmap
  obtain rfl := Option.some.inj (hk.symm.trans hk')
  exact hne hl

/-- A call goes into the queue of a slot that is taken. -/
theorem Core.enqueue (h : Core s (some call.slot) open_) (hc : s.calls.get c = some call)
    (hk : s.objects.get call.slot = some slot) (hmap : s.slots.get slot.accountId = some call.slot)
    (hp : call.phase = .done) (hheld : slot.owner ≠ none ∨ slot.quarantine ≠ none)
    (hopen : open_ = none ∨ open_ = some call.slot) : Core (s.enqueue c call) none none := by
  obtain ⟨hinv, hle⟩ := h.slots call.slot slot hk
  refine h.update hk (setPhase_other hc rfl) ?_ (hinv.enqueue hc rfl hp hheld _) ?_ hle rfl
    (fun _ _ => nonempty_of_waiter (List.mem_append_right _ (List.mem_singleton.mpr rfl))) elsewhere
    (fun _ => hmap)
  · intro c' call' hc'
    rcases setPhase_cases hc hc' with ⟨-, rfl⟩ | ⟨-, hc'⟩
    · exact .inl rfl
    · exact .inr hc'
  · intro k' hne heq
    rcases hopen with rfl | rfl
    · cases heq
    · exact elsewhere k' hne heq

/-- What is added to the log does not matter. -/
theorem Core.log (h : Core s loose open_) (probes : List PendingProbe) (nextQuarantine : Nat)
    (events : List Event) : Core { s with probes, nextQuarantine, events } loose open_ :=
  ⟨h.install, h.slots, h.mapped, h.live, h.calls⟩

theorem Core.alloc (h : Core s (some call.slot) none) (hk : s.objects.get call.slot = some slot)
    (hacc : call.accountId = slot.accountId) (hp : call.phase = .done) :
    Core { s with calls := s.calls.alloc call } (some call.slot) none := by
  obtain ⟨hinv, hle⟩ := h.slots call.slot slot hk
  have hid : s.objects.update call.slot id = s.objects := Heap.update_eq_self fun _ _ => rfl
  have := h.update (f := id) hk (alloc_other rfl) ?_ (hinv.alloc rfl hacc hp) (fun _ _ h => h) hle rfl
    (fun hl => absurd rfl hl) (fun _ _ h => h) (h.live call.slot slot hk)
  · rw [hid] at this
    exact this
  · intro c' call' hc'
    rcases Heap.get_alloc_cases hc' with ⟨-, rfl⟩ | hc'
    · exact .inl rfl
    · exact .inr hc'

/-- A new call takes a free slot. -/
theorem Core.admits (h : Core s (some call.slot) none) (hk : s.objects.get call.slot = some slot)
    (hmap : s.slots.get slot.accountId = some call.slot) (hacc : call.accountId = slot.accountId)
    (ho : slot.owner = none) (hq : slot.quarantine = none) :
    Core { s.setSlot call.slot ({ · with owner := some s.calls.next }) with
      calls := s.calls.alloc { call with phase := .granted } } none none := by
  obtain ⟨hinv, hle⟩ := h.slots call.slot slot hk
  refine h.update (f := ({ · with owner := some s.calls.next })) hk (alloc_other rfl) ?_
    (hinv.admits ho hq rfl hacc _) (fun _ _ h => h) hle rfl
    (fun _ _ => by simp [AccountSlot.isEmpty]) elsewhere (fun _ => hmap)
  intro c' call' hc'
  rcases Heap.get_alloc_cases hc' with ⟨-, rfl⟩ | hc'
  · exact .inl rfl
  · exact .inr hc'

theorem Core.maybeProbe (h : Core s none none) (w : Waiter) : Core (s.maybeProbe k w) none none := by
  unfold State.maybeProbe
  split
  · exact h
  · rename_i quarantine hget
    split
    · exact h
    · obtain ⟨slot, hk, hq⟩ := Option.bind_eq_some_iff.mp hget
      obtain ⟨hinv, hle⟩ := h.slots k slot hk
      have hset : Core (s.setSlot k ({ · with quarantine := some { quarantine with probing := true } }))
          none none :=
        h.setSlot hk (hinv.requarantine (by rw [hq]; rfl) _) (fun _ _ h => h) hle rfl
          (fun _ _ => by simp [AccountSlot.isEmpty]) (fun _ _ h => h)
          (fun _ => h.live k slot hk (by simp [AccountSlot.isEmpty, hq]))
      exact hset.log _ _ _

theorem SlotInv.not_waiting {calls : Heap Call} {aborted : List Nat} {unserved : Prop}
    (hinv : SlotInv calls aborted unserved k slot) (hc : calls.get c = some call)
    (hp : call.phase ≠ .awaiting) (w : Waiter) (hw : w ∈ slot.waiters) : w.call ≠ c := by
  rintro rfl
  obtain ⟨call', hcall', -, hph, -⟩ := hinv.waiter w hw
  obtain rfl := Option.some.inj (hc.symm.trans hcall')
  exact hp hph

/-- A waiter whose host has aborted goes away for good. -/
theorem Core.withdraw (h : Core s none none) (hc : s.calls.get c = some call)
    (hab : call.signal ∈ s.aborted) (hp : call.phase = .awaiting) {phase : Phase}
    (hp' : phase.owns = false) (hphase : phase ≠ .awaiting) :
    Core ((s.removeWaiter call.accountId c call.slot).setPhase c phase) none none := by
  have hcalls : (s.removeWaiter call.accountId c call.slot).calls.get c = some call := by
    unfold State.removeWaiter State.cleanupSlot
    split <;> exact hc
  refine (h.removeWaiter hc hab).setPhase hcalls fun slot hk hinv => ?_
  refine hinv.retire hcalls rfl (by rw [hp]; rfl) ?_ hp' hphase
  intro w hw
  have hobjects : (s.removeWaiter call.accountId c call.slot).objects = (s.setSlot call.slot fun slot =>
      { slot with waiters := slot.waiters.filter (·.call ≠ c) }).objects := by
    unfold State.removeWaiter State.cleanupSlot
    split <;> rfl
  rw [hobjects] at hk
  rcases Heap.get_update_cases hk with ⟨-, slot', -, rfl⟩ | ⟨hne, -⟩
  · simpa using (List.mem_filter.mp hw).2
  · exact absurd rfl hne

theorem Core.onAbort (h : Core s none none) (hstep : s.onAbort c = some s') : Core s' none none := by
  obtain ⟨call, hc, hstep⟩ := Option.bind_eq_some_iff.mp hstep
  split at hstep
  · rename_i hcond
    obtain rfl := Option.some.inj hstep
    have hab := mem_aborted.mp hcond.1
    split
    · rename_i hp
      exact h.withdraw hc hab hp rfl (by simp)
    · exact h.removeWaiter hc hab
  · cases hstep

theorem Core.resume (h : Core s none none) (hstep : s.resume c = some s') : Core s' none none := by
  obtain ⟨call, hc, hstep⟩ := Option.bind_eq_some_iff.mp hstep
  split at hstep
  · rename_i hp
    obtain rfl := Option.some.inj hstep
    exact h.startRun hc hp
  · rename_i hp
    obtain rfl := Option.some.inj hstep
    refine h.setPhase hc fun slot hk hinv => ?_
    exact hinv.retire hc rfl (by rw [hp]; rfl) (hinv.not_waiting hc (by simp [hp])) rfl (by simp)
  · cases hstep

theorem Core.settle (h : Core s none none) {settlement : Settlement}
    (hstep : s.settle c settlement = some s') : Core s' none none := by
  obtain ⟨call, hc, hstep⟩ := Option.bind_eq_some_iff.mp hstep
  obtain ⟨slot, hk, hstep⟩ := Option.bind_eq_some_iff.mp hstep
  obtain ⟨hinv, hle⟩ := h.slots call.slot slot hk
  split at hstep
  · rename_i hp
    have howns : call.phase.owns = true := by rw [hp]; rfl
    split at hstep
    · obtain rfl := Option.some.inj hstep
      exact h.release hc howns (by simp [hp])
    · obtain rfl := Option.some.inj hstep
      have hlive := h.live call.slot slot hk
        (by simp [AccountSlot.isEmpty, hinv.owned c call hc rfl howns])
      have hfence : Core ((s.setSlot call.slot ({ · with quarantine := some ⟨s.nextQuarantine,
          slot.nextArrival, false, settlement.probe⟩ })).setPhase c .quarantining) none none := by
        refine h.update hk (setPhase_other hc rfl) ?_ (hinv.rephase hc rfl howns rfl (by simp))
          (fun _ _ h => h) hle rfl (fun _ _ => by simp [AccountSlot.isEmpty]) (fun _ _ h => h)
          (fun _ => hlive)
        intro c' call' hc'
        rcases setPhase_cases hc hc' with ⟨-, rfl⟩ | ⟨-, hc'⟩
        · exact .inl rfl
        · exact .inr hc'
      exact hfence.log _ _ _
  · cases hstep

theorem Core.callbackReturned (h : Core s none none) (hstep : s.callbackReturned c = some s') :
    Core s' none none := by
  obtain ⟨call, hc, hstep⟩ := Option.bind_eq_some_iff.mp hstep
  split at hstep
  · rename_i hp
    have howns : call.phase.owns = true := by rw [hp]; rfl
    obtain ⟨slot, hk⟩ := h.calls c call hc
    obtain ⟨hinv, -⟩ := h.slots call.slot slot hk
    have hacc := hinv.account c call hc rfl
    have howner := hinv.owned c call hc rfl howns
    have hq : slot.quarantine ≠ none := by
      have := (hinv.fenced c call howner hc).mpr hp
      intro hnone
      rw [hnone] at this
      cases this
    have hlive := h.live call.slot slot hk (by simp [AccountSlot.isEmpty, howner])
    obtain ⟨hleave, hslot⟩ := h.leave hc hk howns
    have hc' : (s.leave c call.slot).calls.get c = some { call with phase := .done } :=
      Heap.get_update_self hc
    dsimp only at hstep
    split at hstep
    · obtain rfl := Option.some.inj hstep
      have hclean := (hleave.settled hslot (.inr hq)).cleanupSlot hslot
      rw [hacc]
      exact hclean
    · obtain rfl := Option.some.inj hstep
      have hwait : Core ((s.leave c call.slot).enqueue c { call with phase := .done }) none none := by
        refine Core.enqueue ?_ hc' hslot hlive rfl (.inr hq) (.inr rfl)
        exact hleave
      exact hwait
  · cases hstep

theorem Core.abort (h : Core s none none) (signal : Nat) :
    Core { s with aborted := signal :: s.aborted } none none := by
  refine ⟨h.install, fun k slot hk => ?_, h.mapped, h.live, h.calls⟩
  obtain ⟨hinv, hle⟩ := h.slots k slot hk
  refine ⟨⟨hinv.account, hinv.owner, hinv.owned, hinv.waiter, hinv.nodup, ?_, hinv.fenced, ?_⟩, hle⟩
  · intro c call hc hs hph hab
    exact hinv.awaiting c call hc hs hph fun hin => hab (List.mem_cons_of_mem _ hin)
  · intro hn ho hq w hw hab
    exact hinv.served hn ho hq w hw fun hin => hab (List.mem_cons_of_mem _ hin)

theorem Core.installFull (h : Core s none none) (full : Bool) (fingerprint : String) :
    Core (s.installFull full fingerprint) none none := by
  unfold State.installFull
  split
  · split
    · rename_i install hfilter
      obtain ⟨hi, -⟩ := Option.filter_eq_some_iff.mp hfilter
      refine ⟨fun i hi' => ?_, h.slots, h.mapped, h.live, h.calls⟩
      obtain rfl := Option.some.inj hi'
      exact h.install install hi
    · refine ⟨fun i hi' => ?_, fun k slot hk => ?_, h.mapped, h.live, h.calls⟩
      · obtain rfl := Option.some.inj hi'
        rfl
      · obtain ⟨hinv, hle⟩ := h.slots k slot hk
        exact ⟨hinv, Nat.le_succ_of_le hle⟩
  · exact h

theorem not_quarantining (hcb : s.inCallback = false) (hc : s.calls.get c = some call) :
    call.phase ≠ .quarantining := by
  intro hp
  have hmem : call ∈ s.calls.cells := List.mem_of_getElem? hc
  have : s.inCallback = true := List.any_eq_true.mpr ⟨call, hmem, decide_eq_true hp⟩
  rw [hcb] at this
  cases this

/-- Outside the callback a quarantined slot has no owner. -/
theorem Core.unowned (h : Core s none none) (hcb : s.inCallback = false)
    (hk : s.objects.get k = some slot) (hq : slot.quarantine.isSome = true) : slot.owner = none := by
  obtain ⟨hinv, -⟩ := h.slots k slot hk
  cases ho : slot.owner with
  | none => rfl
  | some c =>
    obtain ⟨call, hc, -, -⟩ := hinv.owner c ho
    exact absurd ((hinv.fenced c call ho hc).mp hq) (not_quarantining hcb hc)

/-- A probe that comes back: its quarantine has ended already, ends now, or goes on. -/
theorem settleProbe_cases {i : Nat} {outcome : Option TransportCloseReport}
    (hstep : s.settleProbe i outcome = some s') :
    ∃ probe slot, s.probes[i]? = some probe ∧ s.objects.get probe.slot = some slot ∧
      (((∀ q, slot.quarantine = some q → q.id ≠ probe.quarantine) ∧
          s' = { s with probes := s.probes.eraseIdx i }) ∨
        ∃ q, slot.quarantine = some q ∧ q.id = probe.quarantine ∧
          ((∃ report : TransportCloseReport, report.confirmed = true ∧
              s' = (({ s with
                probes := s.probes.eraseIdx i
                events := s.events ++ [Event.probed slot.accountId probe.slot probe.arrival report]
                }.setSlot probe.slot ({ · with quarantine := none })).promote probe.slot).cleanupSlot
                  slot.accountId probe.slot) ∨
            ∃ events, (events = s.events ∨ ∃ report : TransportCloseReport, report.confirmed = false ∧
                events = s.events ++ [.probed slot.accountId probe.slot probe.arrival report]) ∧
              s' = ({ s with probes := s.probes.eraseIdx i, events }.setSlot probe.slot
                ({ · with quarantine := some { q with
                  probing := false, probeCutoffArrival := slot.nextArrival } })).cleanupSlot
                    slot.accountId probe.slot)) := by
  obtain ⟨probe, hi, hstep⟩ := Option.bind_eq_some_iff.mp hstep
  obtain ⟨slot, hk, hstep⟩ := Option.bind_eq_some_iff.mp hstep
  refine ⟨probe, slot, hi, hk, ?_⟩
  split at hstep
  · dsimp only at hstep
    split at hstep
    · rename_i hfilter
      obtain rfl := Option.some.inj hstep
      refine .inl ⟨fun q hq hid => ?_, rfl⟩
      rw [hq, Option.filter_some, if_pos (decide_eq_true hid)] at hfilter
      cases hfilter
    · rename_i q hfilter
      obtain ⟨hq, hid⟩ := Option.filter_eq_some_iff.mp hfilter
      refine .inr ⟨q, hq, by simpa using hid, ?_⟩
      cases outcome with
      | none =>
        rw [if_neg (by simp)] at hstep
        obtain rfl := Option.some.inj hstep
        exact .inr ⟨s.events, .inl rfl, rfl⟩
      | some report =>
        rw [Option.any_some] at hstep
        dsimp only at hstep
        split at hstep
        · rename_i hconf
          obtain rfl := Option.some.inj hstep
          exact .inl ⟨report, hconf, rfl⟩
        · rename_i hconf
          obtain rfl := Option.some.inj hstep
          exact .inr ⟨_, .inr ⟨report, by simpa using hconf, rfl⟩, rfl⟩
  · cases hstep

/-- A quarantine has ended and nobody has been let in yet. -/
theorem Core.unquarantined (h : Core s none none) (hk : s.objects.get k = some slot)
    (ho : slot.owner = none) {q : Quarantine} (hq : slot.quarantine = some q)
    (probes : List PendingProbe) (events : List Event) :
    Core ({ s with probes, events }.setSlot k ({ · with quarantine := none })) (some k) (some k) := by
  obtain ⟨hinv, hle⟩ := h.slots k slot hk
  have hlive := h.live k slot hk (by simp [AccountSlot.isEmpty, hq])
  have hlog := h.log probes s.nextQuarantine events
  exact hlog.setSlot hk (hinv.unquarantine ho rfl) (by simp) hle rfl (fun hl => absurd rfl hl) (by simp)
    (fun _ => hlive)

theorem Core.settleProbe (h : Core s none none) (hcb : s.inCallback = false) {i : Nat}
    {outcome : Option TransportCloseReport} (hstep : s.settleProbe i outcome = some s') :
    Core s' none none := by
  obtain ⟨probe, slot, -, hk, hcases⟩ := settleProbe_cases hstep
  obtain ⟨hinv, hle⟩ := h.slots probe.slot slot hk
  rcases hcases with ⟨-, rfl⟩ | ⟨q, hq, -, hcases⟩
  · exact h.log _ _ _
  · have hsome : slot.quarantine.isSome = true := by rw [hq]; rfl
    have ho := h.unowned hcb hk hsome
    have hlive := h.live probe.slot slot hk (by simp [AccountSlot.isEmpty, hq])
    rcases hcases with ⟨report, -, rfl⟩ | ⟨events, -, rfl⟩
    · have hend := h.unquarantined hk ho hq (s.probes.eraseIdx i)
        (s.events ++ [.probed slot.accountId probe.slot probe.arrival report])
      obtain ⟨hpromote, slot', hk', hacc⟩ := hend.promote (Heap.get_update_self hk) ho rfl
      have hclean := hpromote.cleanupSlot hk'
      rw [hacc] at hclean
      exact hclean
    · have hlog := h.log (s.probes.eraseIdx i) s.nextQuarantine events
      have hend := hlog.setSlot (f := ({ · with quarantine := some { q with
          probing := false, probeCutoffArrival := slot.nextArrival } })) hk
        (hinv.requarantine hsome (none = some probe.slot)) (by simp) hle rfl
        (fun hl => absurd rfl hl) (by simp) (fun _ => hlive)
      have hclean := hend.cleanupSlot (Heap.get_update_self hk)
      exact hclean

end Webchannel.Lease
