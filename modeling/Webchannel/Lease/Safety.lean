import Webchannel.Lease.Steps

/-!
# Runs of the coordinator

The invariant holds in every state that is reached, whatever the order of installs, calls,
aborts, settlements and probes. The log of a run then says that an unconfirmed close keeps
the account from running until a probe of a later arrival has confirmed it.
-/

namespace Webchannel.Lease

open Webchannel.Runs

variable {s s' : State} {k c : Nat} {slot : AccountSlot} {call : Call}

/-! ## A new call -/

/-- The state in which a new call looks at its slot. -/
def State.arrived (s : State) (accountId : String) (generation : Nat) : State :=
  (s.findSlot accountId).2.arrive (s.findSlot accountId).1 generation

/-- The call that has just arrived, before it has a phase. -/
def newCall (s : State) (accountId : String) (signal generation : Nat) (slot : AccountSlot) : Call :=
  ⟨accountId, signal, generation, slot.nextArrival, (s.findSlot accountId).1, .done⟩

/-- The slot is free and the call owns it. -/
def State.admitted (s : State) (call : Call) : State :=
  { s.setSlot call.slot ({ · with owner := some s.calls.next }) with
    calls := s.calls.alloc { call with phase := .granted } }

/-- The slot is taken and the call waits in it. -/
def State.queued (s : State) (call : Call) : State :=
  ({ s with calls := s.calls.alloc call }.enqueue s.calls.next call).maybeProbe call.slot
    (call.waiter s.calls.next)

theorem arrived_calls (accountId : String) (generation : Nat) :
    (s.arrived accountId generation).calls = s.calls := by
  unfold State.arrived State.findSlot
  split <;> rfl

theorem arrived_aborted (accountId : String) (generation : Nat) :
    (s.arrived accountId generation).aborted = s.aborted := by
  unfold State.arrived State.findSlot
  split <;> rfl

theorem maybeProbe_calls (w : Waiter) : (s.maybeProbe k w).calls = s.calls := by
  unfold State.maybeProbe
  split
  · rfl
  · split <;> rfl

theorem maybeProbe_aborted (w : Waiter) : (s.maybeProbe k w).aborted = s.aborted := by
  unfold State.maybeProbe
  split
  · rfl
  · split <;> rfl

theorem runAccount_cases {accountId : String} {signal : Nat}
    (hstep : s.runAccount accountId signal = some s') :
    ∃ install slot call, s.install = some install ∧
      (s.arrived accountId install.generation).objects.get call.slot = some slot ∧
      call = newCall s accountId signal install.generation slot ∧
      ((slot.owner = none ∧ slot.quarantine = none ∧
          s' = ((s.arrived accountId install.generation).admitted call).startRun s.calls.next
            { call with phase := .granted }) ∨
        ((slot.owner ≠ none ∨ slot.quarantine ≠ none) ∧
          ((signal ∈ s.aborted ∧
              s' = (((s.arrived accountId install.generation).queued call).removeWaiter accountId
                s.calls.next call.slot).setPhase s.calls.next .done) ∨
            (signal ∉ s.aborted ∧ s' = (s.arrived accountId install.generation).queued call)))) := by
  cases hinstall : s.install with
  | none =>
    simp only [State.runAccount, hinstall] at hstep
    cases hstep
  | some install =>
    obtain ⟨k, s₁, hf⟩ : ∃ k s₁, s.findSlot accountId = (k, s₁) := ⟨_, _, rfl⟩
    have harrived : s.arrived accountId install.generation = s₁.arrive k install.generation := by
      rw [State.arrived, hf]
    have hcalls := arrived_calls (s := s) accountId install.generation
    have haborted := arrived_aborted (s := s) accountId install.generation
    simp only [State.runAccount, hinstall, hf, Option.bind_eq_bind, Option.bind_some] at hstep
    rw [← harrived] at hstep
    obtain ⟨slot, hk, hstep⟩ := Option.bind_eq_some_iff.mp hstep
    have hcall : newCall s accountId signal install.generation slot =
        ⟨accountId, signal, install.generation, slot.nextArrival, k, .done⟩ := by
      rw [newCall, hf]
    refine ⟨install, slot, _, rfl, by rw [hcall]; exact hk, rfl, ?_⟩
    rw [hcall, ← hcalls]
    split at hstep
    · rename_i hfree
      simp only [Bool.and_eq_true, Option.isNone_iff_eq_none] at hfree
      exact .inl ⟨hfree.1, hfree.2, (Option.some.inj hstep).symm⟩
    · rename_i hheld
      refine .inr ⟨?_, ?_⟩
      · by_contra hfree
        rw [not_or, not_not, not_not] at hfree
        exact hheld (by simp [hfree.1, hfree.2])
      · split at hstep
        · rename_i hab
          refine .inl ⟨?_, (Option.some.inj hstep).symm⟩
          rw [mem_aborted, maybeProbe_aborted] at hab
          rw [← haborted]
          exact hab
        · rename_i hab
          rw [mem_aborted, maybeProbe_aborted] at hab
          rw [← haborted]
          exact .inr ⟨hab, (Option.some.inj hstep).symm⟩

/-- A call has found its slot: it is in the map and has seen the call's generation. -/
theorem Core.arrived (h : Core s none none) (accountId : String) {install : FullInstall}
    (hi : s.install = some install) :
    ∃ slot, (s.arrived accountId install.generation).objects.get (s.findSlot accountId).1 = some slot ∧
      slot.accountId = accountId ∧ slot.highestGeneration = install.generation ∧
      (s.arrived accountId install.generation).slots.get accountId = some (s.findSlot accountId).1 ∧
      Core (s.arrived accountId install.generation) (some (s.findSlot accountId).1) none := by
  obtain ⟨slot, hk, hacc, hmap, hcore⟩ := h.findSlot accountId
  have hgen := h.install install hi
  have hnext : (s.findSlot accountId).2.nextGeneration = s.nextGeneration := by
    unfold State.findSlot
    split <;> rfl
  have hle := (hcore.slots _ slot hk).2
  rw [hnext, ← hgen] at hle
  refine ⟨_, Heap.get_update_self hk, hacc, Nat.max_eq_right hle, hmap, hcore.arrive hk ?_⟩
  rw [hnext, hgen]

theorem Core.runAccount (h : Core s none none) {accountId : String} {signal : Nat}
    (hstep : s.runAccount accountId signal = some s') : Core s' none none := by
  obtain ⟨install, slot, call, hi, hk, hcall, hcases⟩ := runAccount_cases hstep
  obtain ⟨slot', hk', hacc, -, hmap, hcore⟩ := h.arrived accountId hi
  have hslot : call.slot = (s.findSlot accountId).1 := by rw [hcall]; rfl
  have haccount : call.accountId = accountId := by rw [hcall]; rfl
  have hsignal : call.signal = signal := by rw [hcall]; rfl
  have hphase : call.phase = .done := by rw [hcall]; rfl
  have hcalls := arrived_calls (s := s) accountId install.generation
  have haborted := arrived_aborted (s := s) accountId install.generation
  rw [← hslot] at hk' hmap hcore
  obtain rfl := Option.some.inj (hk.symm.trans hk')
  have hmap' : (s.arrived accountId install.generation).slots.get slot.accountId = some call.slot := by
    rw [hacc]
    exact hmap
  rcases hcases with ⟨ho, hq, rfl⟩ | ⟨hheld, hcases⟩
  · have hadmitted := hcore.admits hk hmap' (haccount.trans hacc.symm) ho hq
    rw [← hcalls]
    exact hadmitted.startRun (Heap.get_alloc_next _ _) rfl
  · have halloc := hcore.alloc hk (haccount.trans hacc.symm) hphase
    have hqueue : Core ((s.arrived accountId install.generation).queued call) none none :=
      (halloc.enqueue (Heap.get_alloc_next _ _) hk hmap' hphase hheld (.inl rfl)).maybeProbe _
    rcases hcases with ⟨hab, rfl⟩ | ⟨-, rfl⟩
    · have hc : ((s.arrived accountId install.generation).queued call).calls.get s.calls.next =
          some { call with phase := .awaiting } := by
        rw [← hcalls]
        unfold State.queued
        rw [maybeProbe_calls]
        exact Heap.get_update_self (Heap.get_alloc_next _ _)
      have hab' : call.signal ∈ ((s.arrived accountId install.generation).queued call).aborted := by
        unfold State.queued
        rw [maybeProbe_aborted]
        change call.signal ∈ (s.arrived accountId install.generation).aborted
        rw [hsignal, haborted]
        exact hab
      have hwithdraw : Core ((((s.arrived accountId install.generation).queued call).removeWaiter
          call.accountId s.calls.next call.slot).setPhase s.calls.next .done) none none :=
        hqueue.withdraw hc hab' rfl rfl (by simp)
      rw [haccount] at hwithdraw
      exact hwithdraw
    · exact hqueue

/-! ## Probes -/

theorem Probing.maybeProbe (h : Probing s) (w : Waiter) : Probing (s.maybeProbe k w) := by
  unfold State.maybeProbe
  split
  · exact h
  · rename_i quarantine hget
    obtain ⟨slot, hk, hq⟩ := Option.bind_eq_some_iff.mp hget
    split
    · exact h
    · rename_i hcond
      simp only [Bool.or_eq_true, decide_eq_true_eq, not_or, Bool.not_eq_true, Nat.not_le] at hcond
      obtain ⟨⟨hprobing, -⟩, hcut⟩ := hcond
      obtain ⟨hid, hle, hnone⟩ := h.quarantined k slot quarantine hk hq
      -- Nobody else asks on behalf of this quarantine, and no other slot has it.
      have hother {k' : Nat} {slot' : AccountSlot} {q' : Quarantine} (hne : k' ≠ k)
          (hk' : s.objects.get k' = some slot') (hq' : slot'.quarantine = some q') :
          q'.id ≠ quarantine.id := by
        intro heq
        exact hne (h.distinct k' k slot' slot q' quarantine hk' hk hq' hq heq)
      refine ⟨?_, ?_, ?_, ?_⟩
      · intro p hp
        rcases List.mem_append.mp hp with hold | hp
        · refine ⟨(h.pending p hold).1, fun k' slot' q' hk' hq' hid' => ?_⟩
          rcases Heap.get_update_cases hk' with ⟨rfl, a, ha, rfl⟩ | ⟨-, hk'⟩
          · obtain rfl := Option.some.inj hq'
            exact absurd hid'.symm (hnone hprobing p hold)
          · exact (h.pending p hold).2 k' slot' q' hk' hq' hid'
        · obtain rfl := List.mem_singleton.mp hp
          refine ⟨hid, fun k' slot' q' hk' hq' hid' => ?_⟩
          rcases Heap.get_update_cases hk' with ⟨rfl, a, ha, rfl⟩ | ⟨hne, hk'⟩
          · obtain rfl := Option.some.inj hq'
            exact ⟨rfl, hcut⟩
          · exact absurd hid' (hother hne hk' hq')
      · rw [List.map_append]
        refine h.single.append (List.nodup_singleton _) ?_
        intro x hx hx'
        obtain ⟨p, hp, rfl⟩ := List.mem_map.mp hx
        exact hnone hprobing p hp (List.mem_singleton.mp hx')
      · intro k' slot' q' hk' hq'
        rcases Heap.get_update_cases hk' with ⟨rfl, a, ha, rfl⟩ | ⟨hne, hk'⟩
        · obtain rfl := Option.some.inj hq'
          obtain rfl := Option.some.inj (hk.symm.trans ha)
          exact ⟨hid, hle, fun hfalse => by cases hfalse⟩
        · obtain ⟨hid', hle', hnone'⟩ := h.quarantined k' slot' q' hk' hq'
          refine ⟨hid', hle', fun hfalse p hp => ?_⟩
          rcases List.mem_append.mp hp with hp | hp
          · exact hnone' hfalse p hp
          · obtain rfl := List.mem_singleton.mp hp
            exact (hother hne hk' hq').symm
      · intro k₁ k₂ slot₁ slot₂ q₁ q₂ hk₁ hk₂ hq₁ hq₂ heq
        rcases Heap.get_update_cases hk₁ with ⟨rfl, a, ha, rfl⟩ | ⟨hne₁, hold₁⟩
        · obtain rfl := Option.some.inj hq₁
          rcases Heap.get_update_cases hk₂ with ⟨rfl, -⟩ | ⟨hne₂, hk₂⟩
          · rfl
          · exact absurd heq.symm (hother hne₂ hk₂ hq₂)
        · rcases Heap.get_update_cases hk₂ with ⟨rfl, a, ha, rfl⟩ | ⟨-, hk₂⟩
          · obtain rfl := Option.some.inj hq₂
            exact absurd heq (hother hne₁ hold₁ hq₁)
          · exact h.distinct k₁ k₂ slot₁ slot₂ q₁ q₂ hold₁ hk₂ hq₁ hq₂ heq

/-- A slot without quarantine gets a new one. -/
theorem Probing.quarantine (h : Probing s) (hk : s.objects.get k = some slot) (calls : Heap Call)
    (probe : Probe) (events : List Event) :
    Probing { s with
      objects := s.objects.update k
        ({ · with quarantine := some ⟨s.nextQuarantine, slot.nextArrival, false, probe⟩ })
      calls, nextQuarantine := s.nextQuarantine + 1, events } := by
  have hold {k' : Nat} {slot' : AccountSlot} {q' : Quarantine} (hk' : s.objects.get k' = some slot')
      (hq' : slot'.quarantine = some q') : q'.id ≠ s.nextQuarantine :=
    Nat.ne_of_lt (h.quarantined k' slot' q' hk' hq').1
  refine ⟨?_, h.single, ?_, ?_⟩
  · intro p hp
    obtain ⟨hlt, hpending⟩ := h.pending p hp
    refine ⟨Nat.lt_succ_of_lt hlt, fun k' slot' q' hk' hq' hid' => ?_⟩
    rcases Heap.get_update_cases hk' with ⟨rfl, a, ha, rfl⟩ | ⟨-, hk'⟩
    · obtain rfl := Option.some.inj hq'
      exact absurd hid'.symm (Nat.ne_of_lt hlt)
    · exact hpending k' slot' q' hk' hq' hid'
  · intro k' slot' q' hk' hq'
    rcases Heap.get_update_cases hk' with ⟨rfl, a, ha, rfl⟩ | ⟨-, hk'⟩
    · obtain rfl := Option.some.inj hq'
      obtain rfl := Option.some.inj (hk.symm.trans ha)
      exact ⟨Nat.lt_succ_self _, Nat.le_refl _, fun _ p hp => Nat.ne_of_lt (h.pending p hp).1⟩
    · obtain ⟨hid, hrest⟩ := h.quarantined k' slot' q' hk' hq'
      exact ⟨Nat.lt_succ_of_lt hid, hrest⟩
  · intro k₁ k₂ slot₁ slot₂ q₁ q₂ hk₁ hk₂ hq₁ hq₂ heq
    rcases Heap.get_update_cases hk₁ with ⟨rfl, a, ha, rfl⟩ | ⟨hne₁, hold₁⟩
    · obtain rfl := Option.some.inj hq₁
      rcases Heap.get_update_cases hk₂ with ⟨rfl, -⟩ | ⟨-, hk₂⟩
      · rfl
      · exact absurd heq.symm (hold hk₂ hq₂)
    · rcases Heap.get_update_cases hk₂ with ⟨rfl, a, ha, rfl⟩ | ⟨-, hk₂⟩
      · obtain rfl := Option.some.inj hq₂
        exact absurd heq (hold hold₁ hq₁)
      · exact h.distinct k₁ k₂ slot₁ slot₂ q₁ q₂ hold₁ hk₂ hq₁ hq₂ heq

theorem Probing.erase (h : Probing s) (i : Nat) (events : List Event) :
    Probing { s with probes := s.probes.eraseIdx i, events } := by
  have hsub := List.eraseIdx_sublist s.probes i
  refine ⟨fun p hp => h.pending p (hsub.mem hp), h.single.sublist (hsub.map _), ?_, h.distinct⟩
  intro k slot q hk hq
  obtain ⟨hid, hle, hnone⟩ := h.quarantined k slot q hk hq
  exact ⟨hid, hle, fun hfalse p hp => hnone hfalse p (hsub.mem hp)⟩

/-- The probes that stay belong to other quarantines. -/
theorem Probing.erase_ne (h : Probing s) {i : Nat} {probe : PendingProbe}
    (hi : s.probes[i]? = some probe) (p : PendingProbe) (hp : p ∈ s.probes.eraseIdx i) :
    p.quarantine ≠ probe.quarantine := by
  obtain ⟨j, hj, hne, rfl⟩ := List.mem_eraseIdx_iff_getElem.mp hp
  intro heq
  refine hne ((List.getElem?_inj (by simpa using hj) h.single).mp ?_)
  rw [List.getElem?_map, List.getElem?_map, hi, List.getElem?_eq_getElem hj, Option.map_some,
    Option.map_some, heq]

/-- A quarantine nobody asks for any more ends or goes on. -/
theorem Probing.replace (h : Probing s) (hk : s.objects.get k = some slot) {q : Quarantine}
    (hq : slot.quarantine = some q) {q' : Option Quarantine}
    (hq' : ∀ r, q' = some r → r.id = q.id ∧ r.probeCutoffArrival ≤ slot.nextArrival)
    (hnone : ∀ p ∈ s.probes, p.quarantine ≠ q.id) :
    Probing (s.setSlot k ({ · with quarantine := q' })) := by
  refine ⟨?_, h.single, ?_, ?_⟩
  · intro p hp
    refine ⟨(h.pending p hp).1, fun k₁ slot₁ q₁ hk₁ hq₁ hid => ?_⟩
    rcases Heap.get_update_cases hk₁ with ⟨rfl, a, -, rfl⟩ | ⟨-, hold₁⟩
    · exact absurd (hid.symm.trans (hq' q₁ hq₁).1) (hnone p hp)
    · exact (h.pending p hp).2 k₁ slot₁ q₁ hold₁ hq₁ hid
  · intro k₁ slot₁ q₁ hk₁ hq₁
    rcases Heap.get_update_cases hk₁ with ⟨rfl, a, ha, rfl⟩ | ⟨-, hold₁⟩
    · obtain rfl := Option.some.inj (hk.symm.trans ha)
      obtain ⟨hid, hcut⟩ := hq' q₁ hq₁
      rw [hid]
      exact ⟨(h.quarantined _ slot q hk hq).1, hcut, fun _ p hp => hnone p hp⟩
    · exact h.quarantined k₁ slot₁ q₁ hold₁ hq₁
  · intro k₁ k₂ slot₁ slot₂ q₁ q₂ hk₁ hk₂ hq₁ hq₂ heq
    rcases Heap.get_update_cases hk₁ with ⟨rfl, a, -, rfl⟩ | ⟨-, hold₁⟩
    · rcases Heap.get_update_cases hk₂ with ⟨rfl, -⟩ | ⟨-, hold₂⟩
      · rfl
      · exact h.distinct _ k₂ slot slot₂ q q₂ hk hold₂ hq hq₂ ((hq' q₁ hq₁).1.symm.trans heq)
    · rcases Heap.get_update_cases hk₂ with ⟨rfl, a, -, rfl⟩ | ⟨-, hold₂⟩
      · exact h.distinct k₁ _ slot₁ slot q₁ q hold₁ hk hq₁ hq (heq.trans (hq' q₂ hq₂).1)
      · exact h.distinct k₁ k₂ slot₁ slot₂ q₁ q₂ hold₁ hold₂ hq₁ hq₂ heq

theorem Probing.settleProbe (h : Probing s) {i : Nat} {outcome : Option TransportCloseReport}
    (hstep : s.settleProbe i outcome = some s') : Probing s' := by
  obtain ⟨probe, slot, hi, hk, hcases⟩ := settleProbe_cases hstep
  rcases hcases with ⟨-, rfl⟩ | ⟨q, hq, hid, hcases⟩
  · exact h.erase i s.events
  · have hnone (p : PendingProbe) (hp : p ∈ s.probes.eraseIdx i) : p.quarantine ≠ q.id := by
      rw [hid]
      exact h.erase_ne hi p hp
    rcases hcases with ⟨report, -, rfl⟩ | ⟨events, -, rfl⟩
    · refine Probing.steady ?_ (Steady.promote.trans (.cleanupSlot _))
      exact (h.erase i _).replace hk hq (by simp) hnone
    · refine Probing.steady ?_ (.cleanupSlot _)
      refine (h.erase i events).replace hk hq ?_ hnone
      intro r hr
      obtain rfl := Option.some.inj hr
      exact ⟨rfl, Nat.le_refl _⟩

/-! ## Every state that is reached -/

theorem inv_init : State.init.Inv := by
  refine ⟨⟨?_, ?_, ?_, ?_, ?_⟩, ⟨?_, List.nodup_nil, ?_, ?_⟩⟩
  · intro i hi
    cases hi
  · intro k slot hk
    cases hk
  · intro a k hk
    cases hk
  · intro k slot hk
    cases hk
  · intro c call hc
    cases hc
  · intro p hp
    cases hp
  · intro k slot q hk
    cases hk
  · intro k k' slot slot' q q' hk
    cases hk

theorem steady_admitted (call : Call) : Steady s (s.admitted call) := by
  have hset := Steady.setSlot (s := s) (k := call.slot) (f := ({ · with owner := some s.calls.next }))
    (fun _ => rfl) (fun _ => rfl) (fun _ => Nat.le_refl _)
  exact hset.trans (.of_objects rfl rfl rfl)

theorem Probing.runAccount (h : Probing s) {accountId : String} {signal : Nat}
    (hstep : s.runAccount accountId signal = some s') : Probing s' := by
  obtain ⟨install, slot, call, -, -, -, hcases⟩ := runAccount_cases hstep
  have harrived : Probing (s.arrived accountId install.generation) :=
    h.steady ((Steady.findSlot accountId).trans (.arrive _))
  rcases hcases with ⟨-, -, rfl⟩ | ⟨-, hcases⟩
  · exact (harrived.steady (steady_admitted call)).steady .startRun
  · have hqueue : Probing ((s.arrived accountId install.generation).queued call) := by
      refine Probing.maybeProbe (Probing.steady ?_ .enqueue) _
      exact harrived.steady (.of_objects rfl rfl rfl)
    rcases hcases with ⟨-, rfl⟩ | ⟨-, rfl⟩
    · exact hqueue.steady ((Steady.removeWaiter _).trans (.setPhase _))
    · exact hqueue

theorem Probing.settle (h : Probing s) {settlement : Settlement}
    (hstep : s.settle c settlement = some s') : Probing s' := by
  obtain ⟨call, -, hstep⟩ := Option.bind_eq_some_iff.mp hstep
  obtain ⟨slot, hk, hstep⟩ := Option.bind_eq_some_iff.mp hstep
  split at hstep
  · split at hstep
    · obtain rfl := Option.some.inj hstep
      exact h.steady (.release _)
    · obtain rfl := Option.some.inj hstep
      exact h.quarantine hk _ _ _
  · cases hstep

/-- Actions that leave the quarantines alone. -/
theorem steady_of_onAbort (hstep : s.onAbort c = some s') : Steady s s' := by
  obtain ⟨call, -, hstep⟩ := Option.bind_eq_some_iff.mp hstep
  split at hstep
  · obtain rfl := Option.some.inj hstep
    split
    · exact (Steady.removeWaiter _).trans (.setPhase _)
    · exact .removeWaiter _
  · cases hstep

theorem steady_of_resume (hstep : s.resume c = some s') : Steady s s' := by
  obtain ⟨call, -, hstep⟩ := Option.bind_eq_some_iff.mp hstep
  split at hstep
  · obtain rfl := Option.some.inj hstep
    exact .startRun
  · obtain rfl := Option.some.inj hstep
    exact .setPhase _
  · cases hstep

theorem steady_of_callbackReturned (hstep : s.callbackReturned c = some s') : Steady s s' := by
  obtain ⟨call, -, hstep⟩ := Option.bind_eq_some_iff.mp hstep
  split at hstep
  · dsimp only at hstep
    split at hstep
    · obtain rfl := Option.some.inj hstep
      exact Steady.leave.trans (.cleanupSlot _)
    · obtain rfl := Option.some.inj hstep
      exact Steady.leave.trans .enqueue
  · cases hstep

theorem steady_of_installFull (full : Bool) (fingerprint : String) :
    Steady s (s.installFull full fingerprint) := by
  unfold State.installFull
  split
  · split <;> exact .of_objects rfl rfl rfl
  · exact .refl s

/-- An action that the host may take in the state. -/
theorem step_guarded {b : Bool} {t : Option State} (hstep : (if b then none else t) = some s') :
    b = false ∧ t = some s' := by
  cases b with
  | true => cases hstep
  | false => exact ⟨rfl, hstep⟩

theorem State.Inv.step (h : s.Inv) {a : Action} (hstep : s.step a = some s') : s'.Inv := by
  cases a with
  | installFull full fingerprint =>
    obtain rfl := Option.some.inj hstep
    exact ⟨h.core.installFull full fingerprint, h.probing.steady (steady_of_installFull _ _)⟩
  | runAccount accountId signal => exact ⟨h.core.runAccount hstep, h.probing.runAccount hstep⟩
  | abort signal =>
    obtain rfl := Option.some.inj hstep
    exact ⟨h.core.abort signal, h.probing.steady (.of_objects rfl rfl rfl)⟩
  | onAbort c => exact ⟨h.core.onAbort hstep, h.probing.steady (steady_of_onAbort hstep)⟩
  | resume c =>
    obtain ⟨-, hstep⟩ := step_guarded hstep
    exact ⟨h.core.resume hstep, h.probing.steady (steady_of_resume hstep)⟩
  | settle c settlement =>
    obtain ⟨-, hstep⟩ := step_guarded hstep
    exact ⟨h.core.settle hstep, h.probing.settle hstep⟩
  | callbackReturned c =>
    exact ⟨h.core.callbackReturned hstep, h.probing.steady (steady_of_callbackReturned hstep)⟩
  | settleProbe i outcome =>
    obtain ⟨hcb, hstep⟩ := step_guarded hstep
    exact ⟨h.core.settleProbe hcb hstep, h.probing.settleProbe hstep⟩

theorem inv_of_reached (h : Reached State.step State.init s) : s.Inv :=
  ReachedBy.invariant h inv_init fun _ _ _ hinv _ hstep => hinv.step hstep

end Webchannel.Lease
