import Mathlib.Data.List.Nodup
import Webchannel.Lease.Coordinator

/-!
# What holds of the slots

The invariant of a slot speaks about the slot and the calls that refer to it, so a step that
touches one slot leaves the others alone. Inside a step a slot may be `loose` (still in the
map though nothing is in it) or `unserved` (a waiter has not been let in yet); both are
repaired before the step ends.
-/

namespace Webchannel.Lease

/-- The call is the owner of its slot. -/
def Phase.owns : Phase → Bool
  | .granted | .running | .quarantining => true
  | _ => false

structure SlotInv (calls : Heap Call) (aborted : List Nat) (unserved : Prop) (k : Nat)
    (slot : AccountSlot) : Prop where
  account : ∀ c call, calls.get c = some call → call.slot = k → call.accountId = slot.accountId
  owner : ∀ c, slot.owner = some c →
    ∃ call, calls.get c = some call ∧ call.slot = k ∧ call.phase.owns = true
  owned : ∀ c call, calls.get c = some call → call.slot = k → call.phase.owns = true →
    slot.owner = some c
  waiter : ∀ w ∈ slot.waiters, ∃ call, calls.get w.call = some call ∧ call.slot = k ∧
    call.phase = .awaiting ∧ w = call.waiter w.call
  nodup : (slot.waiters.map (·.call)).Nodup
  awaiting : ∀ c call, calls.get c = some call → call.slot = k → call.phase = .awaiting →
    call.signal ∉ aborted → call.waiter c ∈ slot.waiters
  fenced : ∀ c call, slot.owner = some c → calls.get c = some call →
    (slot.quarantine.isSome = true ↔ call.phase = .quarantining)
  served : ¬ unserved → slot.owner = none → slot.quarantine = none →
    ∀ w ∈ slot.waiters, w.signal ∉ aborted → w.generation < slot.highestGeneration

structure Core (s : State) (loose unserved : Option Nat) : Prop where
  install : ∀ i ∈ s.install, i.generation = s.nextGeneration
  slots : ∀ k slot, s.objects.get k = some slot →
    SlotInv s.calls s.aborted (unserved = some k) k slot ∧
      slot.highestGeneration ≤ s.nextGeneration
  mapped : ∀ a k, s.slots.get a = some k → ∃ slot, s.objects.get k = some slot ∧
    slot.accountId = a ∧ (loose ≠ some k → slot.isEmpty = false)
  live : ∀ k slot, s.objects.get k = some slot → slot.isEmpty = false →
    s.slots.get slot.accountId = some k
  calls : ∀ c call, s.calls.get c = some call → ∃ slot, s.objects.get call.slot = some slot

/-- The probes on their way belong to quarantines that wait for them. -/
structure Probing (s : State) : Prop where
  pending : ∀ p ∈ s.probes, p.quarantine < s.nextQuarantine ∧ ∀ k slot q,
    s.objects.get k = some slot → slot.quarantine = some q → q.id = p.quarantine →
    q.probing = true ∧ q.probeCutoffArrival < p.arrival
  single : (s.probes.map (·.quarantine)).Nodup
  quarantined : ∀ k slot q, s.objects.get k = some slot → slot.quarantine = some q →
    q.id < s.nextQuarantine ∧ q.probeCutoffArrival ≤ slot.nextArrival ∧
      (q.probing = false → ∀ p ∈ s.probes, p.quarantine ≠ q.id)
  distinct : ∀ k k' slot slot' q q', s.objects.get k = some slot → s.objects.get k' = some slot' →
    slot.quarantine = some q → slot'.quarantine = some q' → q.id = q'.id → k = k'

structure State.Inv (s : State) : Prop where
  core : Core s none none
  probing : Probing s

section Slots

variable {s : State} {calls calls' : Heap Call} {aborted : List Nat} {unserved unserved' : Prop}
  {k : Nat} {slot : AccountSlot} {loose loose' open_ open' : Option Nat}
  {f : AccountSlot → AccountSlot}

/-- Calls of other slots do not matter. -/
theorem SlotInv.frame (h : SlotInv calls aborted unserved k slot)
    (hcalls : ∀ c call, call.slot = k → (calls.get c = some call ↔ calls'.get c = some call))
    (hu : unserved → unserved') : SlotInv calls' aborted unserved' k slot where
  account c call hc hk := h.account c call ((hcalls c call hk).mpr hc) hk
  owner c hc := by
    obtain ⟨call, hcall, hk, hp⟩ := h.owner c hc
    exact ⟨call, (hcalls c call hk).mp hcall, hk, hp⟩
  owned c call hc hk := h.owned c call ((hcalls c call hk).mpr hc) hk
  waiter w hw := by
    obtain ⟨call, hcall, hk, hp⟩ := h.waiter w hw
    exact ⟨call, (hcalls w.call call hk).mp hcall, hk, hp⟩
  nodup := h.nodup
  awaiting c call hc hk := h.awaiting c call ((hcalls c call hk).mpr hc) hk
  fenced c call ho hc := by
    obtain ⟨call', hcall', hk, -⟩ := h.owner c ho
    have hsame := (hcalls c call' hk).mp hcall'
    obtain rfl := Option.some.inj (hsame.symm.trans hc)
    exact h.fenced c call' ho hcall'
  served hn := h.served fun hun => hn (hu hun)

/-- A step that touches one slot and its calls only has to look at these. -/
theorem Core.update (h : Core s loose open_) (hk : s.objects.get k = some slot)
    (hcalls : ∀ c call, call.slot ≠ k → (s.calls.get c = some call ↔ calls'.get c = some call))
    (hexists : ∀ c call, calls'.get c = some call → call.slot = k ∨ s.calls.get c = some call)
    (hslot : SlotInv calls' s.aborted (open' = some k) k (f slot))
    (hopen : ∀ k', k' ≠ k → open_ = some k' → open' = some k')
    (hhigh : (f slot).highestGeneration ≤ s.nextGeneration)
    (hacc : (f slot).accountId = slot.accountId)
    (hempty : loose' ≠ some k → s.slots.get slot.accountId = some k → (f slot).isEmpty = false)
    (hloose : ∀ k', k' ≠ k → loose = some k' → loose' = some k')
    (hlive : (f slot).isEmpty = false → s.slots.get slot.accountId = some k) :
    Core { s with objects := s.objects.update k f, calls := calls' } loose' open' where
  install := h.install
  slots := by
    intro k' slot' hk'
    rcases Heap.get_update_cases hk' with ⟨rfl, a, ha, rfl⟩ | ⟨hne, hk'⟩
    · obtain rfl := Option.some.inj (hk.symm.trans ha)
      exact ⟨hslot, hhigh⟩
    · obtain ⟨hinv, hle⟩ := h.slots k' slot' hk'
      refine ⟨hinv.frame ?_ (hopen k' hne), hle⟩
      intro c call hcall
      exact hcalls c call (by rw [hcall]; exact hne)
  mapped := by
    intro a k' ha
    obtain ⟨slot', hk', hacc', hne'⟩ := h.mapped a k' ha
    by_cases hkk : k' = k
    · subst hkk
      obtain rfl := Option.some.inj (hk.symm.trans hk')
      refine ⟨f slot, Heap.get_update_self hk, by rw [hacc, hacc'], fun hl => hempty hl ?_⟩
      rw [hacc']
      exact ha
    · refine ⟨slot', by rw [Heap.get_update_of_ne hkk]; exact hk', hacc', fun hl => hne' ?_⟩
      intro hl'
      exact hl (hloose k' hkk hl')
  live := by
    intro k' slot' hk' hne
    rcases Heap.get_update_cases hk' with ⟨rfl, a, ha, rfl⟩ | ⟨hkk, hk'⟩
    · obtain rfl := Option.some.inj (hk.symm.trans ha)
      rw [hacc]
      exact hlive hne
    · exact h.live k' slot' hk' hne
  calls := by
    intro c call hc
    have hslot' : ∃ slot', s.objects.get call.slot = some slot' := by
      rcases hexists c call hc with hck | hc
      · exact ⟨slot, by rw [hck]; exact hk⟩
      · exact h.calls c call hc
    obtain ⟨slot', hs'⟩ := hslot'
    by_cases hkk : call.slot = k
    · exact ⟨f slot, by rw [hkk]; exact Heap.get_update_self hk⟩
    · exact ⟨slot', by rw [Heap.get_update_of_ne hkk]; exact hs'⟩

/-- A slot whose change leaves it in the map needs only the slot itself. -/
theorem Core.setSlot (h : Core s loose open_) (hk : s.objects.get k = some slot)
    (hslot : SlotInv s.calls s.aborted (open' = some k) k (f slot))
    (hopen : ∀ k', k' ≠ k → open_ = some k' → open' = some k')
    (hhigh : (f slot).highestGeneration ≤ s.nextGeneration)
    (hacc : (f slot).accountId = slot.accountId)
    (hempty : loose' ≠ some k → s.slots.get slot.accountId = some k → (f slot).isEmpty = false)
    (hloose : ∀ k', k' ≠ k → loose = some k' → loose' = some k')
    (hlive : (f slot).isEmpty = false → s.slots.get slot.accountId = some k) :
    Core (s.setSlot k f) loose' open' :=
  h.update hk (fun _ _ _ => Iff.rfl) (fun _ _ hc => .inr hc) hslot hopen hhigh hacc hempty hloose hlive

/-- The calls of a slot that a change of phase may touch. -/
theorem setPhase_other {c : Nat} {call : Call} {phase : Phase} (hc : s.calls.get c = some call)
    (hk : call.slot = k) (c' : Nat) (call' : Call) (hne : call'.slot ≠ k) :
    s.calls.get c' = some call' ↔ (s.calls.update c ({ · with phase })).get c' = some call' := by
  rw [Heap.get_update]
  split
  · rename_i heq
    subst heq
    rw [hc, Option.map_some]
    constructor
    · intro h
      obtain rfl := Option.some.inj h
      exact absurd hk hne
    · intro h
      obtain rfl := Option.some.inj h
      exact absurd hk hne
  · rfl

theorem setPhase_cases {c : Nat} {call : Call} {phase : Phase} (hc : calls.get c = some call)
    {c' : Nat} {call' : Call} (h : (calls.update c ({ · with phase })).get c' = some call') :
    (c' = c ∧ call' = { call with phase }) ∨ (c' ≠ c ∧ calls.get c' = some call') := by
  rcases Heap.get_update_cases h with ⟨rfl, a, ha, rfl⟩ | h
  · obtain rfl := Option.some.inj (hc.symm.trans ha)
    exact .inl ⟨rfl, rfl⟩
  · exact .inr h

end Slots

/-! ## Selection -/

section Selection

variable {s : State} {slot : AccountSlot} {w : Waiter}

theorem mem_aborted {signal : Nat} : s.isAborted signal = true ↔ signal ∈ s.aborted := by
  simp [State.isAborted]

instance : IsTrans Waiter State.precedes where
  trans a b c hab hbc := by
    simp only [State.precedes] at *
    omega

instance : Std.Total State.precedes where
  total a b := by
    simp only [State.precedes]
    omega

/-- Who may be let in. -/
def Eligible (s : State) (slot : AccountSlot) (w : Waiter) : Prop :=
  w ∈ slot.waiters ∧ w.signal ∉ s.aborted ∧ slot.highestGeneration ≤ w.generation

theorem select_some (h : s.select slot = some w) :
    Eligible s slot w ∧ ∀ w', Eligible s slot w' → State.precedes w w' := by
  unfold State.select at h
  dsimp only at h
  generalize hl : slot.waiters.filter (fun w =>
    !s.isAborted w.signal && decide (slot.highestGeneration ≤ w.generation)) = eligible at h
  have hmem (w' : Waiter) : w' ∈ eligible ↔ Eligible s slot w' := by
    rw [← hl]
    simp [Eligible, State.isAborted]
  have hsorted := List.pairwise_insertionSort State.precedes eligible
  have hperm (w' : Waiter) : w' ∈ eligible.insertionSort State.precedes ↔ w' ∈ eligible :=
    List.mem_insertionSort _
  cases hm : eligible.insertionSort State.precedes with
  | nil =>
    rw [hm] at h
    cases h
  | cons x rest =>
    rw [hm] at h hsorted
    obtain rfl := Option.some.inj h
    refine ⟨(hmem x).mp ((hperm x).mp (by rw [hm]; exact .head _)), fun w' hw' => ?_⟩
    have hin : w' ∈ x :: rest := by
      rw [← hm]
      exact (hperm w').mpr ((hmem w').mpr hw')
    rcases List.mem_cons.mp hin with rfl | hin
    · simp [State.precedes]
    · exact List.rel_of_pairwise_cons hsorted hin

theorem select_none (h : s.select slot = none) (w : Waiter) : ¬ Eligible s slot w := by
  intro hw
  unfold State.select at h
  rw [List.head?_eq_none_iff] at h
  have hin : w ∈ (slot.waiters.filter (fun w =>
      !s.isAborted w.signal && decide (slot.highestGeneration ≤ w.generation))).insertionSort
        State.precedes := by
    rw [List.mem_insertionSort]
    simpa [Eligible, State.isAborted] using hw
  rw [h] at hin
  cases hin

end Selection

/-! ## The parts of a step -/

section Parts

variable {s : State} {k c : Nat} {slot : AccountSlot} {call : Call} {loose open_ : Option Nat}

theorem Core.tight (h : Core s (some k) open_) (hk : s.objects.get k = some slot)
    (hne : slot.isEmpty = false) : Core s none open_ := by
  refine ⟨h.install, h.slots, fun a k' ha => ?_, h.live, h.calls⟩
  obtain ⟨slot', hk', hacc, hl⟩ := h.mapped a k' ha
  refine ⟨slot', hk', hacc, fun _ => ?_⟩
  by_cases heq : k = k'
  · subst heq
    obtain rfl := Option.some.inj (hk.symm.trans hk')
    exact hne
  · exact hl (by simpa using heq)

theorem Core.settled (h : Core s loose (some k)) (hk : s.objects.get k = some slot)
    (hheld : slot.owner ≠ none ∨ slot.quarantine ≠ none) : Core s loose none := by
  refine ⟨h.install, fun k' slot' hk' => ?_, h.mapped, h.live, h.calls⟩
  obtain ⟨hinv, hle⟩ := h.slots k' slot' hk'
  refine ⟨⟨hinv.account, hinv.owner, hinv.owned, hinv.waiter, hinv.nodup, hinv.awaiting,
    hinv.fenced, fun _ ho hq => ?_⟩, hle⟩
  by_cases heq : k = k'
  · subst heq
    obtain rfl := Option.some.inj (hk.symm.trans hk')
    rcases hheld with hh | hh
    · exact absurd ho hh
    · exact absurd hq hh
  · exact hinv.served (by simpa using heq) ho hq

theorem Core.cleanupSlot (h : Core s (some k) open_) (hk : s.objects.get k = some slot) :
    Core (s.cleanupSlot slot.accountId k) none open_ := by
  unfold State.cleanupSlot
  rw [hk, Option.any_some]
  by_cases he : slot.isEmpty = true
  · split
    · rename_i hmap
      refine ⟨h.install, h.slots, ?_, ?_, h.calls⟩
      · intro a k' ha
        simp only [OrderedMap.get_delete_eq] at ha
        split at ha
        · cases ha
        · rename_i hne
          obtain ⟨slot', hk', hacc, hl⟩ := h.mapped a k' ha
          refine ⟨slot', hk', hacc, fun _ => hl ?_⟩
          intro heq
          obtain rfl := Option.some.inj heq
          obtain rfl := Option.some.inj (hk.symm.trans hk')
          exact hne hacc.symm
      · intro k' slot' hk' hne
        have hlive := h.live k' slot' hk' hne
        simp only [OrderedMap.get_delete_eq]
        split
        · rename_i heq
          rw [heq, hmap.2] at hlive
          obtain rfl := Option.some.inj hlive
          obtain rfl := Option.some.inj (hk.symm.trans hk')
          rw [he] at hne
          cases hne
        · exact hlive
    · rename_i hmap
      refine ⟨h.install, h.slots, fun a k' ha => ?_, h.live, h.calls⟩
      obtain ⟨slot', hk', hacc, hl⟩ := h.mapped a k' ha
      refine ⟨slot', hk', hacc, fun _ => hl ?_⟩
      intro heq
      obtain rfl := Option.some.inj heq
      obtain rfl := Option.some.inj (hk.symm.trans hk')
      rw [hacc] at hmap
      exact hmap ⟨he, ha⟩
  · rw [if_neg (by simp [he])]
    exact h.tight hk (by simpa using he)

/-- The owner gives its slot up. -/
theorem Core.leave (h : Core s none none) (hc : s.calls.get c = some call)
    (hk : s.objects.get call.slot = some slot) (hp : call.phase.owns = true) :
    Core (s.leave c call.slot) (some call.slot) (some call.slot) ∧
      (s.leave c call.slot).objects.get call.slot = some { slot with owner := none } := by
  obtain ⟨hinv, hle⟩ := h.slots call.slot slot hk
  have howner := hinv.owned c call hc rfl hp
  have hcases {c' : Nat} {call' : Call}
      (h' : (s.calls.update c ({ · with phase := .done })).get c' = some call') :=
    setPhase_cases hc h'
  constructor
  · refine h.update hk (setPhase_other hc rfl) ?_ ?_ (by simp) hle rfl (by simp) (by simp) ?_
    · intro c' call' hc'
      rcases hcases hc' with ⟨-, rfl⟩ | ⟨-, hc'⟩
      · exact .inl rfl
      · exact .inr hc'
    · rw [if_pos howner]
      constructor
      · intro c' call' hc' hslot
        rcases hcases hc' with ⟨-, rfl⟩ | ⟨-, hc'⟩
        · exact hinv.account c call hc rfl
        · exact hinv.account c' call' hc' hslot
      · intro c' ho
        cases ho
      · intro c' call' hc' hslot hp'
        rcases hcases hc' with ⟨-, rfl⟩ | ⟨hne, hc'⟩
        · cases hp'
        · have := hinv.owned c' call' hc' hslot hp'
          rw [howner] at this
          exact absurd (Option.some.inj this).symm hne
      · intro w hw
        obtain ⟨call', hcall', hslot, hph, heq⟩ := hinv.waiter w hw
        refine ⟨call', ?_, hslot, hph, heq⟩
        rw [Heap.get_update_of_ne]
        · exact hcall'
        · rintro rfl
          obtain rfl := Option.some.inj (hc.symm.trans hcall')
          rw [hph] at hp
          cases hp
      · exact hinv.nodup
      · intro c' call' hc' hslot hph hab
        rcases hcases hc' with ⟨-, rfl⟩ | ⟨-, hc'⟩
        · cases hph
        · exact hinv.awaiting c' call' hc' hslot hph hab
      · intro c' call' ho
        cases ho
      · intro hn
        exact absurd rfl hn
    · intro hne
      refine h.live call.slot slot hk ?_
      simp [AccountSlot.isEmpty, howner]
  · change (s.objects.update _ _).get _ = _
    rw [Heap.get_update_self hk, if_pos howner]

/-- What is exempt at one slot is not exempt elsewhere. -/
theorem elsewhere {o : Option Nat} (k' : Nat) (hne : k' ≠ k) (h : some k = some k') : o = some k' :=
  absurd (Option.some.inj h).symm hne

theorem nonempty_of_waiter {w : Waiter} (hw : w ∈ slot.waiters) : slot.isEmpty = false := by
  cases hl : slot.waiters with
  | nil =>
    rw [hl] at hw
    cases hw
  | cons x rest => simp [AccountSlot.isEmpty, hl]

/-- Fewer waiters, as long as those with a live signal stay. -/
theorem SlotInv.filter {calls : Heap Call} {aborted : List Nat} {unserved unserved' : Prop}
    (hinv : SlotInv calls aborted unserved k slot) {p : Waiter → Bool}
    (hkeep : ∀ c call, calls.get c = some call → call.slot = k → call.phase = .awaiting →
      call.signal ∉ aborted → p (call.waiter c) = true)
    (hserved : ¬ unserved' → slot.owner = none → slot.quarantine = none →
      ∀ w ∈ slot.waiters, p w = true → w.signal ∉ aborted → w.generation < slot.highestGeneration) :
    SlotInv calls aborted unserved' k { slot with waiters := slot.waiters.filter p } where
  account := hinv.account
  owner := hinv.owner
  owned := hinv.owned
  waiter w hw := hinv.waiter w (List.mem_of_mem_filter hw)
  nodup := hinv.nodup.sublist (List.filter_sublist.map _)
  awaiting c call hc hslot hph hab :=
    List.mem_filter.mpr ⟨hinv.awaiting c call hc hslot hph hab, hkeep c call hc hslot hph hab⟩
  fenced := hinv.fenced
  served hn ho hq w hw := by
    obtain ⟨hw, hpw⟩ := List.mem_filter.mp hw
    exact hserved hn ho hq w hw hpw

/-- The selected waiter becomes the owner. -/
theorem SlotInv.grant {calls : Heap Call} {aborted : List Nat} {unserved : Prop}
    (hinv : SlotInv calls aborted unserved k slot) (ho : slot.owner = none)
    (hq : slot.quarantine = none) {w : Waiter} (hw : w ∈ slot.waiters) (unserved' : Prop) :
    SlotInv (calls.update w.call ({ · with phase := .granted })) aborted unserved' k
      { slot with waiters := slot.waiters.filter (·.call ≠ w.call), owner := some w.call } := by
  obtain ⟨call, hcall, hslot, hph, hweq⟩ := hinv.waiter w hw
  have hcases {c' : Nat} {call' : Call}
      (h' : (calls.update w.call ({ · with phase := .granted })).get c' = some call') :=
    setPhase_cases hcall h'
  constructor
  · intro c' call' hc' hs'
    rcases hcases hc' with ⟨-, rfl⟩ | ⟨-, hc'⟩
    · exact hinv.account w.call call hcall hslot
    · exact hinv.account c' call' hc' hs'
  · intro c' hc'
    obtain rfl := Option.some.inj hc'
    exact ⟨_, Heap.get_update_self hcall, hslot, rfl⟩
  · intro c' call' hc' hs' hp'
    rcases hcases hc' with ⟨rfl, -⟩ | ⟨-, hc'⟩
    · rfl
    · have := hinv.owned c' call' hc' hs' hp'
      rw [ho] at this
      cases this
  · intro w' hw'
    obtain ⟨hw', hne⟩ := List.mem_filter.mp hw'
    obtain ⟨call', hcall', hs', hph', heq'⟩ := hinv.waiter w' hw'
    refine ⟨call', ?_, hs', hph', heq'⟩
    rw [Heap.get_update_of_ne (by simpa using hne)]
    exact hcall'
  · exact hinv.nodup.sublist (List.filter_sublist.map _)
  · intro c' call' hc' hs' hph' hab
    rcases hcases hc' with ⟨-, rfl⟩ | ⟨hne, hc'⟩
    · cases hph'
    · exact List.mem_filter.mpr ⟨hinv.awaiting c' call' hc' hs' hph' hab, decide_eq_true hne⟩
  · intro c' call' hc' hcall'
    obtain rfl := Option.some.inj hc'
    rcases hcases hcall' with ⟨-, rfl⟩ | ⟨hne, -⟩
    · simp [hq]
    · exact absurd rfl hne
  · intro _ ho'
    cases ho'

theorem Core.promote (h : Core s (some k) (some k)) (hk : s.objects.get k = some slot)
    (ho : slot.owner = none) (hq : slot.quarantine = none) :
    Core (s.promote k) (some k) none ∧ ∃ slot', (s.promote k).objects.get k = some slot' ∧
      slot'.accountId = slot.accountId := by
  obtain ⟨hinv, hle⟩ := h.slots k slot hk
  have hfilter : SlotInv s.calls s.aborted True k
      { slot with waiters := slot.waiters.filter fun w => !s.isAborted w.signal } :=
    hinv.filter (fun c call _ _ _ hab => by simpa [Call.waiter, State.isAborted] using hab) (by simp)
  unfold State.promote
  rw [hk]
  dsimp only
  cases hsel : s.select { slot with waiters := slot.waiters.filter fun w => !s.isAborted w.signal } with
  | none =>
    refine ⟨h.setSlot hk ?_ elsewhere hle rfl (by simp) elsewhere ?_, _, Heap.get_update_self hk, rfl⟩
    · refine hinv.filter (fun c call _ _ _ hab => by simpa [Call.waiter, State.isAborted] using hab) ?_
      intro _ _ _ w hw hpw hab
      by_contra hge
      exact select_none hsel w ⟨List.mem_filter.mpr ⟨hw, hpw⟩, hab, Nat.not_lt.mp hge⟩
    · intro hne
      refine h.live k slot hk ?_
      cases hl : slot.waiters with
      | nil => simp [AccountSlot.isEmpty, ho, hq, hl] at hne
      | cons x rest => simp [AccountSlot.isEmpty, hl]
  | some w =>
    obtain ⟨⟨hw, hab, hge⟩, -⟩ := select_some hsel
    have hw' : w ∈ slot.waiters := List.mem_of_mem_filter hw
    obtain ⟨call, hcall, hslot, -, -⟩ := hinv.waiter w hw'
    refine ⟨h.update hk (setPhase_other hcall hslot) ?_ (hfilter.grant ho hq hw _) elsewhere hle rfl
      (by simp) elsewhere (fun _ => h.live k slot hk (nonempty_of_waiter hw')), _,
      Heap.get_update_self hk, rfl⟩
    intro c' call' hc'
    rcases setPhase_cases hcall hc' with ⟨-, rfl⟩ | ⟨-, hc'⟩
    · exact .inl hslot
    · exact .inr hc'

theorem Core.release (h : Core s none none) (hc : s.calls.get c = some call)
    (hp : call.phase.owns = true) (hq : call.phase ≠ .quarantining) :
    Core (s.release call.accountId c call.slot) none none := by
  obtain ⟨slot, hk⟩ := h.calls c call hc
  obtain ⟨hinv, -⟩ := h.slots call.slot slot hk
  have hquarantine : slot.quarantine = none := by
    have := hinv.fenced c call (hinv.owned c call hc rfl hp) hc
    simpa [hq] using this
  obtain ⟨hleave, hslot⟩ := h.leave hc hk hp
  obtain ⟨hpromote, slot', hk', hacc⟩ := hleave.promote hslot rfl hquarantine
  have := hpromote.cleanupSlot hk'
  rw [hacc] at this
  unfold State.release
  rw [hinv.account c call hc rfl]
  exact this

/-- A call whose host has aborted takes its waiter back. -/
theorem Core.removeWaiter (h : Core s none open_) (hc : s.calls.get c = some call)
    (hab : call.signal ∈ s.aborted) :
    Core (s.removeWaiter call.accountId c call.slot) none open_ := by
  obtain ⟨slot, hk⟩ := h.calls c call hc
  obtain ⟨hinv, hle⟩ := h.slots call.slot slot hk
  have hremove : Core (s.setSlot call.slot fun slot => { slot with
      waiters := slot.waiters.filter (·.call ≠ c) }) (some call.slot) open_ := by
    refine h.setSlot hk (hinv.filter ?_ ?_) (fun _ _ h => h) hle rfl (by simp) (by simp) ?_
    · intro c' call' hc' _ _ hab'
      refine decide_eq_true fun heq => ?_
      change c' = c at heq
      subst heq
      obtain rfl := Option.some.inj (hc.symm.trans hc')
      exact hab' hab
    · intro hn ho hq w hw _ hw'
      exact hinv.served hn ho hq w hw hw'
    · intro hne
      refine h.live call.slot slot hk ?_
      cases hl : slot.waiters with
      | nil => simpa [AccountSlot.isEmpty, hl] using hne
      | cons x rest => simp [AccountSlot.isEmpty, hl]
  unfold State.removeWaiter
  rw [hinv.account c call hc rfl]
  have hclean := hremove.cleanupSlot (Heap.get_update_self hk)
  exact hclean

theorem Core.setPhase {phase : Phase} (h : Core s loose open_) (hc : s.calls.get c = some call)
    (hslot : ∀ slot, s.objects.get call.slot = some slot →
      SlotInv s.calls s.aborted (open_ = some call.slot) call.slot slot →
      SlotInv (s.calls.update c ({ · with phase })) s.aborted (open_ = some call.slot)
        call.slot slot) :
    Core (s.setPhase c phase) loose open_ := by
  obtain ⟨slot, hk⟩ := h.calls c call hc
  obtain ⟨hinv, hle⟩ := h.slots call.slot slot hk
  have hid : s.objects.update call.slot id = s.objects := Heap.update_eq_self fun _ _ => rfl
  have := h.update (f := id) hk (setPhase_other hc rfl) ?_ (hslot slot hk hinv) (fun _ _ h => h) hle
    rfl ?_ (fun _ _ h => h) (h.live call.slot slot hk)
  · rw [hid] at this
    exact this
  · intro c' call' hc'
    rcases setPhase_cases hc hc' with ⟨-, rfl⟩ | ⟨-, hc'⟩
    · exact .inl rfl
    · exact .inr hc'
  · intro hl hmap
    obtain ⟨slot', hk', -, hne⟩ := h.mapped _ _ hmap
    obtain rfl := Option.some.inj (hk.symm.trans hk')
    exact hne hl

/-- A call that neither owns nor waits ends up in another such phase. -/
theorem SlotInv.retire {calls : Heap Call} {aborted : List Nat} {unserved : Prop} {phase : Phase}
    (hinv : SlotInv calls aborted unserved k slot) (hc : calls.get c = some call)
    (hk : call.slot = k) (hp : call.phase.owns = false) (hw : ∀ w ∈ slot.waiters, w.call ≠ c)
    (hp' : phase.owns = false) (hphase : phase ≠ .awaiting) :
    SlotInv (calls.update c ({ · with phase })) aborted unserved k slot := by
  have hcases {c' : Nat} {call' : Call}
      (h' : (calls.update c ({ · with phase })).get c' = some call') := setPhase_cases hc h'
  have howner (c' : Nat) (ho : slot.owner = some c') : c' ≠ c := by
    rintro rfl
    obtain ⟨call', hcall', -, hown⟩ := hinv.owner c' ho
    obtain rfl := Option.some.inj (hc.symm.trans hcall')
    rw [hp] at hown
    cases hown
  constructor
  · intro c' call' hc' hs'
    rcases hcases hc' with ⟨-, rfl⟩ | ⟨-, hc'⟩
    · exact hinv.account c call hc hk
    · exact hinv.account c' call' hc' hs'
  · intro c' ho
    obtain ⟨call', hcall', hs', hown⟩ := hinv.owner c' ho
    exact ⟨call', by rw [Heap.get_update_of_ne (howner c' ho)]; exact hcall', hs', hown⟩
  · intro c' call' hc' hs' hown
    rcases hcases hc' with ⟨-, rfl⟩ | ⟨-, hc'⟩
    · rw [hp'] at hown
      cases hown
    · exact hinv.owned c' call' hc' hs' hown
  · intro w hw'
    obtain ⟨call', hcall', hrest⟩ := hinv.waiter w hw'
    exact ⟨call', by rw [Heap.get_update_of_ne (hw w hw')]; exact hcall', hrest⟩
  · exact hinv.nodup
  · intro c' call' hc' hs' hph hab
    rcases hcases hc' with ⟨-, rfl⟩ | ⟨-, hc'⟩
    · exact absurd hph hphase
    · exact hinv.awaiting c' call' hc' hs' hph hab
  · intro c' call' ho hc'
    rcases hcases hc' with ⟨rfl, -⟩ | ⟨-, hc'⟩
    · exact absurd rfl (howner c' ho)
    · exact hinv.fenced c' call' ho hc'
  · exact hinv.served

/-- Another phase of the owner, with the quarantine that goes with it. -/
theorem SlotInv.rephase {calls : Heap Call} {aborted : List Nat} {unserved : Prop} {phase : Phase}
    {quarantine : Option Quarantine} (hinv : SlotInv calls aborted unserved k slot)
    (hc : calls.get c = some call) (hk : call.slot = k) (hp : call.phase.owns = true)
    (hp' : phase.owns = true) (hq : quarantine.isSome = true ↔ phase = .quarantining) :
    SlotInv (calls.update c ({ · with phase })) aborted unserved k
      { slot with quarantine := quarantine } := by
  have howner := hinv.owned c call hc hk hp
  have hcases {c' : Nat} {call' : Call}
      (h' : (calls.update c ({ · with phase })).get c' = some call') := setPhase_cases hc h'
  constructor
  · intro c' call' hc' hs'
    rcases hcases hc' with ⟨-, rfl⟩ | ⟨-, hc'⟩
    · exact hinv.account c call hc hk
    · exact hinv.account c' call' hc' hs'
  · intro c' ho
    rw [howner] at ho
    obtain rfl := Option.some.inj ho
    exact ⟨_, Heap.get_update_self hc, hk, hp'⟩
  · intro c' call' hc' hs' hown
    rcases hcases hc' with ⟨rfl, -⟩ | ⟨-, hc'⟩
    · exact howner
    · exact hinv.owned c' call' hc' hs' hown
  · intro w hw
    obtain ⟨call', hcall', hs', hph, heq⟩ := hinv.waiter w hw
    refine ⟨call', ?_, hs', hph, heq⟩
    rw [Heap.get_update_of_ne]
    · exact hcall'
    · rintro rfl
      obtain rfl := Option.some.inj (hc.symm.trans hcall')
      rw [hph] at hp
      cases hp
  · exact hinv.nodup
  · intro c' call' hc' hs' hph hab
    rcases hcases hc' with ⟨-, rfl⟩ | ⟨-, hc'⟩
    · rw [show phase = .awaiting from hph] at hp'
      cases hp'
    · exact hinv.awaiting c' call' hc' hs' hph hab
  · intro c' call' ho hc'
    rcases hcases hc' with ⟨-, rfl⟩ | ⟨hne, -⟩
    · exact hq
    · rw [howner] at ho
      exact absurd (Option.some.inj ho).symm hne
  · intro _ ho
    rw [howner] at ho
    cases ho

/-- Heaps of calls that differ by one new call. -/
theorem alloc_other {calls : Heap Call} (hk : call.slot = k) (c' : Nat) (call' : Call)
    (hne : call'.slot ≠ k) :
    calls.get c' = some call' ↔ (calls.alloc call).get c' = some call' := by
  constructor
  · exact Heap.get_alloc_of_some
  · intro h
    rcases Heap.get_alloc_cases h with ⟨-, rfl⟩ | h
    · exact absurd hk hne
    · exact h

/-- A new call that has become the owner at once. -/
theorem SlotInv.admits {calls : Heap Call} {aborted : List Nat} {unserved : Prop}
    (hinv : SlotInv calls aborted unserved k slot) (ho : slot.owner = none)
    (hq : slot.quarantine = none) (hk : call.slot = k) (hacc : call.accountId = slot.accountId)
    (unserved' : Prop) :
    SlotInv (calls.alloc { call with phase := .granted }) aborted unserved' k
      { slot with owner := some calls.next } := by
  have hcases {c' : Nat} {call' : Call}
      (h' : (calls.alloc { call with phase := .granted }).get c' = some call') :=
    Heap.get_alloc_cases h'
  constructor
  · intro c' call' hc' hs'
    rcases hcases hc' with ⟨-, rfl⟩ | hc'
    · exact hacc
    · exact hinv.account c' call' hc' hs'
  · intro c' hc'
    obtain rfl := Option.some.inj hc'
    exact ⟨_, Heap.get_alloc_next _ _, hk, rfl⟩
  · intro c' call' hc' hs' hown
    rcases hcases hc' with ⟨rfl, -⟩ | hc'
    · rfl
    · have := hinv.owned c' call' hc' hs' hown
      rw [ho] at this
      cases this
  · intro w hw
    obtain ⟨call', hcall', hrest⟩ := hinv.waiter w hw
    exact ⟨call', Heap.get_alloc_of_some hcall', hrest⟩
  · exact hinv.nodup
  · intro c' call' hc' hs' hph hab
    rcases hcases hc' with ⟨-, rfl⟩ | hc'
    · cases hph
    · exact hinv.awaiting c' call' hc' hs' hph hab
  · intro c' call' hc' hcall'
    obtain rfl := Option.some.inj hc'
    rw [Heap.get_alloc_next] at hcall'
    obtain rfl := Option.some.inj hcall'
    simp [hq]
  · intro _ ho'
    cases ho'

/-- A new call that is in no phase yet. -/
theorem SlotInv.alloc {calls : Heap Call} {aborted : List Nat} {unserved : Prop}
    (hinv : SlotInv calls aborted unserved k slot) (hk : call.slot = k)
    (hacc : call.accountId = slot.accountId) (hp : call.phase = .done) :
    SlotInv (calls.alloc call) aborted unserved k slot := by
  have hcases {c' : Nat} {call' : Call} (h' : (calls.alloc call).get c' = some call') :=
    Heap.get_alloc_cases h'
  constructor
  · intro c' call' hc' hs'
    rcases hcases hc' with ⟨-, rfl⟩ | hc'
    · exact hacc
    · exact hinv.account c' call' hc' hs'
  · intro c' ho
    obtain ⟨call', hcall', hrest⟩ := hinv.owner c' ho
    exact ⟨call', Heap.get_alloc_of_some hcall', hrest⟩
  · intro c' call' hc' hs' hown
    rcases hcases hc' with ⟨-, rfl⟩ | hc'
    · rw [hp] at hown
      cases hown
    · exact hinv.owned c' call' hc' hs' hown
  · intro w hw
    obtain ⟨call', hcall', hrest⟩ := hinv.waiter w hw
    exact ⟨call', Heap.get_alloc_of_some hcall', hrest⟩
  · exact hinv.nodup
  · intro c' call' hc' hs' hph hab
    rcases hcases hc' with ⟨-, rfl⟩ | hc'
    · rw [hp] at hph
      cases hph
    · exact hinv.awaiting c' call' hc' hs' hph hab
  · intro c' call' ho hc'
    rcases hcases hc' with ⟨rfl, rfl⟩ | hc'
    · obtain ⟨call'', hcall'', -⟩ := hinv.owner _ ho
      rw [Heap.get_next] at hcall''
      cases hcall''
    · exact hinv.fenced c' call' ho hc'
  · exact hinv.served

/-- A call starts to wait in a slot that is taken. -/
theorem SlotInv.enqueue {calls : Heap Call} {aborted : List Nat} {unserved : Prop}
    (hinv : SlotInv calls aborted unserved k slot) (hc : calls.get c = some call)
    (hk : call.slot = k) (hp : call.phase = .done)
    (hheld : slot.owner ≠ none ∨ slot.quarantine ≠ none) (unserved' : Prop) :
    SlotInv (calls.update c ({ · with phase := .awaiting })) aborted unserved' k
      { slot with waiters := slot.waiters ++ [call.waiter c] } := by
  have hcases {c' : Nat} {call' : Call}
      (h' : (calls.update c ({ · with phase := .awaiting })).get c' = some call') := setPhase_cases hc h'
  have hother (w : Waiter) (hw : w ∈ slot.waiters) : w.call ≠ c := by
    rintro rfl
    obtain ⟨call', hcall', -, hph, -⟩ := hinv.waiter w hw
    obtain rfl := Option.some.inj (hc.symm.trans hcall')
    rw [hp] at hph
    cases hph
  have howner (c' : Nat) (ho : slot.owner = some c') : c' ≠ c := by
    rintro rfl
    obtain ⟨call', hcall', -, hown⟩ := hinv.owner c' ho
    obtain rfl := Option.some.inj (hc.symm.trans hcall')
    rw [hp] at hown
    cases hown
  constructor
  · intro c' call' hc' hs'
    rcases hcases hc' with ⟨-, rfl⟩ | ⟨-, hc'⟩
    · exact hinv.account c call hc hk
    · exact hinv.account c' call' hc' hs'
  · intro c' ho
    obtain ⟨call', hcall', hs', hown⟩ := hinv.owner c' ho
    exact ⟨call', by rw [Heap.get_update_of_ne (howner c' ho)]; exact hcall', hs', hown⟩
  · intro c' call' hc' hs' hown
    rcases hcases hc' with ⟨-, rfl⟩ | ⟨-, hc'⟩
    · cases hown
    · exact hinv.owned c' call' hc' hs' hown
  · intro w hw
    rcases List.mem_append.mp hw with hw | hw
    · obtain ⟨call', hcall', hrest⟩ := hinv.waiter w hw
      exact ⟨call', by rw [Heap.get_update_of_ne (hother w hw)]; exact hcall', hrest⟩
    · obtain rfl := List.mem_singleton.mp hw
      exact ⟨_, Heap.get_update_self hc, hk, rfl, rfl⟩
  · rw [List.map_append]
    refine hinv.nodup.append (List.nodup_singleton _) ?_
    intro x hx hx'
    obtain ⟨w, hw, rfl⟩ := List.mem_map.mp hx
    exact hother w hw (by simpa [Call.waiter] using hx')
  · intro c' call' hc' hs' hph hab
    rcases hcases hc' with ⟨rfl, rfl⟩ | ⟨-, hc'⟩
    · exact List.mem_append_right _ (List.mem_singleton.mpr rfl)
    · exact List.mem_append_left _ (hinv.awaiting c' call' hc' hs' hph hab)
  · intro c' call' ho hc'
    rcases hcases hc' with ⟨rfl, -⟩ | ⟨-, hc'⟩
    · exact absurd rfl (howner c' ho)
    · exact hinv.fenced c' call' ho hc'
  · intro _ ho hq
    rcases hheld with hh | hh
    · exact absurd ho hh
    · exact absurd hq hh

/-- Numbers and generations of a slot only grow. -/
theorem SlotInv.arrive {calls : Heap Call} {aborted : List Nat} {unserved : Prop}
    (hinv : SlotInv calls aborted unserved k slot) (nextArrival highestGeneration : Nat)
    (hle : slot.highestGeneration ≤ highestGeneration) :
    SlotInv calls aborted unserved k { slot with nextArrival, highestGeneration } :=
  ⟨hinv.account, hinv.owner, hinv.owned, hinv.waiter, hinv.nodup, hinv.awaiting, hinv.fenced,
    fun hn ho hq w hw hab => Nat.lt_of_lt_of_le (hinv.served hn ho hq w hw hab) hle⟩

/-- A quarantine replaced by another changes nothing for the calls. -/
theorem SlotInv.requarantine {calls : Heap Call} {aborted : List Nat} {unserved : Prop}
    (hinv : SlotInv calls aborted unserved k slot) {q : Quarantine} (hq : slot.quarantine.isSome = true)
    (unserved' : Prop) :
    SlotInv calls aborted unserved' k { slot with quarantine := some q } :=
  ⟨hinv.account, hinv.owner, hinv.owned, hinv.waiter, hinv.nodup, hinv.awaiting,
    fun c call ho hc => by rw [← hinv.fenced c call ho hc, hq, Option.isSome_some],
    fun _ _ h => by cases h⟩

/-- A quarantine that ends while nobody owns the slot. -/
theorem SlotInv.unquarantine {calls : Heap Call} {aborted : List Nat} {unserved unserved' : Prop}
    (hinv : SlotInv calls aborted unserved k slot) (ho : slot.owner = none) (hu : unserved') :
    SlotInv calls aborted unserved' k { slot with quarantine := none } :=
  ⟨hinv.account, hinv.owner, hinv.owned, hinv.waiter, hinv.nodup, hinv.awaiting,
    fun c call ho' => absurd (ho.symm.trans ho') (by simp), fun hn => absurd hu hn⟩

end Parts

end Webchannel.Lease
