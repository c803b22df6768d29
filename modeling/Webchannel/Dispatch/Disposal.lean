import Webchannel.Dispatch.Turns

/-!
# Dropping what a session holds

`clearPending` empties the queue of one session and rolls its open leases back; `dispose` does
so for every session, finishes the leases and forgets the session names.
-/

namespace Webchannel.Dispatch

open Webchannel.Retention

variable {Message : Type}

namespace Dispatcher

variable {d d' : Dispatcher Message}

section Sweep

variable {options : Options Message} {s : Nat} {S : SessionState} {c : Drop}

/-- The queue of a session and the entries of its open leases are dropped. -/
def swept (d : Dispatcher Message) (s : Nat) (S : SessionState) (c : Drop)
    (ledger : Ledger) : Dispatcher Message :=
  { d with
    states := d.states.update s ({ · with pending := [] })
    entries := (d.entries.updateAll S.pending ({ · with dropped := some c })).updateAll
      (d.leaseEntries S.openLeases) (droppedBy c)
    ledger }

theorem swept_eq (d : Dispatcher Message) (s : Nat) (S : SessionState) (c : Drop) :
    ∃ ledger, (d.leaseEntries S.openLeases).foldl (dropEntry c)
      (((d.updateState s ({ · with pending := [] })).releaseAll S.pending).markDropped c
        S.pending) = d.swept s S c ledger := by
  obtain ⟨ledger, hrelease⟩ := releaseAll_eq (d.updateState s ({ · with pending := [] })) S.pending
  rw [hrelease, markDropped_eq]
  obtain ⟨ledger', hdrop⟩ := dropEntries_eq
    { d.updateState s ({ · with pending := [] }) with
      ledger := ledger
      entries := d.entries.updateAll S.pending ({ · with dropped := some c }) } c
    (d.leaseEntries S.openLeases)
  exact ⟨ledger', hdrop⟩

theorem mem_leaseEntries {e : Nat} {leases : List Nat} : e ∈ d.leaseEntries leases ↔
    ∃ l ∈ leases, ∃ L, d.leases.get l = some L ∧ e ∈ L.entries := by
  simp only [leaseEntries, List.mem_flatMap]
  constructor
  · rintro ⟨l, hl, he⟩
    cases hL : d.leases.get l with
    | none => simp [hL] at he
    | some L => exact ⟨l, hl, L, hL, by simpa [hL] using he⟩
  · rintro ⟨l, hl, L, hL, he⟩
    exact ⟨l, hl, by simpa [hL] using he⟩

/-- A queued entry is attached and not dropped. -/
theorem Placed.held_of_pending (h : d.Placed options) (hS : d.states.get s = some S) {e : Nat}
    (he : e ∈ S.pending) : d.isHeld e = true := by
  have honce := h.once e
  have hmem : e ∈ d.located := by
    simp only [located, List.mem_append, Heap.mem_gather]
    exact .inr ⟨s, S, hS, he⟩
  have := List.count_pos_iff.mpr hmem
  by_contra hnot
  rw [if_neg hnot] at honce
  omega

/-- What becomes of one entry. -/
theorem get_swept (ledger : Ledger) (h : d.Core options) (hS : d.states.get s = some S) {e : Nat}
    {E : LeaseEntry Message} (hE : d.entries.get e = some E) :
    ∃ E', (d.swept s S c ledger).entries.get e = some E' ∧ E'.lease = E.lease ∧
      E'.message = E.message ∧
      (e ∈ S.pending ∧ E.state = .attached ∧ E' = { E with dropped := some c } ∨
        e ∉ S.pending ∧ e ∈ d.leaseEntries S.openLeases ∧ E.state ≠ .attached ∧
          E' = droppedBy c E ∨
        e ∉ S.pending ∧ e ∉ d.leaseEntries S.openLeases ∧ E' = E) := by
  have hget : (d.swept s S c ledger).entries.get e =
      if e ∈ d.leaseEntries S.openLeases then
        (if e ∈ S.pending then some { E with dropped := some c } else some E).map
          (droppedBy c)
      else if e ∈ S.pending then some { E with dropped := some c } else some E := by
    simp only [swept]
    rw [Heap.get_updateAll (droppedBy_droppedBy c), Heap.get_updateAll (by simp), hE,
      Option.map_some]
  have hnot : e ∈ d.leaseEntries S.openLeases → E.state ≠ .attached := by
    intro hmem
    obtain ⟨l, -, L, hL, he⟩ := mem_leaseEntries.mp hmem
    obtain ⟨E', hE', -, hs⟩ := h.filed.entry l L e hL he
    obtain rfl := Option.some.inj (hE.symm.trans hE')
    exact hs
  rw [hget]
  by_cases hp : e ∈ S.pending
  · have hatt : E.state = .attached := by
      have := h.placed.held_of_pending hS hp
      simp only [isHeld, hE, Option.any_some, decide_eq_true_eq] at this
      exact this.1
    rw [if_neg fun hmem => hnot hmem hatt, if_pos hp]
    exact ⟨_, rfl, rfl, rfl, .inl ⟨hp, hatt, rfl⟩⟩
  · by_cases hmem : e ∈ d.leaseEntries S.openLeases
    · rw [if_pos hmem, if_neg hp]
      refine ⟨_, rfl, ?_, ?_, .inr (.inl ⟨hp, hmem, hnot hmem, rfl⟩)⟩ <;>
        (unfold droppedBy; split <;> rfl)
    · rw [if_neg hmem, if_neg hp]
      exact ⟨_, rfl, rfl, rfl, .inr (.inr ⟨hp, hmem, rfl⟩)⟩

theorem get_swept_cases (ledger : Ledger) {e : Nat} {E' : LeaseEntry Message}
    (hE' : (d.swept s S c ledger).entries.get e = some E') :
    ∃ E, d.entries.get e = some E := by
  cases hE : d.entries.get e with
  | some E => exact ⟨E, rfl⟩
  | none =>
    simp only [swept] at hE'
    rw [Heap.get_updateAll (droppedBy_droppedBy c), Heap.get_updateAll (by simp), hE] at hE'
    simp at hE'

theorem swept_keeps (ledger : Ledger) (h : d.Core options) (hS : d.states.get s = some S) :
    Keeps d (d.swept s S c ledger) where
  entry := by
    intro e E hE
    obtain ⟨E', hE', hl, hm, -⟩ := get_swept (c := c) ledger h hS hE
    exact ⟨E', hE', hl, hm⟩
  lease := fun l L hL => ⟨L, hL, rfl⟩

theorem droppedBy_state (E : LeaseEntry Message) : (droppedBy c E).state = .rolledBack := by
  unfold droppedBy
  split
  · assumption
  · rfl

/-- Nothing that is swept is held any more; everything else is as it was. -/
theorem isHeld_swept (ledger : Ledger) (h : d.Core options) (hS : d.states.get s = some S)
    (e : Nat) : (d.swept s S c ledger).isHeld e = (d.isHeld e && decide (e ∉ S.pending)) := by
  cases hE : d.entries.get e with
  | none =>
    have hnone : (d.swept s S c ledger).entries.get e = none := by
      cases hE' : (d.swept s S c ledger).entries.get e with
      | none => rfl
      | some E' =>
        obtain ⟨E, hE₀⟩ := get_swept_cases ledger hE'
        simp [hE] at hE₀
    simp [isHeld, hE, hnone]
  | some E =>
    obtain ⟨E', hE', -, -, hcase⟩ := get_swept (c := c) ledger h hS hE
    simp only [isHeld, hE, hE', Option.any_some]
    rcases hcase with ⟨hp, -, rfl⟩ | ⟨hp, -, hs, rfl⟩ | ⟨hp, -, rfl⟩
    · simp [hp]
    · simp [hp, hs, droppedBy_state]
    · simp [hp]

theorem Core.swept (h : d.Core options) (hS : d.states.get s = some S) (ledger : Ledger) :
    Core options (d.swept s S c ledger) := by
  have hk := swept_keeps (c := c) ledger h hS
  have hput : ∀ s' S₀, d.states.get s' = some S₀ → ∃ S',
      (d.swept s S c ledger).states.get s' = some S' ∧ S'.running = S₀.running ∧
        S'.openLeases = S₀.openLeases ∧ S'.pending.Sublist S₀.pending := by
    intro s' S₀ hS₀
    simp only [Dispatcher.swept, Heap.get_update]
    split
    · rw [hS₀, Option.map_some]
      exact ⟨_, rfl, rfl, rfl, List.nil_sublist _⟩
    · exact ⟨S₀, hS₀, rfl, rfl, .refl _⟩
  have hget : ∀ s' S', (d.swept s S c ledger).states.get s' = some S' → ∃ S₀,
      d.states.get s' = some S₀ ∧ S'.running = S₀.running ∧ S'.openLeases = S₀.openLeases ∧
        S'.pending.Sublist S₀.pending := by
    intro s' S' hS'
    rcases Heap.get_update_cases hS' with ⟨rfl, S₀, hS₀, rfl⟩ | ⟨-, hS'⟩
    · exact ⟨S₀, hS₀, rfl, rfl, List.nil_sublist _⟩
    · exact ⟨S', hS', rfl, rfl, .refl _⟩
  refine ⟨⟨?_, ?_, ?_, ?_⟩, ⟨?_, h.named.unique, h.named.lease, h.named.turn, h.named.serial, ?_⟩,
    ⟨?_, h.filed.nodup, ?_, ?_, ?_⟩, ⟨?_, ?_, ?_, ?_, ?_, ?_⟩⟩
  · intro t T hT hphase
    obtain ⟨S₀, hS₀, hr⟩ := h.wired.turn t T hT hphase
    obtain ⟨S', hS', hr', -⟩ := hput _ S₀ hS₀
    exact ⟨S', hS', hr'.trans hr⟩
  · intro s' S' t hS' hr
    obtain ⟨S₀, hS₀, hr', -⟩ := hget s' S' hS'
    exact h.wired.running s' S₀ t hS₀ (hr'.symm.trans hr)
  · intro l L hL hopen
    obtain ⟨S₀, hS₀, hmem⟩ := h.wired.lease l L hL hopen
    obtain ⟨S', hS', -, ho, -⟩ := hput _ S₀ hS₀
    exact ⟨S', hS', ho ▸ hmem⟩
  · intro s' S' l hS' hmem
    obtain ⟨S₀, hS₀, -, ho, -⟩ := hget s' S' hS'
    exact h.wired.openLease s' S₀ l hS₀ (ho ▸ hmem)
  · intro k s' hk'
    obtain ⟨S₀, hS₀⟩ := h.named.state k s' hk'
    obtain ⟨S', hS', -⟩ := hput s' S₀ hS₀
    exact ⟨S', hS'⟩
  · intro hd s' S' hS'
    obtain ⟨S₀, hS₀, -, ho, hp⟩ := hget s' S' hS'
    obtain ⟨hp₀, ho₀⟩ := h.named.disposed hd s' S₀ hS₀
    rw [hp₀] at hp
    exact ⟨List.sublist_nil.mp hp, ho.trans ho₀⟩
  · intro l L e hL he
    obtain ⟨E, hE, hl, hs⟩ := h.filed.entry l L e hL he
    obtain ⟨E', hE', hl', -, hcase⟩ := get_swept (c := c) ledger h hS hE
    refine ⟨E', hE', hl'.trans hl, ?_⟩
    rcases hcase with ⟨-, hatt, -⟩ | ⟨-, -, -, rfl⟩ | ⟨-, -, rfl⟩
    · exact absurd hatt hs
    · simp [droppedBy_state]
    · exact hs
  · intro e E' hE'
    obtain ⟨E, hE⟩ := get_swept_cases ledger hE'
    obtain ⟨E'', hE'', hl, -⟩ := get_swept (c := c) ledger h hS hE
    obtain rfl := Option.some.inj (hE'.symm.trans hE'')
    rw [hl]
    exact h.filed.lease e E hE
  · intro e E' hE' hs
    obtain ⟨E, hE⟩ := get_swept_cases ledger hE'
    obtain ⟨E'', hE'', hl, -, hcase⟩ := get_swept (c := c) ledger h hS hE
    obtain rfl := Option.some.inj (hE'.symm.trans hE'')
    rw [hl]
    rcases hcase with ⟨-, hatt, rfl⟩ | ⟨-, -, -, rfl⟩ | ⟨-, -, rfl⟩
    · simp [hatt] at hs
    · simp [droppedBy_state] at hs
    · exact h.filed.open_ e E' hE hs
  · intro e E' hE'
    obtain ⟨E, hE⟩ := get_swept_cases ledger hE'
    obtain ⟨E'', hE'', -, -, hcase⟩ := get_swept (c := c) ledger h hS hE
    obtain rfl := Option.some.inj (hE'.symm.trans hE'')
    have hcons := h.filed.consistent e E hE
    rcases hcase with ⟨-, hatt, rfl⟩ | ⟨-, -, -, rfl⟩ | ⟨-, -, rfl⟩
    · simpa [Consistent, hatt] using hcons
    · unfold droppedBy
      split
      · exact hcons
      · simp [Consistent]
    · exact hcons
  · intro e
    have hcount := Heap.count_gather_update (g := SessionState.pending) hS
      ({ · with pending := [] }) e
    have honce := h.placed.once e
    rw [isHeld_swept ledger h hS]
    simp only [located, List.count_append] at honce ⊢
    simp only [List.count_nil, Nat.add_zero] at hcount
    simp only [Dispatcher.swept]
    by_cases hp : e ∈ S.pending
    · have hone := List.count_pos_iff.mpr hp
      rw [h.placed.held_of_pending hS hp] at honce
      simp only [if_true] at honce
      simp only [hp, not_true, decide_false, Bool.and_false, Bool.false_eq_true, if_false]
      omega
    · have hzero := List.count_eq_zero_of_not_mem hp
      simp only [hp, not_false_iff, decide_true, Bool.and_true]
      omega
  · intro hd s' S' e hS' he
    obtain ⟨S₀, hS₀, -, -, hp⟩ := hget s' S' hS'
    obtain ⟨k, hke, hks⟩ := h.placed.pending hd s' S₀ e hS₀ (hp.subset he)
    exact ⟨k, hk.keyOf_eq hke, hks⟩
  · intro t T hT
    obtain ⟨hkeys, hmsg⟩ := h.placed.turn t T hT
    exact ⟨fun e he => hk.keyOf_eq (hkeys e he), by rw [hk.messagesOf_eq hkeys, hmsg]⟩
  · intro i hi
    obtain ⟨hkeys, hmsg⟩ := h.placed.invocation i hi
    exact ⟨fun e he => hk.keyOf_eq (hkeys e he), by rw [hk.messagesOf_eq hkeys, hmsg]⟩
  · intro e he
    obtain ⟨k, hke⟩ := h.placed.attached e he
    exact ⟨k, hk.keyOf_eq hke⟩
  · intro k
    have hback : ((d.swept s S c ledger).backlog k).Sublist (d.backlog k) := by
      refine backlog_sublist ?_ ?_ k
      · exact fun k s hk => .inl hk
      intro k s' hks
      obtain ⟨S₀, hS₀⟩ := h.named.state k s' hks
      obtain ⟨S', hS', hr, -, hp⟩ := hput s' S₀ hS₀
      simp only [backlogAt, hS₀, hS', hr]
      exact hp.append_left _
    rw [hk.attachmentsOf_eq h.placed.attached rfl]
    exact (hback.append_left _).trans (h.placed.order k)

theorem Inv.clearPending (h : d.Inv options) (key : String) :
    Inv options (d.clearPending key).2 := by
  unfold Dispatcher.clearPending
  cases hkey : d.sessions.get key with
  | none => exact h
  | some s =>
    dsimp only
    obtain ⟨S, hS⟩ := h.named.state key s hkey
    rw [hS]
    dsimp only
    obtain ⟨ledger, heq⟩ := d.swept_eq s S .cleared
    rw [heq]
    have hcore := h.toCore.swept (c := .cleared) hS ledger
    refine ⟨hcore.maybeForget (.inr hkey), fun s' S' hS' hr ho => ?_⟩
    rw [maybeForget_states] at hS'
    rcases Heap.get_update_cases hS' with ⟨-, S₀, -, rfl⟩ | ⟨-, hS'⟩
    · rfl
    · exact h.idle s' S' hS' hr ho

/-- The open leases of a session are finished, with nothing left in them. -/
def closedLeases (d : Dispatcher Message) (s : Nat) (leases : List Nat) : Dispatcher Message :=
  { d with
    leases := d.leases.updateAll leases ({ · with finished := true, entries := [] })
    states := d.states.update s ({ · with openLeases := [], readyToDrain := false }) }

theorem Core.closedLeases (h : d.Core options) (hS : d.states.get s = some S)
    (hrolled : ∀ e ∈ d.leaseEntries S.openLeases, ∀ E, d.entries.get e = some E →
      E.state = .rolledBack) : Core options (d.closedLeases s S.openLeases) := by
  have hlease : ∀ l, (d.closedLeases s S.openLeases).leases.get l = if l ∈ S.openLeases then
      (d.leases.get l).map ({ · with finished := true, entries := [] }) else d.leases.get l := by
    intro l
    apply Heap.get_updateAll
    intro L
    rfl
  -- A lease that is still open belongs to another state.
  have hother : ∀ {l L}, (d.closedLeases s S.openLeases).leases.get l = some L →
      L.finished = false → d.leases.get l = some L ∧ L.state ≠ s := by
    intro l L hL hopen
    rw [hlease] at hL
    split at hL
    · obtain ⟨L₀, -, rfl⟩ := Option.map_eq_some_iff.mp hL
      cases hopen
    · rename_i hmem
      refine ⟨hL, fun heq => hmem ?_⟩
      obtain ⟨S₀, hS₀, hmem₀⟩ := h.wired.lease l L hL hopen
      rw [heq] at hS₀
      obtain rfl := Option.some.inj (hS.symm.trans hS₀)
      exact hmem₀
  have hput : ∀ s' S₀, d.states.get s' = some S₀ → ∃ S',
      (d.closedLeases s S.openLeases).states.get s' = some S' ∧ S'.running = S₀.running ∧
        S'.pending = S₀.pending ∧ (s' ≠ s → S' = S₀) := by
    intro s' S₀ hS₀
    simp only [Dispatcher.closedLeases, Heap.get_update]
    split
    · rw [hS₀, Option.map_some]
      exact ⟨_, rfl, rfl, rfl, fun hne => absurd ‹_› hne⟩
    · exact ⟨S₀, hS₀, rfl, rfl, fun _ => rfl⟩
  have hget : ∀ s' S', (d.closedLeases s S.openLeases).states.get s' = some S' → ∃ S₀,
      d.states.get s' = some S₀ ∧ S'.running = S₀.running ∧ S'.pending = S₀.pending ∧
        (S'.openLeases = [] ∨ s' ≠ s ∧ S' = S₀) := by
    intro s' S' hS'
    rcases Heap.get_update_cases hS' with ⟨rfl, S₀, hS₀, rfl⟩ | ⟨hne, hS'⟩
    · exact ⟨S₀, hS₀, rfl, rfl, .inl rfl⟩
    · exact ⟨S', hS', rfl, rfl, .inr ⟨hne, rfl⟩⟩
  have hk : Keeps d (d.closedLeases s S.openLeases) := by
    refine ⟨fun e E hE => ⟨E, hE, rfl, rfl⟩, fun l L hL => ?_⟩
    rw [hlease]
    split
    · rw [hL, Option.map_some]
      exact ⟨_, rfl, rfl⟩
    · exact ⟨L, hL, rfl⟩
  refine ⟨⟨?_, ?_, ?_, ?_⟩, ⟨?_, h.named.unique, ?_, h.named.turn, h.named.serial, ?_⟩,
    ⟨?_, ?_, ?_, ?_, h.filed.consistent⟩, ?_⟩
  · intro t T hT hphase
    obtain ⟨S₀, hS₀, hr⟩ := h.wired.turn t T hT hphase
    obtain ⟨S', hS', hr', -⟩ := hput _ S₀ hS₀
    exact ⟨S', hS', hr'.trans hr⟩
  · intro s' S' t hS' hr
    obtain ⟨S₀, hS₀, hr', -⟩ := hget s' S' hS'
    exact h.wired.running s' S₀ t hS₀ (hr'.symm.trans hr)
  · intro l L hL hopen
    obtain ⟨hL₀, hne⟩ := hother hL hopen
    obtain ⟨S₀, hS₀, hmem⟩ := h.wired.lease l L hL₀ hopen
    obtain ⟨S', hS', -, -, hsame⟩ := hput _ S₀ hS₀
    exact ⟨S', hS', hsame hne ▸ hmem⟩
  · intro s' S' l hS' hmem
    obtain ⟨S₀, hS₀, -, -, hnil | ⟨hne, rfl⟩⟩ := hget s' S' hS'
    · simp [hnil] at hmem
    · obtain ⟨L, hL, hopen, hstate⟩ := h.wired.openLease s' S' l hS₀ hmem
      refine ⟨L, ?_, hopen, hstate⟩
      rw [hlease, if_neg, hL]
      intro hmem'
      obtain ⟨L', hL', -, hstate'⟩ := h.wired.openLease s S l hS hmem'
      obtain rfl := Option.some.inj (hL.symm.trans hL')
      exact hne (hstate.symm.trans hstate')
  · intro k s' hk'
    obtain ⟨S₀, hS₀⟩ := h.named.state k s' hk'
    obtain ⟨S', hS', -⟩ := hput s' S₀ hS₀
    exact ⟨S', hS'⟩
  · intro l L hL hopen
    exact h.named.lease l L (hother hL hopen).1 hopen
  · intro hd s' S' hS'
    obtain ⟨S₀, hS₀, -, hp, hcase⟩ := hget s' S' hS'
    obtain ⟨hp₀, ho₀⟩ := h.named.disposed hd s' S₀ hS₀
    refine ⟨hp.trans hp₀, ?_⟩
    rcases hcase with hnil | ⟨-, rfl⟩
    · exact hnil
    · exact ho₀
  · intro l L e hL he
    rw [hlease] at hL
    split at hL
    · obtain ⟨L₀, -, rfl⟩ := Option.map_eq_some_iff.mp hL
      simp at he
    · exact h.filed.entry l L e hL he
  · intro l L hL
    rw [hlease] at hL
    split at hL
    · obtain ⟨L₀, -, rfl⟩ := Option.map_eq_some_iff.mp hL
      exact List.nodup_nil
    · exact h.filed.nodup l L hL
  · intro e E hE
    obtain ⟨L, hL⟩ := h.filed.lease e E hE
    obtain ⟨L', hL', -⟩ := hk.lease _ L hL
    exact ⟨L', hL'⟩
  · intro e E hE hs
    obtain ⟨L, hL, hopen, he⟩ := h.filed.open_ e E hE hs
    refine ⟨L, ?_, hopen, he⟩
    rw [hlease, if_neg, hL]
    intro hmem
    have := hrolled e (mem_leaseEntries.mpr ⟨E.lease, hmem, L, hL, he⟩) E hE
    simp [this] at hs
  · refine h.placed.quiet hk rfl rfl rfl ?_ (fun e => rfl) ?_ (backlog_sublist ?_ ?_)
    · apply Heap.gather_update_same
      intro S'
      rfl
    · intro hd s' S' e hS' he
      obtain ⟨S₀, hS₀, -, hp, -⟩ := hget s' S' hS'
      obtain ⟨k, hke, hks⟩ := h.placed.pending hd s' S₀ e hS₀ (hp ▸ he)
      exact ⟨k, hk.keyOf_eq hke, hks⟩
    · exact fun k s hk => .inl hk
    · intro k s' hks
      obtain ⟨S₀, hS₀⟩ := h.named.state k s' hks
      obtain ⟨S', hS', hr, hp, -⟩ := hput s' S₀ hS₀
      have hsame : (d.closedLeases s S.openLeases).backlogAt s' = d.backlogAt s' :=
        backlogAt_congr hS₀ hS' hr hp fun t _ => rfl
      exact hsame ▸ .refl _

/-- Nothing is queued in the state and no lease is open on it. -/
def Emptied (d : Dispatcher Message) (s : Nat) : Prop :=
  ∀ S, d.states.get s = some S → S.pending = [] ∧ S.openLeases = []

theorem disposeSession_eq (d : Dispatcher Message) (counts : Nat × Nat) (key : String)
    (hS : d.states.get s = some S) :
    ∃ ledger, (disposeSession (counts, d) (key, s)).2 =
      ((d.swept s S .disposed ledger).closedLeases s S.openLeases).maybeForget key s := by
  obtain ⟨ledger, heq⟩ := d.swept_eq s S .disposed
  refine ⟨ledger, ?_⟩
  unfold Dispatcher.disposeSession
  dsimp only
  rw [hS]
  dsimp only
  rw [heq]
  rfl

/-- Disposing of one session; the flag is set for the whole loop but no round reads it. -/
theorem Inv.disposeSession (h : Inv options { d with disposed := false }) {key : String}
    (counts : Nat × Nat) (hkey : d.sessions.get key = some s) :
    Inv options { (Dispatcher.disposeSession (counts, d) (key, s)).2 with disposed := false } ∧
      Emptied (Dispatcher.disposeSession (counts, d) (key, s)).2 s ∧
      (∀ s', d.Emptied s' → Emptied (Dispatcher.disposeSession (counts, d) (key, s)).2 s') ∧
      (∀ k s', k ≠ key → d.sessions.get k = some s' →
        (Dispatcher.disposeSession (counts, d) (key, s)).2.sessions.get k = some s') ∧
      (Dispatcher.disposeSession (counts, d) (key, s)).2.disposed = d.disposed := by
  obtain ⟨S, hS⟩ := h.named.state key s hkey
  have hS₀ : d.states.get s = some S := hS
  obtain ⟨ledger, heq⟩ := d.disposeSession_eq counts key hS₀
  rw [heq]
  have hsweep := h.toCore.swept (c := .disposed) hS ledger
  have hS' : (d.swept s S .disposed ledger).states.get s = some { S with pending := [] } :=
    Heap.get_update_self hS₀
  have hclose := hsweep.closedLeases hS' (by
    intro e he E hE
    obtain ⟨E₀, hE₀⟩ := get_swept_cases ledger hE
    obtain ⟨E', hE', -, -, hcase⟩ := get_swept (c := .disposed) ledger h.toCore hS hE₀
    obtain rfl := Option.some.inj (hE.symm.trans hE')
    obtain ⟨l, hl, L, hL, hmem⟩ := mem_leaseEntries.mp he
    obtain ⟨E'', hE'', -, hs⟩ := h.filed.entry l L e hL hmem
    obtain rfl := Option.some.inj (hE₀.symm.trans hE'')
    rcases hcase with ⟨-, hatt, -⟩ | ⟨-, -, -, rfl⟩ | ⟨-, hnot, -⟩
    · exact absurd hatt hs
    · exact droppedBy_state _
    · exact absurd (mem_leaseEntries.mpr ⟨l, hl, L, hL, hmem⟩) hnot)
  have hforget : Core options (Dispatcher.maybeForget _ key s) := hclose.maybeForget (.inr hkey)
  have hstates : ∀ s' S₁, (((d.swept s S .disposed ledger).closedLeases s S.openLeases).maybeForget
      key s).states.get s' = some S₁ → (s' = s ∧ S₁.pending = [] ∧ S₁.openLeases = []) ∨
      (s' ≠ s ∧ d.states.get s' = some S₁) := by
    intro s' S₁ hS₁
    rw [maybeForget_states] at hS₁
    rcases Heap.get_update_cases hS₁ with ⟨rfl, S₂, hS₂, rfl⟩ | ⟨hne, hS₁⟩
    · obtain rfl := Option.some.inj (hS'.symm.trans hS₂)
      exact .inl ⟨rfl, rfl, rfl⟩
    · exact .inr ⟨hne, (Heap.get_update_of_ne hne).symm.trans hS₁⟩
  refine ⟨?_, ?_, ?_, ?_, maybeForget_flag _ _ _⟩
  · rw [← maybeForget_disposed]
    refine ⟨hforget, fun s' S₁ hS₁ hr ho => ?_⟩
    rw [maybeForget_disposed] at hS₁
    rcases hstates s' S₁ hS₁ with ⟨-, hempty⟩ | ⟨-, hS₁⟩
    · exact hempty.1
    · exact h.idle s' S₁ hS₁ hr ho
  · intro S₁ hS₁
    rcases hstates s S₁ hS₁ with ⟨-, hempty⟩ | ⟨hne, -⟩
    · exact hempty
    · exact absurd rfl hne
  · intro s' hs' S₁ hS₁
    rcases hstates s' S₁ hS₁ with ⟨-, hempty⟩ | ⟨-, hS₁⟩
    · exact hempty
    · exact hs' S₁ hS₁
  · intro k s' hne hk
    rw [maybeForget_sessions_of_ne _ _ hne]
    exact hk

/-- The loop of `dispose` empties every session it visits. -/
theorem disposeSessions (ps : List (String × Nat)) (counts : Nat × Nat)
    (h : Inv options { d with disposed := false }) (hps : ∀ q ∈ ps, d.sessions.get q.1 = some q.2)
    (hnodup : (ps.map Prod.fst).Nodup) :
    Inv options { (ps.foldl Dispatcher.disposeSession (counts, d)).2 with disposed := false } ∧
      (∀ s, (∃ k, (k, s) ∈ ps) ∨ d.Emptied s →
        Emptied (ps.foldl Dispatcher.disposeSession (counts, d)).2 s) ∧
      (ps.foldl Dispatcher.disposeSession (counts, d)).2.disposed = d.disposed := by
  induction ps generalizing d counts with
  | nil => exact ⟨h, fun s hs => hs.resolve_left (by simp), rfl⟩
  | cons q ps ih =>
    obtain ⟨key, s₀⟩ := q
    rw [List.map_cons, List.nodup_cons] at hnodup
    obtain ⟨h₁, hself, hkeep, hsess, hflag⟩ := h.disposeSession counts (hps _ List.mem_cons_self)
    rw [List.foldl_cons]
    obtain ⟨h₂, hrest, hflag'⟩ := ih (d := (Dispatcher.disposeSession (counts, d) (key, s₀)).2)
      (Dispatcher.disposeSession (counts, d) (key, s₀)).1 h₁ (by
        intro q hq
        refine hsess q.1 q.2 ?_ (hps q (List.mem_cons_of_mem _ hq))
        intro heq
        exact hnodup.1 (heq ▸ List.mem_map_of_mem hq)) hnodup.2
    refine ⟨h₂, fun s hs => hrest s ?_, hflag'.trans hflag⟩
    rcases hs with ⟨k, hk⟩ | hs
    · rcases List.mem_cons.mp hk with heq | hk
      · obtain ⟨rfl, rfl⟩ := Prod.mk.inj heq
        exact .inr hself
      · exact .inl ⟨k, hk⟩
    · exact .inr (hkeep s hs)

/-- A state that still has work is the one its session key names. -/
theorem Inv.emptied_of_unnamed (h : d.Inv options) (hd : d.disposed = false)
    (hs : ∀ k, d.sessions.get k ≠ some s) : d.Emptied s := by
  intro S hS
  have hopen : S.openLeases = [] := by
    apply List.eq_nil_iff_forall_not_mem.mpr
    intro l hl
    obtain ⟨L, hL, hfin, hstate⟩ := h.wired.openLease s S l hS hl
    exact hs L.key (hstate ▸ h.named.lease l L hL hfin)
  have hrun : S.running = none := by
    cases hr : S.running with
    | none => rfl
    | some t =>
      obtain ⟨T, hT, hphase, hstate⟩ := h.wired.running s S t hS hr
      exact absurd (hstate ▸ h.named.turn hd t T hT hphase) (hs T.key)
  exact ⟨h.idle s S hS hrun hopen, hopen⟩

theorem Inv.dispose (h : d.Inv options) : Inv options d.dispose.2 := by
  unfold Dispatcher.dispose
  split
  · exact h
  · rename_i hd
    have hd' : d.disposed = false := by simpa using hd
    have hflag : { d with disposed := false } = d := by
      cases d
      cases hd'
      rfl
    have hstart : Inv options { { d with disposed := true } with disposed := false } := by
      change Inv options { d with disposed := false }
      rw [hflag]
      exact h
    obtain ⟨hinv, hempty, hdisposed⟩ := disposeSessions d.sessions.entries (0, 0) hstart
      (fun q hq => OrderedMap.mem_entries.mp hq) d.sessions.nodup
    have hall : ∀ s, Emptied (d.sessions.entries.foldl Dispatcher.disposeSession
        ((0, 0), { d with disposed := true })).2 s := by
      intro s
      apply hempty
      by_cases hs : ∃ k, d.sessions.get k = some s
      · obtain ⟨k, hk⟩ := hs
        exact .inl ⟨k, OrderedMap.mem_entries.mpr hk⟩
      · exact .inr (h.emptied_of_unnamed hd' (by simpa using hs))
    dsimp only
    generalize (d.sessions.entries.foldl Dispatcher.disposeSession
      ((0, 0), { d with disposed := true })).2 = last at hinv hall hdisposed ⊢
    have hgone : last.disposed = true := hdisposed
    -- With every queue emptied and every lease closed, the session names are not needed.
    refine ⟨⟨⟨hinv.wired.turn, hinv.wired.running, hinv.wired.lease, hinv.wired.openLease⟩,
      ⟨by simp, by simp, ?_, by simp [hgone], hinv.named.serial, fun _ => hall⟩,
      ⟨hinv.filed.entry, hinv.filed.nodup, hinv.filed.lease, hinv.filed.open_,
        hinv.filed.consistent⟩,
      ⟨hinv.placed.once, by simp [hgone], hinv.placed.turn, hinv.placed.invocation,
        hinv.placed.attached, ?_⟩⟩, fun s S hS _ _ => (hall s S hS).1⟩
    · intro l L hL hopen
      obtain ⟨S, hS, hmem⟩ := hinv.wired.lease l L hL hopen
      simp [(hall _ S hS).2] at hmem
    · intro k
      refine List.Sublist.trans ?_ (hinv.placed.order k)
      exact (List.nil_sublist _).append_left _

end Sweep

end Dispatcher

end Webchannel.Dispatch
