import Webchannel.Dispatch.Draining

/-!
# The steps of a turn

The microtask hands the entries of the turn to the handler, and the continuation of the
handler drains the session again, unless a lease is open or the dispatcher was disposed.
-/

namespace Webchannel.Dispatch

open Webchannel.Retention

variable {Message : Type}

namespace Dispatcher

variable {d d' : Dispatcher Message}

section Turns

variable {options : Options Message} {t : Nat} {T : Turn Message} {p : Phase}

theorem get_phase_cases {t' : Nat} {T' : Turn Message}
    (hT' : (d.turns.update t ({ · with phase := p })).get t' = some T') :
    ∃ T₀, d.turns.get t' = some T₀ ∧ T'.key = T₀.key ∧ T'.state = T₀.state ∧
      T'.entries = T₀.entries ∧ T'.message = T₀.message ∧
      (t' = t ∧ T'.phase = p ∨ t' ≠ t ∧ T' = T₀) := by
  rcases Heap.get_update_cases hT' with ⟨rfl, T₀, hT₀, rfl⟩ | ⟨hne, hT'⟩
  · exact ⟨T₀, hT₀, rfl, rfl, rfl, rfl, .inl ⟨rfl, rfl⟩⟩
  · exact ⟨T', hT', rfl, rfl, rfl, rfl, .inr ⟨hne, rfl⟩⟩

/-- A turn that was not over moves on and still is not over. -/
theorem Wired.phase (h : d.Wired) (hT : d.turns.get t = some T) (hold : T.phase ≠ .done)
    (hnew : p ≠ .done) :
    Wired { d with turns := d.turns.update t ({ · with phase := p }) } := by
  refine ⟨?_, ?_, h.lease, h.openLease⟩
  · intro t' T' hT' hphase
    obtain ⟨T₀, hT₀, -, hstate, -, -, hcase⟩ := get_phase_cases hT'
    have hlive : T₀.phase ≠ .done := by
      rcases hcase with ⟨rfl, -⟩ | ⟨-, rfl⟩
      · obtain rfl := Option.some.inj (hT.symm.trans hT₀)
        exact hold
      · exact hphase
    rw [hstate]
    exact h.turn t' T₀ hT₀ hlive
  · intro s S t' hS hrun
    obtain ⟨T₀, hT₀, hphase, hstate⟩ := h.running s S t' hS hrun
    by_cases ht : t' = t
    · subst ht
      exact ⟨_, Heap.get_update_self hT₀, hnew, hstate⟩
    · exact ⟨T₀, (Heap.get_update_of_ne ht).trans hT₀, hphase, hstate⟩

theorem Named.phase (h : d.Named) (hT : d.turns.get t = some T) (hold : T.phase ≠ .done) :
    Named { d with turns := d.turns.update t ({ · with phase := p }) } := by
  have hlive : ∀ {t' T₀} {T' : Turn Message}, d.turns.get t' = some T₀ → T'.phase ≠ .done →
      (t' = t ∧ T'.phase = p ∨ t' ≠ t ∧ T' = T₀) → T₀.phase ≠ .done := by
    rintro t' T₀ T' hT₀ hphase (⟨rfl, -⟩ | ⟨-, rfl⟩)
    · obtain rfl := Option.some.inj (hT.symm.trans hT₀)
      exact hold
    · exact hphase
  refine ⟨h.state, h.unique, h.lease, ?_, ?_, h.disposed⟩
  · intro hd t' T' hT' hphase
    obtain ⟨T₀, hT₀, hkey, hstate, -, -, hcase⟩ := get_phase_cases hT'
    rw [hkey, hstate]
    exact h.turn hd t' T₀ hT₀ (hlive hT₀ hphase hcase)
  · intro t₁ t₂ T₁ T₂ hT₁ hT₂ hkey hphase₁ hphase₂
    obtain ⟨T₁', hT₁', hkey₁, -, -, -, hcase₁⟩ := get_phase_cases hT₁
    obtain ⟨T₂', hT₂', hkey₂, -, -, -, hcase₂⟩ := get_phase_cases hT₂
    exact h.serial t₁ t₂ T₁' T₂' hT₁' hT₂' (hkey₁.symm.trans (hkey.trans hkey₂))
      (hlive hT₁' hphase₁ hcase₁) (hlive hT₂' hphase₂ hcase₂)

theorem Placed.turn_phase (h : d.Placed options) {t' : Nat} {T' : Turn Message}
    (hT' : (d.turns.update t ({ · with phase := p })).get t' = some T') :
    (∀ e ∈ T'.entries, d.keyOf e = some T'.key) ∧
      T'.message = options.coalesce (d.messagesOf T'.entries) := by
  obtain ⟨T₀, hT₀, hkey, -, hentries, hmsg, -⟩ := get_phase_cases hT'
  rw [hkey, hentries, hmsg]
  exact h.turn t' T₀ hT₀

/-- Once its handler has been called, a turn owes nothing. -/
theorem backlogAt_phase (hT : d.turns.get t = some T) (hold : T.phase ≠ .queued)
    (hnew : p ≠ .queued) (s : Nat) :
    backlogAt { d with turns := d.turns.update t ({ · with phase := p }) } s =
      d.backlogAt s := by
  have hturn : ∀ t', ((d.turns.update t ({ · with phase := p })).get t').map waiting =
      (d.turns.get t').map waiting := by
    intro t'
    by_cases ht : t' = t
    · subst ht
      simp [hT, Heap.get_update_self hT, waiting, hold, hnew]
    · rw [Heap.get_update_of_ne ht]
  simp only [backlogAt, hturn]

theorem Inv.settleHandler (h : d.Inv options) (hT : d.turns.get t = some T)
    (hphase : T.phase = .invoked) :
    Inv options { d with turns := d.turns.update t ({ · with phase := .settled }) } := by
  refine ⟨⟨h.wired.phase hT (by simp [hphase]) (by simp), h.named.phase hT (by simp [hphase]),
    ⟨h.filed.entry, h.filed.nodup, h.filed.lease, h.filed.open_, h.filed.consistent⟩,
    ⟨?_, h.placed.pending, ?_, h.placed.invocation, h.placed.attached, ?_⟩⟩, h.idle⟩
  · intro e
    have hcount := Heap.count_gather_update (g := waiting) hT ({ · with phase := .settled }) e
    have honce := h.placed.once e
    simp only [located, List.count_append] at honce ⊢
    simp only [waiting, hphase, reduceCtorEq, if_false, List.count_nil, Nat.add_zero] at hcount
    refine Eq.trans ?_ honce
    omega
  · exact fun t' T' hT' => h.placed.turn_phase hT'
  · intro k
    have hback : backlog { d with turns := d.turns.update t ({ · with phase := .settled }) } k =
        d.backlog k := by
      unfold backlog
      cases d.sessions.get k with
      | none => rfl
      | some s => exact backlogAt_phase hT (by simp [hphase]) (by simp) s
    rw [hback]
    exact h.placed.order k

/-- The handler is called: what the turn owed is handed over. -/
theorem Inv.invoke (h : d.Inv options) (hd : d.disposed = false) (hT : d.turns.get t = some T)
    (hphase : T.phase = .queued) :
    Inv options { d with
      turns := d.turns.update t ({ · with phase := .invoked })
      invocations := d.invocations ++ [⟨T.key, T.entries, T.message⟩] } := by
  have hkey := h.named.turn hd t T hT (by simp [hphase])
  obtain ⟨S, hS, hrun⟩ := h.wired.turn t T hT (by simp [hphase])
  have hwired := h.wired.phase hT (p := .invoked) (by simp [hphase]) (by simp)
  have hnamed := h.named.phase hT (p := .invoked) (by simp [hphase])
  refine ⟨⟨⟨hwired.turn, hwired.running, hwired.lease, hwired.openLease⟩,
    ⟨hnamed.state, hnamed.unique, hnamed.lease, hnamed.turn, hnamed.serial, hnamed.disposed⟩,
    ⟨h.filed.entry, h.filed.nodup, h.filed.lease, h.filed.open_, h.filed.consistent⟩,
    ⟨?_, h.placed.pending, ?_, ?_, h.placed.attached, ?_⟩⟩, h.idle⟩
  · intro e
    have hcount := Heap.count_gather_update (g := waiting) hT ({ · with phase := .invoked }) e
    have honce := h.placed.once e
    simp only [located, List.count_append, List.flatMap_append, List.flatMap_singleton] at honce ⊢
    simp only [waiting, hphase, reduceCtorEq, if_true, if_false, List.count_nil,
      Nat.add_zero] at hcount
    refine Eq.trans ?_ honce
    omega
  · exact fun t' T' hT' => h.placed.turn_phase hT'
  · intro i hi
    rcases List.mem_append.mp hi with hi | hi
    · exact h.placed.invocation i hi
    · obtain rfl := List.mem_singleton.mp hi
      exact h.placed.turn t T hT
  · intro k
    have horder := h.placed.order k
    by_cases hk : k = T.key
    · -- The turn's entries stood first in the backlog of its session.
      subst hk
      have hbefore : d.backlog T.key = T.entries ++ S.pending := by
        simp [backlog, hkey, backlogAt, hS, hrun, hT, waiting, hphase]
      have hafter : backlog { d with
          turns := d.turns.update t ({ · with phase := .invoked })
          invocations := d.invocations ++ [⟨T.key, T.entries, T.message⟩] } T.key = S.pending := by
        simp [backlog, hkey, backlogAt, hS, hrun, Heap.get_update_self hT, waiting]
      rw [hafter]
      rw [hbefore, ← List.append_assoc] at horder
      change List.Sublist _ (d.attachmentsOf T.key)
      simpa [handled, List.filter_append] using horder
    · have hback : backlog { d with
          turns := d.turns.update t ({ · with phase := .invoked })
          invocations := d.invocations ++ [⟨T.key, T.entries, T.message⟩] } k = d.backlog k := by
        unfold backlog
        cases hks : d.sessions.get k with
        | none => rfl
        | some s =>
          obtain ⟨S', hS'⟩ := h.named.state k s hks
          refine backlogAt_congr hS' hS' rfl rfl fun t' ht' => ?_
          apply Heap.get_update_of_ne
          rintro rfl
          obtain ⟨T', hT', -, hstate⟩ := h.wired.running s S' t' hS' ht'
          obtain rfl := Option.some.inj (hT.symm.trans hT')
          rw [hstate] at hkey
          exact hk (h.named.unique k T.key s hks hkey)
      rw [hback]
      change List.Sublist _ (d.attachmentsOf k)
      simpa [handled, List.filter_append, Ne.symm hk] using horder

/-- The dispatcher was disposed before the microtask ran: the turn's entries are dropped. -/
theorem Inv.skip (h : d.Inv options) (hd : d.disposed = true) (hT : d.turns.get t = some T)
    (hphase : T.phase = .queued) :
    Inv options { d with
      entries := d.entries.updateAll T.entries ({ · with dropped := some .disposed })
      turns := d.turns.update t ({ · with phase := .settled }) } := by
  have hget : ∀ e, (d.entries.updateAll T.entries ({ · with dropped := some .disposed })).get e =
      if e ∈ T.entries then (d.entries.get e).map ({ · with dropped := some .disposed })
      else d.entries.get e := by
    intro e
    apply Heap.get_updateAll
    intro E
    rfl
  have hold : ∀ e E, (d.entries.updateAll T.entries ({ · with dropped := some .disposed })).get e =
      some E → ∃ E₀, d.entries.get e = some E₀ ∧ E.lease = E₀.lease ∧ E.state = E₀.state ∧
        E.wasCommitted = E₀.wasCommitted ∧ (e ∈ T.entries ∨ E = E₀) := by
    intro e E hE
    rw [hget] at hE
    split at hE
    · obtain ⟨E₀, hE₀, rfl⟩ := Option.map_eq_some_iff.mp hE
      exact ⟨E₀, hE₀, rfl, rfl, rfl, .inl ‹_›⟩
    · exact ⟨E, hE, rfl, rfl, rfl, .inr rfl⟩
  -- What the turn still owes has been attached.
  have hheld : ∀ e ∈ T.entries, d.isHeld e = true := by
    intro e he
    have honce := h.placed.once e
    have hmem : e ∈ d.located := by
      simp only [located, List.mem_append, Heap.mem_gather]
      exact .inl (.inr ⟨t, T, hT, by simpa [waiting, hphase] using he⟩)
    have := List.count_pos_iff.mpr hmem
    by_contra hnot
    simp only [Bool.not_eq_true] at hnot
    rw [hnot] at honce
    simp at honce
    omega
  have hk : Keeps d { d with
      entries := d.entries.updateAll T.entries ({ · with dropped := some .disposed })
      turns := d.turns.update t ({ · with phase := .settled }) } := by
    refine ⟨fun e E hE => ?_, fun l L hL => ⟨L, hL, rfl⟩⟩
    simp only [hget]
    split
    · rw [hE, Option.map_some]
      exact ⟨_, rfl, rfl, rfl⟩
    · exact ⟨E, hE, rfl, rfl⟩
  have hwired := h.wired.phase hT (p := .settled) (by simp [hphase]) (by simp)
  have hnamed := h.named.phase hT (p := .settled) (by simp [hphase])
  refine ⟨⟨⟨hwired.turn, hwired.running, hwired.lease, hwired.openLease⟩,
    ⟨hnamed.state, hnamed.unique, hnamed.lease, hnamed.turn, hnamed.serial, hnamed.disposed⟩,
    ⟨?_, h.filed.nodup, ?_, ?_, ?_⟩, ⟨?_, ?_, ?_, ?_, ?_, ?_⟩⟩, h.idle⟩
  · intro l L e hL he
    obtain ⟨E, hE, hl, hs⟩ := h.filed.entry l L e hL he
    simp only [hget]
    split
    · rw [hE, Option.map_some]
      exact ⟨_, rfl, hl, hs⟩
    · exact ⟨E, hE, hl, hs⟩
  · intro e E hE
    obtain ⟨E₀, hE₀, hl, -⟩ := hold e E hE
    rw [hl]
    exact h.filed.lease e E₀ hE₀
  · intro e E hE hs
    obtain ⟨E₀, hE₀, hl, hs₀, -⟩ := hold e E hE
    rw [hl]
    exact h.filed.open_ e E₀ hE₀ (hs₀ ▸ hs)
  · intro e E hE
    obtain ⟨E₀, hE₀, -, hs, hcomm, hcase⟩ := hold e E hE
    have hcons := h.filed.consistent e E₀ hE₀
    rcases hcase with hmem | rfl
    · have := hheld e hmem
      simp only [isHeld, hE₀, Option.any_some, decide_eq_true_eq] at this
      simp only [Consistent, hs, this.1, hcomm] at hcons ⊢
      exact hcons
    · exact hcons
  · intro e
    have hcount := Heap.count_gather_update (g := waiting) hT ({ · with phase := .settled }) e
    have honce := h.placed.once e
    simp only [located, List.count_append] at honce ⊢
    simp only [waiting, hphase, reduceCtorEq, if_true, if_false, List.count_nil,
      Nat.add_zero] at hcount
    by_cases hmem : e ∈ T.entries
    · have hone := List.count_pos_iff.mpr hmem
      have hgone : isHeld { d with
          entries := d.entries.updateAll T.entries ({ · with dropped := some .disposed })
          turns := d.turns.update t ({ · with phase := .settled }) } e = false := by
        simp only [isHeld, hget, if_pos hmem]
        cases d.entries.get e <;> simp
      rw [hgone]
      rw [hheld e hmem] at honce
      simp only [if_true] at honce
      simp only [Bool.false_eq_true, if_false]
      omega
    · have hzero := List.count_eq_zero_of_not_mem hmem
      have hsame : isHeld { d with
          entries := d.entries.updateAll T.entries ({ · with dropped := some .disposed })
          turns := d.turns.update t ({ · with phase := .settled }) } e = d.isHeld e := by
        simp only [isHeld, hget, if_neg hmem]
      rw [hsame, ← honce]
      omega
  · intro hd'
    simp [hd] at hd'
  · intro t' T' hT'
    obtain ⟨hkeys, hmsg⟩ := h.placed.turn_phase hT'
    exact ⟨fun e he => hk.keyOf_eq (hkeys e he), by rw [hk.messagesOf_eq hkeys, hmsg]⟩
  · intro i hi
    obtain ⟨hkeys, hmsg⟩ := h.placed.invocation i hi
    exact ⟨fun e he => hk.keyOf_eq (hkeys e he), by rw [hk.messagesOf_eq hkeys, hmsg]⟩
  · intro e he
    obtain ⟨k, hke⟩ := h.placed.attached e he
    exact ⟨k, hk.keyOf_eq hke⟩
  · intro k
    have hback : (backlog { d with
        entries := d.entries.updateAll T.entries ({ · with dropped := some .disposed })
        turns := d.turns.update t ({ · with phase := .settled }) } k).Sublist (d.backlog k) := by
      refine backlog_sublist ?_ ?_ k
      · exact fun k s hk => .inl hk
      intro k s hks
      simp only [backlogAt]
      cases hS : d.states.get s with
      | none => exact .refl _
      | some S =>
        refine List.Sublist.append ?_ (.refl _)
        cases hr : S.running with
        | none => exact .refl _
        | some t' =>
          by_cases ht : t' = t
          · subst ht
            simp [Heap.get_update_self hT, waiting]
          · simp only [Option.elim_some, Heap.get_update_of_ne ht]
            exact .refl _
    rw [hk.attachmentsOf_eq h.placed.attached rfl]
    exact (hback.append_left _).trans (h.placed.order k)

theorem Inv.startHandler (h : d.Inv options) (hT : d.turns.get t = some T)
    (hphase : T.phase = .queued) : Inv options (d.startHandler t T) := by
  unfold Dispatcher.startHandler
  split
  · rename_i hd
    rw [markDropped_eq]
    exact h.skip hd hT hphase
  · rename_i hd
    exact h.invoke (by simpa using hd) hT hphase

/-- The promise of a turn is over and its session state no longer runs it. -/
theorem Core.turnDone (h : d.Core options) (hT : d.turns.get t = some T)
    (hphase : T.phase = .settled) :
    Core options { d with
      turns := d.turns.update t ({ · with phase := .done })
      states := d.states.update T.state ({ · with running := none }) } := by
  obtain ⟨S, hS, hrun⟩ := h.wired.turn t T hT (by simp [hphase])
  have hnamed := h.named.phase hT (p := .done) (by simp [hphase])
  -- Another turn that is not over runs in another state.
  have hother : ∀ {t' T'}, (d.turns.update t ({ · with phase := .done })).get t' = some T' →
      T'.phase ≠ .done → t' ≠ t ∧ d.turns.get t' = some T' ∧ T'.state ≠ T.state := by
    intro t' T' hT' hlive
    rcases Heap.get_update_cases hT' with ⟨-, T₀, -, rfl⟩ | ⟨hne, hT'⟩
    · exact absurd rfl hlive
    · refine ⟨hne, hT', fun heq => hne ?_⟩
      obtain ⟨S', hS', hrun'⟩ := h.wired.turn t' T' hT' hlive
      rw [heq] at hS'
      obtain rfl := Option.some.inj (hS.symm.trans hS')
      exact Option.some.inj (hrun'.symm.trans hrun)
  have hput : ∀ s S₀, d.states.get s = some S₀ → ∃ S', (d.states.update T.state
      ({ · with running := none })).get s = some S' ∧ S'.openLeases = S₀.openLeases := by
    intro s S₀ hS₀
    rw [Heap.get_update]
    split
    · rw [hS₀, Option.map_some]
      exact ⟨_, rfl, rfl⟩
    · exact ⟨S₀, hS₀, rfl⟩
  have hget : ∀ s S', (d.states.update T.state ({ · with running := none })).get s = some S' →
      ∃ S₀, d.states.get s = some S₀ ∧ S'.openLeases = S₀.openLeases ∧ S'.pending = S₀.pending := by
    intro s S' hS'
    rcases Heap.get_update_cases hS' with ⟨rfl, S₀, hS₀, rfl⟩ | ⟨-, hS'⟩
    · exact ⟨S₀, hS₀, rfl, rfl⟩
    · exact ⟨S', hS', rfl, rfl⟩
  have hgather : (d.states.update T.state ({ · with running := none })).gather
      SessionState.pending = d.states.gather SessionState.pending := by
    apply Heap.gather_update_same
    intro S'
    rfl
  refine ⟨⟨?_, ?_, ?_, ?_⟩, ⟨?_, h.named.unique, h.named.lease, hnamed.turn, hnamed.serial, ?_⟩,
    ⟨h.filed.entry, h.filed.nodup, h.filed.lease, h.filed.open_, h.filed.consistent⟩,
    ⟨?_, ?_, ?_, h.placed.invocation, h.placed.attached, ?_⟩⟩
  · intro t' T' hT' hlive
    obtain ⟨-, hT₀, hne⟩ := hother hT' hlive
    obtain ⟨S', hS', hrun'⟩ := h.wired.turn t' T' hT₀ hlive
    exact ⟨S', (Heap.get_update_of_ne hne).trans hS', hrun'⟩
  · intro s S' t' hS' hrun'
    rcases Heap.get_update_cases hS' with ⟨-, S₀, -, rfl⟩ | ⟨hne, hS'⟩
    · cases hrun'
    · obtain ⟨T', hT', hlive, hstate⟩ := h.wired.running s S' t' hS' hrun'
      refine ⟨T', (Heap.get_update_of_ne ?_).trans hT', hlive, hstate⟩
      rintro rfl
      obtain rfl := Option.some.inj (hT.symm.trans hT')
      exact hne hstate.symm
  · intro l L hL hopen
    obtain ⟨S₀, hS₀, hmem⟩ := h.wired.lease l L hL hopen
    obtain ⟨S', hS', ho⟩ := hput _ S₀ hS₀
    exact ⟨S', hS', ho ▸ hmem⟩
  · intro s S' l hS' hmem
    obtain ⟨S₀, hS₀, ho, -⟩ := hget s S' hS'
    exact h.wired.openLease s S₀ l hS₀ (ho ▸ hmem)
  · intro k s hk
    obtain ⟨S₀, hS₀⟩ := h.named.state k s hk
    obtain ⟨S', hS', -⟩ := hput s S₀ hS₀
    exact ⟨S', hS'⟩
  · intro hd s S' hS'
    obtain ⟨S₀, hS₀, ho, hp⟩ := hget s S' hS'
    rw [ho, hp]
    exact h.named.disposed hd s S₀ hS₀
  · intro e
    have hcount := Heap.count_gather_update (g := waiting) hT ({ · with phase := .done }) e
    have honce := h.placed.once e
    simp only [located, List.count_append, hgather] at honce ⊢
    simp only [waiting, hphase, reduceCtorEq, if_false, List.count_nil, Nat.add_zero] at hcount
    refine Eq.trans ?_ honce
    omega
  · intro hd s S' e hS' he
    obtain ⟨S₀, hS₀, -, hp⟩ := hget s S' hS'
    exact h.placed.pending hd s S₀ e hS₀ (hp ▸ he)
  · exact fun t' T' hT' => h.placed.turn_phase hT'
  · intro k
    have hback : (backlog { d with
        turns := d.turns.update t ({ · with phase := .done })
        states := d.states.update T.state ({ · with running := none }) } k).Sublist
        (d.backlog k) := by
      refine backlog_sublist ?_ ?_ k
      · exact fun k s hk => .inl hk
      intro k s hks
      obtain ⟨S₀, hS₀⟩ := h.named.state k s hks
      by_cases hs : s = T.state
      · subst hs
        obtain rfl := Option.some.inj (hS.symm.trans hS₀)
        simp [backlogAt, Heap.get_update_self hS, hS]
      · have hsame : backlogAt { d with
            turns := d.turns.update t ({ · with phase := .done })
            states := d.states.update T.state ({ · with running := none }) } s =
            d.backlogAt s := by
          refine backlogAt_congr hS₀ ((Heap.get_update_of_ne hs).trans hS₀) rfl rfl fun t' ht' => ?_
          apply Heap.get_update_of_ne
          rintro rfl
          obtain ⟨T', hT', -, hstate⟩ := h.wired.running s S₀ t' hS₀ ht'
          obtain rfl := Option.some.inj (hT.symm.trans hT')
          exact hs hstate.symm
        exact hsame ▸ .refl _
    exact (hback.append_left _).trans (h.placed.order k)

theorem Inv.afterSettled (h : d.Inv options) (hT : d.turns.get t = some T)
    (hphase : T.phase = .settled) : Inv options (d.afterSettled options t T) := by
  obtain ⟨S, hS, hrun⟩ := h.wired.turn t T hT (by simp [hphase])
  have hcore := h.toCore.turnDone hT hphase
  have hS' : (d.states.update T.state ({ · with running := none })).get T.state =
      some { S with running := none } := Heap.get_update_self hS
  have hidle : ∀ s, s ≠ T.state → Drained { d with
      turns := d.turns.update t ({ · with phase := .done })
      states := d.states.update T.state ({ · with running := none }) } s := by
    intro s hs S₀ hS₀
    exact h.idle s S₀ ((Heap.get_update_of_ne hs).symm.trans hS₀)
  unfold Dispatcher.afterSettled
  dsimp only
  rw [hS]
  dsimp only
  rw [if_neg (by simp [hrun])]
  split
  · -- The queue of a disposed session is empty already.
    rename_i hd
    obtain ⟨hpend, -⟩ := h.named.disposed hd _ S hS
    have hrow := hcore.stateRow hS' ({ · with pending := [] }) rfl hpend.symm rfl
    simp only [hpend, releaseAll, markDropped, List.foldl_nil]
    refine ⟨hrow.maybeForget (.inl hd), fun s S₀ hS₀ hr ho => ?_⟩
    rw [maybeForget_states] at hS₀
    exact (hrow.named.disposed hd s S₀ hS₀).1
  · rename_i hd
    have hd' : d.disposed = false := by simpa [updateState] using hd
    split
    · rename_i hopen
      have hrow := hcore.stateRow hS' ({ · with readyToDrain := true }) rfl rfl rfl
      refine ⟨hrow, fun s S₀ hS₀ hr ho => ?_⟩
      by_cases hs : s = T.state
      · subst hs
        simp only [updateState, Heap.get_update_self hS', Option.some.injEq] at hS₀
        subst hS₀
        simp only at ho
        simp [ho] at hopen
      · simp only [updateState, Heap.get_update_of_ne hs] at hS₀
        exact h.idle s S₀ hS₀ hr ho
    · exact hcore.drain hd' (h.named.turn hd' t T hT (by simp [hphase])) hidle

end Turns

end Dispatcher

end Webchannel.Dispatch
