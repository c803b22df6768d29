import Webchannel.Dispatch.Offers

/-!
# Draining a session and finishing a lease

`finish` attaches what was committed and `drain` turns the queue of an idle session into its
next turn. Between the two the session may have a queue and nobody to drain it; every other
session is as it was.
-/

namespace Webchannel.Dispatch

open Webchannel.Retention

variable {Message : Type}

namespace Dispatcher

variable {d d' : Dispatcher Message}

/-! ### Draining and forgetting a session -/

theorem Core.maybeForget {options : Options Message} (h : d.Core options) {key : String} {s : Nat}
    (hkey : d.disposed = true ∨ d.sessions.get key = some s) :
    Core options (d.maybeForget key s) := by
  unfold Dispatcher.maybeForget
  cases hS : d.states.get s with
  | none => exact h
  | some S =>
    simp only
    split
    · rename_i hempty
      obtain ⟨hrun, hpend, hleases⟩ := hempty
      have hdel : ∀ {k s'}, (d.sessions.delete key).get k = some s' →
          k ≠ key ∧ d.sessions.get k = some s' := by
        intro k s' hk
        rw [OrderedMap.get_delete_eq] at hk
        split at hk
        · cases hk
        · exact ⟨‹_›, hk⟩
      -- Whatever is in use has another key, or else it would be part of this state.
      have hkeep : ∀ {k s'}, d.sessions.get k = some s' → s' ≠ s →
          d.sessions.get key = some s → (d.sessions.delete key).get k = some s' := by
        intro k s' hk hne hkey'
        rw [OrderedMap.get_delete_of_ne]
        · exact hk
        · rintro rfl
          exact hne (Option.some.inj (hk.symm.trans hkey'))
      refine ⟨⟨h.wired.turn, h.wired.running, h.wired.lease, h.wired.openLease⟩,
        ⟨?_, ?_, ?_, ?_, h.named.serial, h.named.disposed⟩,
        ⟨h.filed.entry, h.filed.nodup, h.filed.lease, h.filed.open_, h.filed.consistent⟩, ?_⟩
      · intro k s' hk
        exact h.named.state k s' (hdel hk).2
      · intro k k' s' hk hk'
        exact h.named.unique k k' s' (hdel hk).2 (hdel hk').2
      · intro l L hL hopen
        obtain ⟨S', hS', hmem⟩ := h.wired.lease l L hL hopen
        rcases hkey with hd | hkey
        · simp [(h.named.disposed hd _ S' hS').2] at hmem
        · refine hkeep (h.named.lease l L hL hopen) ?_ hkey
          rintro heq
          rw [heq] at hS'
          obtain rfl := Option.some.inj (hS.symm.trans hS')
          simp [hleases] at hmem
      · intro hd t T hT hphase
        obtain ⟨S', hS', hrun'⟩ := h.wired.turn t T hT hphase
        have hd' : d.disposed = false := hd
        refine hkeep (h.named.turn hd' t T hT hphase) ?_ (hkey.resolve_left (by simp [hd']))
        rintro heq
        rw [heq] at hS'
        obtain rfl := Option.some.inj (hS.symm.trans hS')
        simp [hrun] at hrun'
      · refine h.placed.quiet ⟨fun e E hE => ⟨E, hE, rfl, rfl⟩, fun l L hL => ⟨L, hL, rfl⟩⟩ rfl rfl
          rfl rfl (fun e => rfl) ?_ ?_
        · intro hd s' S' e hS' he
          have hd' : d.disposed = false := hd
          obtain ⟨k, hke, hks⟩ := h.placed.pending hd' s' S' e hS' he
          refine ⟨k, hke, hkeep hks ?_ (hkey.resolve_left (by simp [hd']))⟩
          rintro rfl
          obtain rfl := Option.some.inj (hS.symm.trans hS')
          simp [hpend] at he
        · exact backlog_sublist (fun k s' hk => .inl (hdel hk).2) fun k s' _ => .refl _
    · exact h

theorem maybeForget_states (d : Dispatcher Message) (key : String) (s : Nat) :
    (d.maybeForget key s).states = d.states := by
  unfold Dispatcher.maybeForget
  repeat' split
  all_goals rfl

theorem maybeForget_sessions_of_ne (d : Dispatcher Message) {key k : String} (s : Nat)
    (hne : k ≠ key) : (d.maybeForget key s).sessions.get k = d.sessions.get k := by
  unfold Dispatcher.maybeForget
  split
  · rfl
  · split
    · exact OrderedMap.get_delete_of_ne _ hne
    · rfl

theorem maybeForget_flag (d : Dispatcher Message) (key : String) (s : Nat) :
    (d.maybeForget key s).disposed = d.disposed := by
  unfold Dispatcher.maybeForget
  repeat' split
  all_goals rfl

theorem maybeForget_disposed (d : Dispatcher Message) (key : String) (s : Nat) (b : Bool) :
    maybeForget { d with disposed := b } key s = { d.maybeForget key s with disposed := b } := by
  unfold Dispatcher.maybeForget
  dsimp only
  cases d.states.get s with
  | none => rfl
  | some S =>
    dsimp only
    split <;> rfl

/-- A session state that keeps its turn, its queue and its leases. -/
theorem Core.stateRow {options : Options Message} (h : d.Core options) {s : Nat}
    {S : SessionState} (hS : d.states.get s = some S) (f : SessionState → SessionState)
    (hrun : (f S).running = S.running) (hpend : (f S).pending = S.pending)
    (hopen : (f S).openLeases = S.openLeases) : Core options (d.updateState s f) := by
  have hget : ∀ s' S', (d.states.update s f).get s' = some S' → ∃ S₀, d.states.get s' = some S₀ ∧
      S'.running = S₀.running ∧ S'.pending = S₀.pending ∧ S'.openLeases = S₀.openLeases := by
    intro s' S' hS'
    rcases Heap.get_update_cases hS' with ⟨rfl, S₀, hS₀, rfl⟩ | ⟨-, hS'⟩
    · obtain rfl := Option.some.inj (hS.symm.trans hS₀)
      exact ⟨S, hS, hrun, hpend, hopen⟩
    · exact ⟨S', hS', rfl, rfl, rfl⟩
  have hput : ∀ s' S₀, d.states.get s' = some S₀ → ∃ S', (d.states.update s f).get s' = some S' ∧
      S'.running = S₀.running ∧ S'.pending = S₀.pending ∧ S'.openLeases = S₀.openLeases := by
    intro s' S₀ hS₀
    rw [Heap.get_update]
    split
    · rename_i hs
      subst hs
      obtain rfl := Option.some.inj (hS.symm.trans hS₀)
      rw [hS, Option.map_some]
      exact ⟨f S, rfl, hrun, hpend, hopen⟩
    · exact ⟨S₀, hS₀, rfl, rfl, rfl⟩
  have hgather : (d.states.update s f).gather SessionState.pending =
      d.states.gather SessionState.pending := by
    rw [Heap.update_congr (g := fun S' => { f S' with pending := S'.pending })]
    · apply Heap.gather_update_same
      intro S'
      rfl
    · intro S' hS'
      obtain rfl := Option.some.inj (hS.symm.trans hS')
      rw [← hpend]
  refine ⟨⟨?_, ?_, ?_, ?_⟩, ⟨?_, h.named.unique, h.named.lease, h.named.turn, h.named.serial, ?_⟩,
    ⟨h.filed.entry, h.filed.nodup, h.filed.lease, h.filed.open_, h.filed.consistent⟩, ?_⟩
  · intro t T hT hphase
    obtain ⟨S₀, hS₀, hr⟩ := h.wired.turn t T hT hphase
    obtain ⟨S', hS', hr', -⟩ := hput _ S₀ hS₀
    exact ⟨S', hS', hr'.trans hr⟩
  · intro s' S' t hS' hr
    obtain ⟨S₀, hS₀, hr', -⟩ := hget s' S' hS'
    exact h.wired.running s' S₀ t hS₀ (hr'.symm.trans hr)
  · intro l L hL hfin
    obtain ⟨S₀, hS₀, hmem⟩ := h.wired.lease l L hL hfin
    obtain ⟨S', hS', -, -, ho⟩ := hput _ S₀ hS₀
    exact ⟨S', hS', ho ▸ hmem⟩
  · intro s' S' l hS' hmem
    obtain ⟨S₀, hS₀, -, -, ho⟩ := hget s' S' hS'
    exact h.wired.openLease s' S₀ l hS₀ (ho ▸ hmem)
  · intro k s' hk
    obtain ⟨S₀, hS₀⟩ := h.named.state k s' hk
    obtain ⟨S', hS', -⟩ := hput s' S₀ hS₀
    exact ⟨S', hS'⟩
  · intro hd s' S' hS'
    obtain ⟨S₀, hS₀, -, hp, ho⟩ := hget s' S' hS'
    rw [hp, ho]
    exact h.named.disposed hd s' S₀ hS₀
  · refine h.placed.quiet ⟨fun e E hE => ⟨E, hE, rfl, rfl⟩, fun l L hL => ⟨L, hL, rfl⟩⟩ rfl rfl rfl
      hgather (fun e => rfl) ?_ (backlog_sublist (fun k s' hk => .inl hk) ?_)
    · intro hd s' S' e hS' he
      obtain ⟨S₀, hS₀, -, hp, -⟩ := hget s' S' hS'
      exact h.placed.pending hd s' S₀ e hS₀ (hp ▸ he)
    · intro k s' hk
      obtain ⟨S₀, hS₀⟩ := h.named.state k s' hk
      obtain ⟨S', hS', hr, hp, -⟩ := hput s' S₀ hS₀
      have hsame : (d.updateState s f).backlogAt s' = d.backlogAt s' :=
        backlogAt_congr hS₀ hS' hr hp fun t _ => rfl
      exact hsame ▸ .refl _

theorem startTurn_eq (d : Dispatcher Message) (options : Options Message) (key : String) (s : Nat)
    {es : List Nat} (hd : d.disposed = false) (hes : es ≠ []) :
    ∃ ledger, d.startTurn options key s es =
      { d with
        states := d.states.update s ({ · with running := some d.turns.next })
        turns := d.turns.alloc
          { key, state := s, entries := es, message := options.coalesce (d.messagesOf es)
            phase := .queued }
        ledger } := by
  obtain ⟨ledger, h⟩ := d.releaseAll_eq es
  refine ⟨ledger, ?_⟩
  unfold Dispatcher.startTurn
  rw [if_neg (by simp [hd, hes])]
  simp only [h, updateState]

/-- What `startTurn` does with a queue that `drain` has taken. -/
theorem Core.startTurn {options : Options Message} (h : d.Core options) (hd : d.disposed = false)
    {key : String} {s : Nat} {S : SessionState} (hkey : d.sessions.get key = some s)
    (hS : d.states.get s = some S) (hrun : S.running = none) :
    Core options { d with
      states := d.states.update s fun S =>
        { S with readyToDrain := false, pending := [], running := some d.turns.next }
      turns := d.turns.alloc
        { key, state := s, entries := S.pending
          message := options.coalesce (d.messagesOf S.pending), phase := .queued } } := by
  have hother : ∀ {s'}, s' ≠ s → (d.states.update s fun S =>
      { S with readyToDrain := false, pending := [], running := some d.turns.next }).get s' =
      d.states.get s' := fun hne => Heap.get_update_of_ne hne
  have hself : (d.states.update s fun S =>
      { S with readyToDrain := false, pending := [], running := some d.turns.next }).get s =
      some { S with readyToDrain := false, pending := [], running := some d.turns.next } :=
    Heap.get_update_self hS
  -- No turn that is still going belongs to this state.
  have hfree : ∀ t T, d.turns.get t = some T → T.phase ≠ .done → T.state ≠ s := by
    rintro t T hT hphase rfl
    obtain ⟨S', hS', hrun'⟩ := h.wired.turn t T hT hphase
    obtain rfl := Option.some.inj (hS.symm.trans hS')
    simp [hrun] at hrun'
  have hkeys : ∀ e ∈ S.pending, d.keyOf e = some key := by
    intro e he
    obtain ⟨k, hke, hks⟩ := h.placed.pending hd s S e hS he
    rw [hke, h.named.unique k key s hks hkey]
  refine ⟨⟨?_, ?_, ?_, ?_⟩, ⟨?_, h.named.unique, h.named.lease, ?_, ?_, ?_⟩,
    ⟨h.filed.entry, h.filed.nodup, h.filed.lease, h.filed.open_, h.filed.consistent⟩,
    ⟨?_, ?_, ?_, h.placed.invocation, h.placed.attached, ?_⟩⟩
  · intro t T hT hphase
    rcases Heap.get_alloc_cases hT with ⟨rfl, rfl⟩ | hT
    · exact ⟨_, hself, rfl⟩
    · obtain ⟨S', hS', hrun'⟩ := h.wired.turn t T hT hphase
      exact ⟨S', (hother (hfree t T hT hphase)).trans hS', hrun'⟩
  · intro s' S' t hS' hrun'
    rcases Heap.get_update_cases hS' with ⟨rfl, S₀, -, rfl⟩ | ⟨-, hS'⟩
    · obtain rfl := Option.some.inj hrun'
      exact ⟨_, Heap.get_alloc_next _ _, by simp, rfl⟩
    · obtain ⟨T, hT, hrest⟩ := h.wired.running s' S' t hS' hrun'
      exact ⟨T, Heap.get_alloc_of_some hT, hrest⟩
  · intro l L hL hopen
    obtain ⟨S', hS', hmem⟩ := h.wired.lease l L hL hopen
    by_cases hs : L.state = s
    · rw [hs] at hS' ⊢
      obtain rfl := Option.some.inj (hS.symm.trans hS')
      exact ⟨_, hself, hmem⟩
    · exact ⟨S', (hother hs).trans hS', hmem⟩
  · intro s' S' l hS' hmem
    rcases Heap.get_update_cases hS' with ⟨rfl, S₀, hS₀, rfl⟩ | ⟨-, hS'⟩
    · exact h.wired.openLease s' S₀ l hS₀ hmem
    · exact h.wired.openLease s' S' l hS' hmem
  · intro k s' hk
    by_cases hs : s' = s
    · rw [hs]
      exact ⟨_, hself⟩
    · obtain ⟨S', hS'⟩ := h.named.state k s' hk
      exact ⟨S', (hother hs).trans hS'⟩
  · intro _ t T hT hphase
    rcases Heap.get_alloc_cases hT with ⟨-, rfl⟩ | hT
    · exact hkey
    · exact h.named.turn hd t T hT hphase
  · intro t t' T T' hT hT' hk hphase hphase'
    rcases Heap.get_alloc_cases hT with ⟨rfl, rfl⟩ | hT <;>
      rcases Heap.get_alloc_cases hT' with ⟨rfl, rfl⟩ | hT'
    · rfl
    · have := h.named.turn hd t' T' hT' hphase'
      rw [← hk, hkey] at this
      exact absurd (Option.some.inj this).symm (hfree t' T' hT' hphase')
    · have := h.named.turn hd t T hT hphase
      rw [hk, hkey] at this
      exact absurd (Option.some.inj this).symm (hfree t T hT hphase)
    · exact h.named.serial t t' T T' hT hT' hk hphase hphase'
  · simp [hd]
  · intro e
    have hcount := Heap.count_gather_update (g := SessionState.pending) hS
      (fun S => { S with readyToDrain := false, pending := [], running := some d.turns.next }) e
    have honce := h.placed.once e
    simp only [located, List.count_append, Heap.gather_alloc] at honce ⊢
    simp only [List.count_nil, Nat.add_zero] at hcount
    refine Eq.trans ?_ honce
    simp only [waiting, if_true]
    omega
  · intro _ s' S' e hS' he
    rcases Heap.get_update_cases hS' with ⟨rfl, S₀, hS₀, rfl⟩ | ⟨-, hS'⟩
    · simp at he
    · exact h.placed.pending hd s' S' e hS' he
  · intro t T hT
    rcases Heap.get_alloc_cases hT with ⟨-, rfl⟩ | hT
    · exact ⟨hkeys, rfl⟩
    · exact h.placed.turn t T hT
  · intro k
    have hback : backlog { d with
        states := d.states.update s fun S =>
          { S with readyToDrain := false, pending := [], running := some d.turns.next }
        turns := d.turns.alloc
          { key, state := s, entries := S.pending
            message := options.coalesce (d.messagesOf S.pending), phase := .queued } } k =
        d.backlog k := by
      simp only [backlog]
      cases hks : d.sessions.get k with
      | none => rfl
      | some s' =>
        by_cases hs : s' = s
        · subst hs
          simp [backlogAt, hself, hS, hrun, waiting]
        · obtain ⟨S', hS'⟩ := h.named.state k s' hks
          refine backlogAt_congr hS' ((hother hs).trans hS') rfl rfl fun t ht => ?_
          obtain ⟨T, hT, -⟩ := h.wired.running s' S' t hS' ht
          exact (Heap.get_alloc_of_some hT).trans hT.symm
    rw [hback]
    exact h.placed.order k

/-- Draining settles the one state whose queue may be waiting for it. -/
theorem Core.drain {options : Options Message} (h : d.Core options) (hd : d.disposed = false)
    {key : String} {s : Nat} (hkey : d.sessions.get key = some s)
    (hidle : ∀ s', s' ≠ s → d.Drained s') : Inv options (d.drain options key s) := by
  unfold Dispatcher.drain
  cases hS : d.states.get s with
  | none =>
    obtain ⟨S, hS'⟩ := h.named.state key s hkey
    simp [hS] at hS'
  | some S =>
    simp only
    split
    · rename_i hbusy
      refine ⟨h, fun s' => ?_⟩
      by_cases hs : s' = s
      · subst hs
        intro S' hS' hrun hopen
        obtain rfl := Option.some.inj (hS.symm.trans hS')
        simp [hrun, hopen] at hbusy
      · exact hidle s' hs
    · rename_i hfree
      have hrun : S.running = none := by
        cases hr : S.running <;> simp [hr] at hfree ⊢
      have hdrained : ∀ {d' : Dispatcher Message} (f : SessionState → SessionState),
          d'.states = d.states.update s f → (f S).pending = [] → ∀ s', d'.Drained s' := by
        intro d' f hstates hpend s' S' hS' hr ho
        rw [hstates] at hS'
        rcases Heap.get_update_cases hS' with ⟨rfl, S₀, hS₀, rfl⟩ | ⟨hne, hS'⟩
        · obtain rfl := Option.some.inj (hS.symm.trans hS₀)
          exact hpend
        · exact hidle s' hne S' hS' hr ho
      split
      · rename_i hempty
        rw [List.isEmpty_iff] at hempty
        refine ⟨Core.maybeForget ?_ (.inr hkey), hdrained _ (maybeForget_states _ _ _) rfl⟩
        exact h.stateRow hS _ rfl hempty.symm rfl
      · rename_i hsome
        obtain ⟨ledger, heq⟩ := startTurn_eq
          (d.updateState s ({ · with readyToDrain := false, pending := [] })) options key s hd
          (by simpa using hsome)
        rw [heq]
        have hstart := (h.startTurn hd hkey hS hrun).books ledger d.suppliedToken d.tokens
          d.nextToken
        simp only [updateState, Heap.update_update]
        exact ⟨hstart, hdrained _ rfl rfl⟩

/-! ### Finishing a lease -/

/-- The dispatcher after the loop of `finish`, before it looks whether to drain. -/
def closedBatch (d : Dispatcher Message) (l : Nat) (L : InternalLease) (ledger : Ledger) :
    Dispatcher Message :=
  { d with
    states := d.states.update L.state fun S =>
      { S with
        openLeases := S.openLeases.filter (· ≠ l)
        pending := S.pending ++ L.entries.filter d.isCommitted }
    leases := d.leases.update l ({ · with finished := true, entries := [] })
    entries := d.entries.updateAll L.entries closed
    attachments := d.attachments ++ L.entries.filter d.isCommitted
    ledger }

theorem closed_lease (E : LeaseEntry Message) :
    (closed E).lease = E.lease ∧ (closed E).message = E.message := by
  unfold closed
  cases E.state <;> exact ⟨rfl, rfl⟩

theorem closed_state (E : LeaseEntry Message) :
    (closed E).state = .rolledBack ∨ (closed E).state = .attached := by
  unfold closed
  cases h : E.state <;> simp [h]

theorem Consistent.closed {E : LeaseEntry Message} (h : Consistent E) :
    Consistent (closed E) := by
  unfold Dispatcher.closed
  cases hs : E.state <;> simp_all [Consistent]

section FinishLease

variable {options : Options Message} {l : Nat} {L : InternalLease}

theorem get_closedBatch_entries (ledger : Ledger) (e : Nat) :
    (d.closedBatch l L ledger).entries.get e =
      if e ∈ L.entries then (d.entries.get e).map closed else d.entries.get e :=
  Heap.get_updateAll closed_closed _ _ _

theorem closedBatch_keeps (ledger : Ledger) : Keeps d (d.closedBatch l L ledger) where
  entry := by
    intro e E hE
    rw [get_closedBatch_entries]
    split
    · exact ⟨closed E, by rw [hE, Option.map_some], closed_lease E⟩
    · exact ⟨E, hE, rfl, rfl⟩
  lease := by
    intro l' L' hL'
    simp only [closedBatch, Heap.get_update]
    split
    · rw [hL', Option.map_some]
      exact ⟨_, rfl, rfl⟩
    · exact ⟨L', hL', rfl⟩

theorem closedBatch_filed (h : d.Inv options) (hL : d.leases.get l = some L) (ledger : Ledger) :
    Filed (d.closedBatch l L ledger) := by
  have hlease : ∀ l' L', (d.closedBatch l L ledger).leases.get l' = some L' →
      L'.entries = [] ∨ (l' ≠ l ∧ d.leases.get l' = some L') := by
    intro l' L' hL'
    rcases Heap.get_update_cases hL' with ⟨-, L₀, -, rfl⟩ | hother
    · exact .inl rfl
    · exact .inr hother
  constructor
  · intro l' L' e hL' he
    rcases hlease l' L' hL' with hnil | ⟨hne, hL'⟩
    · simp [hnil] at he
    · obtain ⟨E, hE, hl, hs⟩ := h.filed.entry l' L' e hL' he
      refine ⟨E, ?_, hl, hs⟩
      rw [get_closedBatch_entries, if_neg, hE]
      intro hmem
      obtain ⟨E', hE', hl', -⟩ := h.filed.entry l L e hL hmem
      obtain rfl := Option.some.inj (hE.symm.trans hE')
      exact hne (hl.symm.trans hl')
  · intro l' L' hL'
    rcases hlease l' L' hL' with hnil | ⟨-, hL'⟩
    · simp [hnil]
    · exact h.filed.nodup l' L' hL'
  · intro e E hE
    rw [get_closedBatch_entries] at hE
    have hold : ∃ E₀, d.entries.get e = some E₀ ∧ E.lease = E₀.lease := by
      split at hE
      · obtain ⟨E₀, hE₀, rfl⟩ := Option.map_eq_some_iff.mp hE
        exact ⟨E₀, hE₀, (closed_lease E₀).1⟩
      · exact ⟨E, hE, rfl⟩
    obtain ⟨E₀, hE₀, heq⟩ := hold
    obtain ⟨L₀, hL₀⟩ := h.filed.lease e E₀ hE₀
    obtain ⟨L', hL', -⟩ := (closedBatch_keeps (l := l) (L := L) ledger).lease _ L₀ hL₀
    exact ⟨L', by rw [heq, hL']⟩
  · intro e E hE hs
    rw [get_closedBatch_entries] at hE
    split at hE
    · obtain ⟨E₀, -, rfl⟩ := Option.map_eq_some_iff.mp hE
      rcases closed_state E₀ with hc | hc <;> simp [hc] at hs
    · rename_i hmem
      obtain ⟨L₀, hL₀, hopen, he⟩ := h.filed.open_ e E hE hs
      have hne : E.lease ≠ l := by
        intro heq
        rw [heq] at hL₀
        obtain rfl := Option.some.inj (hL.symm.trans hL₀)
        exact hmem he
      exact ⟨L₀, (Heap.get_update_of_ne hne).trans hL₀, hopen, he⟩
  · intro e E hE
    rw [get_closedBatch_entries] at hE
    split at hE
    · obtain ⟨E₀, hE₀, rfl⟩ := Option.map_eq_some_iff.mp hE
      exact (h.filed.consistent e E₀ hE₀).closed
    · exact h.filed.consistent e E hE

/-- The entries that `finish` attaches are those that become held. -/
theorem count_committed (h : d.Inv options) (hL : d.leases.get l = some L) (ledger : Ledger)
    (e : Nat) :
    (if d.isHeld e then 1 else 0) + (L.entries.filter d.isCommitted).count e =
      if (d.closedBatch l L ledger).isHeld e then 1 else 0 := by
  by_cases hmem : e ∈ L.entries
  · obtain ⟨E, hE, -, hs⟩ := h.filed.entry l L e hL hmem
    have hcons := h.filed.consistent e E hE
    have hcount : (L.entries.filter d.isCommitted).count e = if d.isCommitted e then 1 else 0 := by
      split
      · rename_i hc
        rw [List.count_filter hc]
        exact List.count_eq_one_of_mem (h.filed.nodup l L hL) hmem
      · rename_i hc
        exact List.count_eq_zero_of_not_mem fun hmem' => hc (List.mem_filter.mp hmem').2
    have hbefore : d.isHeld e = false := by simp [isHeld, hE, hs]
    have hafter : (d.closedBatch l L ledger).isHeld e = d.isCommitted e := by
      simp only [isHeld, isCommitted, get_closedBatch_entries, if_pos hmem, hE, Option.any_some,
        Option.map_some, closed]
      cases hstate : E.state <;> simp_all [Consistent]
    rw [hcount, hbefore, hafter]
    simp
  · have hcount : (L.entries.filter d.isCommitted).count e = 0 :=
      List.count_eq_zero_of_not_mem fun hmem' => hmem (List.mem_filter.mp hmem').1
    have hsame : (d.closedBatch l L ledger).isHeld e = d.isHeld e := by
      simp only [isHeld, get_closedBatch_entries, if_neg hmem]
    rw [hcount, hsame, Nat.add_zero]

theorem closedBatch_placed (h : d.Inv options) (hL : d.leases.get l = some L)
    (hopen : L.finished = false) (ledger : Ledger) : Placed options (d.closedBatch l L ledger) := by
  have hk := closedBatch_keeps (d := d) (l := l) (L := L) ledger
  have hd := h.not_disposed_of_lease hL hopen
  have hkey := h.named.lease l L hL hopen
  obtain ⟨S, hS, -⟩ := h.wired.lease l L hL hopen
  have hcomm : ∀ e ∈ L.entries.filter d.isCommitted, d.keyOf e = some L.key := by
    intro e he
    obtain ⟨E, hE, hl, -⟩ := h.filed.entry l L e hL (List.mem_filter.mp he).1
    exact keyOf_eq_some.mpr ⟨E, L, hE, by rw [hl, hL], rfl⟩
  constructor
  · intro e
    have hcount := Heap.count_gather_update (g := SessionState.pending) hS
      (fun S => { S with
        openLeases := S.openLeases.filter (· ≠ l)
        pending := S.pending ++ L.entries.filter d.isCommitted }) e
    have honce := h.placed.once e
    have hheld := count_committed h hL ledger e
    simp only [located, List.count_append] at honce hcount ⊢
    rw [← hheld, ← honce]
    simp only [closedBatch]
    omega
  · intro _ s S' e hS' he
    rcases Heap.get_update_cases hS' with ⟨rfl, S₀, hS₀, rfl⟩ | ⟨-, hS'⟩
    · rcases List.mem_append.mp he with he | he
      · obtain ⟨k, hke, hks⟩ := h.placed.pending hd _ S₀ e hS₀ he
        exact ⟨k, hk.keyOf_eq hke, hks⟩
      · exact ⟨L.key, hk.keyOf_eq (hcomm e he), hkey⟩
    · obtain ⟨k, hke, hks⟩ := h.placed.pending hd s S' e hS' he
      exact ⟨k, hk.keyOf_eq hke, hks⟩
  · intro t T hT
    obtain ⟨hkeys, hmsg⟩ := h.placed.turn t T hT
    exact ⟨fun e he => hk.keyOf_eq (hkeys e he), by rw [hk.messagesOf_eq hkeys, hmsg]⟩
  · intro i hi
    obtain ⟨hkeys, hmsg⟩ := h.placed.invocation i hi
    exact ⟨fun e he => hk.keyOf_eq (hkeys e he), by rw [hk.messagesOf_eq hkeys, hmsg]⟩
  · intro e he
    rcases List.mem_append.mp he with he | he
    · obtain ⟨k, hke⟩ := h.placed.attached e he
      exact ⟨k, hk.keyOf_eq hke⟩
    · exact ⟨L.key, hk.keyOf_eq (hcomm e he)⟩
  · intro k
    -- Both the log and the backlog of the lease's session grow by the attached entries.
    have hlog : (d.closedBatch l L ledger).attachmentsOf k =
        d.attachmentsOf k ++ if k = L.key then L.entries.filter d.isCommitted else [] := by
      have hold : d.attachments.filter (fun e => (d.closedBatch l L ledger).keyOf e = some k) =
          d.attachmentsOf k := by
        apply List.filter_congr
        intro e he
        obtain ⟨k', hk'⟩ := h.placed.attached e he
        rw [hk', hk.keyOf_eq hk']
      have hnew : (L.entries.filter d.isCommitted).filter
          (fun e => (d.closedBatch l L ledger).keyOf e = some k) =
          if k = L.key then L.entries.filter d.isCommitted else [] := by
        split
        · rename_i hkk
          subst hkk
          rw [List.filter_eq_self]
          intro e he
          simp [hk.keyOf_eq (hcomm e he)]
        · rename_i hkk
          rw [List.filter_eq_nil_iff]
          intro e he
          simp [hk.keyOf_eq (hcomm e he), Ne.symm hkk]
      simp only [attachmentsOf] at hold ⊢
      rw [closedBatch, List.filter_append]
      exact congrArg₂ _ hold hnew
    have hback : (d.closedBatch l L ledger).backlog k =
        d.backlog k ++ if k = L.key then L.entries.filter d.isCommitted else [] := by
      have hsessions : (d.closedBatch l L ledger).sessions = d.sessions := rfl
      unfold backlog
      rw [hsessions]
      cases hks : d.sessions.get k with
      | none =>
        rw [if_neg]
        · rfl
        · rintro rfl
          simp [hkey] at hks
      | some s =>
        simp only
        by_cases hs : s = L.state
        · subst hs
          have hself : (d.closedBatch l L ledger).states.get L.state = some { S with
              openLeases := S.openLeases.filter (· ≠ l)
              pending := S.pending ++ L.entries.filter d.isCommitted } := Heap.get_update_self hS
          rw [if_pos (h.named.unique k L.key _ hks hkey)]
          simp only [backlogAt, hself, hS, List.append_assoc]
          rfl
        · rw [if_neg, List.append_nil]
          · obtain ⟨S', hS'⟩ := h.named.state k s hks
            exact backlogAt_congr hS' ((Heap.get_update_of_ne hs).trans hS') rfl rfl fun t _ => rfl
          · rintro rfl
            exact hs (Option.some.inj (hks.symm.trans hkey))
    rw [hlog, hback, ← List.append_assoc]
    exact (h.placed.order k).append_right _

theorem closedBatch_core (h : d.Inv options) (hL : d.leases.get l = some L)
    (hopen : L.finished = false) (ledger : Ledger) : Core options (d.closedBatch l L ledger) := by
  have hd := h.not_disposed_of_lease hL hopen
  have hput : ∀ s S, d.states.get s = some S → ∃ S', (d.closedBatch l L ledger).states.get s =
      some S' ∧ S'.running = S.running ∧ ∀ l' ∈ S.openLeases, l' ≠ l → l' ∈ S'.openLeases := by
    intro s S hS
    simp only [closedBatch, Heap.get_update]
    split
    · rw [hS, Option.map_some]
      refine ⟨_, rfl, rfl, fun l' hmem hne => ?_⟩
      simp [hmem, hne]
    · exact ⟨S, hS, rfl, fun l' hmem _ => hmem⟩
  have hget : ∀ s S', (d.closedBatch l L ledger).states.get s = some S' →
      ∃ S, d.states.get s = some S ∧ S'.running = S.running ∧
        ∀ l' ∈ S'.openLeases, l' ∈ S.openLeases ∧ (s = L.state → l' ≠ l) := by
    intro s S' hS'
    rcases Heap.get_update_cases hS' with ⟨rfl, S, hS, rfl⟩ | ⟨hne, hS⟩
    · refine ⟨S, hS, rfl, fun l' hmem => ?_⟩
      simp only [List.mem_filter, decide_eq_true_eq] at hmem
      exact ⟨hmem.1, fun _ => hmem.2⟩
    · exact ⟨S', hS, rfl, fun l' hmem => ⟨hmem, fun hs => absurd hs hne⟩⟩
  have hlease : ∀ l' L', (d.closedBatch l L ledger).leases.get l' = some L' →
      L'.finished = false → l' ≠ l ∧ d.leases.get l' = some L' := by
    intro l' L' hL' hfin
    rcases Heap.get_update_cases hL' with ⟨-, L₀, -, rfl⟩ | hother
    · cases hfin
    · exact hother
  refine ⟨⟨?_, ?_, ?_, ?_⟩, ⟨?_, h.named.unique, ?_, h.named.turn, h.named.serial, ?_⟩,
    closedBatch_filed h hL ledger, closedBatch_placed h hL hopen ledger⟩
  · intro t T hT hphase
    obtain ⟨S, hS, hrun⟩ := h.wired.turn t T hT hphase
    obtain ⟨S', hS', hrun', -⟩ := hput _ S hS
    exact ⟨S', hS', hrun'.trans hrun⟩
  · intro s S' t hS' hrun
    obtain ⟨S, hS, hrun', -⟩ := hget s S' hS'
    exact h.wired.running s S t hS (hrun'.symm.trans hrun)
  · intro l' L' hL' hfin
    obtain ⟨hne, hL₀⟩ := hlease l' L' hL' hfin
    obtain ⟨S, hS, hmem⟩ := h.wired.lease l' L' hL₀ hfin
    obtain ⟨S', hS', -, hsub⟩ := hput _ S hS
    exact ⟨S', hS', hsub l' hmem hne⟩
  · intro s S' l' hS' hmem
    obtain ⟨S, hS, -, hsub⟩ := hget s S' hS'
    obtain ⟨hmem₀, hne⟩ := hsub l' hmem
    obtain ⟨L', hL', hfin, hs⟩ := h.wired.openLease s S l' hS hmem₀
    refine ⟨L', (Heap.get_update_of_ne ?_).trans hL', hfin, hs⟩
    rintro rfl
    obtain rfl := Option.some.inj (hL.symm.trans hL')
    exact hne hs.symm rfl
  · intro k s hk
    obtain ⟨S, hS⟩ := h.named.state k s hk
    obtain ⟨S', hS', -⟩ := hput s S hS
    exact ⟨S', hS'⟩
  · intro l' L' hL' hfin
    exact h.named.lease l' L' (hlease l' L' hL' hfin).2 hfin
  · intro hd'
    simp [closedBatch, hd] at hd'

/-- The writes around the loop of `finish` and the loop itself are `closedBatch`. -/
theorem finish_eq (d : Dispatcher Message) (options : Options Message)
    (hopen : L.finished = false) (hnodup : L.entries.Nodup) :
    ∃ ledger, d.finish options l L =
      match (d.closedBatch l L ledger).states.get L.state with
      | none => d.closedBatch l L ledger
      | some S =>
        if S.running.isNone && S.openLeases.isEmpty then
          (d.closedBatch l L ledger).drain options L.key L.state
        else if S.readyToDrain && S.openLeases.isEmpty then
          (d.closedBatch l L ledger).drain options L.key L.state
        else d.closedBatch l L ledger := by
  obtain ⟨ledger, hloop⟩ := finishEntries_eq
    { d.updateState L.state fun S => { S with openLeases := S.openLeases.filter (· ≠ l) } with
      leases := d.leases.update l ({ · with finished := true }) } L.state hnodup
  refine ⟨ledger, ?_⟩
  unfold Dispatcher.finish
  rw [if_neg (by simp [hopen])]
  simp only [updateState] at hloop ⊢
  rw [hloop]
  simp only [Heap.update_update]
  rfl

theorem Inv.finish (h : d.Inv options) (hL : d.leases.get l = some L) :
    Inv options (d.finish options l L) := by
  by_cases hfin : L.finished = true
  · rw [Dispatcher.finish, if_pos hfin]
    exact h
  · have hopen : L.finished = false := by simpa using hfin
    obtain ⟨ledger, heq⟩ := d.finish_eq (l := l) options hopen (h.filed.nodup l L hL)
    rw [heq]
    have hcore := closedBatch_core h hL hopen ledger
    have hd : (d.closedBatch l L ledger).disposed = false := h.not_disposed_of_lease hL hopen
    have hkey : (d.closedBatch l L ledger).sessions.get L.key = some L.state :=
      h.named.lease l L hL hopen
    have hidle : ∀ s, s ≠ L.state → (d.closedBatch l L ledger).Drained s := by
      intro s hs S hS
      exact h.idle s S (by rwa [closedBatch, Heap.get_update_of_ne hs] at hS)
    have hdrain := hcore.drain hd hkey hidle
    cases hS : (d.closedBatch l L ledger).states.get L.state with
    | none =>
      obtain ⟨S, hS'⟩ := hcore.named.state _ _ hkey
      simp [hS] at hS'
    | some S =>
      simp only
      split
      · exact hdrain
      · split
        · exact hdrain
        · rename_i hbusy _
          refine ⟨hcore, fun s => ?_⟩
          by_cases hs : s = L.state
          · subst hs
            intro S' hS' hrun hleases
            obtain rfl := Option.some.inj (hS.symm.trans hS')
            simp [hrun, hleases] at hbusy
          · exact hidle s hs

end FinishLease

end Dispatcher

end Webchannel.Dispatch
