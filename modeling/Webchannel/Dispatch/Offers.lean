import Webchannel.Dispatch.Invariant

/-!
# Batches before they finish

Opening a lease, offering to it, committing and rolling back change no queue and no turn.
-/

namespace Webchannel.Dispatch

open Webchannel.Retention

variable {Message : Type}

namespace Dispatcher

variable {d d' : Dispatcher Message}

/-- Entries and leases stay what they are: their message, their lease, their key. -/
structure Keeps (d d' : Dispatcher Message) : Prop where
  entry : ∀ e E, d.entries.get e = some E →
    ∃ E', d'.entries.get e = some E' ∧ E'.lease = E.lease ∧ E'.message = E.message
  lease : ∀ l L, d.leases.get l = some L → ∃ L', d'.leases.get l = some L' ∧ L'.key = L.key

theorem keyOf_eq_some {e : Nat} {k : String} : d.keyOf e = some k ↔
    ∃ E L, d.entries.get e = some E ∧ d.leases.get E.lease = some L ∧ L.key = k := by
  simp only [keyOf, Option.bind_eq_some_iff, Option.map_eq_some_iff]
  constructor
  · rintro ⟨E, hE, L, hL, hk⟩
    exact ⟨E, L, hE, hL, hk⟩
  · rintro ⟨E, L, hE, hL, hk⟩
    exact ⟨E, hE, L, hL, hk⟩

theorem Keeps.keyOf_eq (h : Keeps d d') {e : Nat} {k : String} (hk : d.keyOf e = some k) :
    d'.keyOf e = some k := by
  obtain ⟨E, L, hE, hL, rfl⟩ := keyOf_eq_some.mp hk
  obtain ⟨E', hE', hlease, -⟩ := h.entry e E hE
  obtain ⟨L', hL', hkey⟩ := h.lease _ L hL
  exact keyOf_eq_some.mpr ⟨E', L', hE', by rw [hlease, hL'], hkey⟩

theorem Keeps.messagesOf_eq (h : Keeps d d') {es : List Nat} {k : String}
    (hes : ∀ e ∈ es, d.keyOf e = some k) : d'.messagesOf es = d.messagesOf es := by
  apply List.filterMap_congr
  intro e he
  obtain ⟨E, -, hE, -⟩ := keyOf_eq_some.mp (hes e he)
  obtain ⟨E', hE', -, hmsg⟩ := h.entry e E hE
  simp [hE, hE', hmsg]

theorem Keeps.attachmentsOf_eq (h : Keeps d d') (hsome : ∀ e ∈ d.attachments, ∃ k, d.keyOf e = some k)
    (hatt : d'.attachments = d.attachments) (k : String) :
    d'.attachmentsOf k = d.attachmentsOf k := by
  simp only [attachmentsOf, hatt]
  apply List.filter_congr
  intro e he
  obtain ⟨k', hk'⟩ := hsome e he
  rw [hk', h.keyOf_eq hk']

/-- A step that moves nothing keeps every entry in its place. -/
theorem Placed.quiet {options : Options Message} (h : d.Placed options) (hk : Keeps d d')
    (hinv : d'.invocations = d.invocations) (hatt : d'.attachments = d.attachments)
    (hturns : d'.turns = d.turns)
    (hpend : d'.states.gather SessionState.pending = d.states.gather SessionState.pending)
    (hheld : ∀ e, d'.isHeld e = d.isHeld e)
    (hpending : d'.disposed = false → ∀ s S e, d'.states.get s = some S → e ∈ S.pending →
      ∃ k, d'.keyOf e = some k ∧ d'.sessions.get k = some s)
    (hback : ∀ k, (d'.backlog k).Sublist (d.backlog k)) : d'.Placed options where
  once := by
    intro e
    rw [hheld, ← h.once e]
    simp only [located, hinv, hturns, hpend]
  pending := hpending
  turn := by
    intro t T hT
    rw [hturns] at hT
    obtain ⟨hkeys, hmsg⟩ := h.turn t T hT
    exact ⟨fun e he => hk.keyOf_eq (hkeys e he), by rw [hk.messagesOf_eq hkeys, hmsg]⟩
  invocation := by
    intro i hi
    rw [hinv] at hi
    obtain ⟨hkeys, hmsg⟩ := h.invocation i hi
    exact ⟨fun e he => hk.keyOf_eq (hkeys e he), by rw [hk.messagesOf_eq hkeys, hmsg]⟩
  attached := by
    intro e he
    rw [hatt] at he
    obtain ⟨k, hk'⟩ := h.attached e he
    exact ⟨k, hk.keyOf_eq hk'⟩
  order := by
    intro k
    rw [hk.attachmentsOf_eq h.attached hatt, handled, hinv]
    exact ((hback k).append_left _).trans (h.order k)

/-- Only the entries change, each within its life before attachment. -/
theorem Inv.entries {options : Options Message} (h : d.Inv options)
    {entries : Heap (LeaseEntry Message)}
    (hkeep : ∀ e E, d.entries.get e = some E →
      ∃ E', entries.get e = some E' ∧ E'.lease = E.lease ∧ E'.message = E.message)
    (hheld : ∀ e, isHeld { d with entries } e = d.isHeld e)
    (hfiled : Filed { d with entries }) : Inv options { d with entries } where
  idle := h.idle
  wired := ⟨h.wired.turn, h.wired.running, h.wired.lease, h.wired.openLease⟩
  named := ⟨h.named.state, h.named.unique, h.named.lease, h.named.turn, h.named.serial,
    h.named.disposed⟩
  filed := hfiled
  placed := by
    have hk : Keeps d { d with entries } := ⟨hkeep, fun l L hL => ⟨L, hL, rfl⟩⟩
    refine h.placed.quiet hk rfl rfl rfl rfl hheld ?_ fun k => .refl _
    intro hd s S e hS he
    obtain ⟨k, hke, hks⟩ := h.placed.pending hd s S e hS he
    exact ⟨k, hk.keyOf_eq hke, hks⟩

/-- One entry of an open lease changes its state, but is not attached. -/
theorem Inv.updateEntry {options : Options Message} (h : d.Inv options) {e : Nat}
    {E : LeaseEntry Message} (hE : d.entries.get e = some E) (hstate : E.state ≠ .attached)
    (f : LeaseEntry Message → LeaseEntry Message) (hlease : (f E).lease = E.lease)
    (hmsg : (f E).message = E.message) (hcons : Consistent (f E))
    (hf : (f E).state = .rolledBack ∨
      ((f E).state = .committed ∧ (E.state = .provisional ∨ E.state = .committed))) :
    Inv options (d.updateEntry e f) := by
  have hnot : (f E).state ≠ .attached := by
    rcases hf with hf | ⟨hf, -⟩ <;> simp [hf]
  have hget : ∀ e', (d.entries.update e f).get e' = if e' = e then some (f E) else d.entries.get e' := by
    intro e'
    rw [Heap.get_update]
    split
    · rename_i he
      rw [he, hE, Option.map_some]
    · rfl
  apply h.entries
  · intro e' E' hE'
    rw [hget]
    split
    · rename_i he
      subst he
      obtain rfl := Option.some.inj (hE.symm.trans hE')
      exact ⟨f E, rfl, hlease, hmsg⟩
    · exact ⟨E', hE', rfl, rfl⟩
  · intro e'
    simp only [isHeld, hget]
    split
    · rename_i he
      subst he
      simp [hE, hstate, hnot]
    · rfl
  · constructor
    · intro l L e' hL he'
      obtain ⟨E', hE', hl, hs⟩ := h.filed.entry l L e' hL he'
      simp only [hget]
      split
      · rename_i he
        subst he
        obtain rfl := Option.some.inj (hE.symm.trans hE')
        exact ⟨f E, rfl, hlease.trans hl, hnot⟩
      · exact ⟨E', hE', hl, hs⟩
    · exact h.filed.nodup
    · intro e' E' hE'
      simp only [hget] at hE'
      split at hE'
      · obtain rfl := Option.some.inj hE'
        rw [hlease]
        exact h.filed.lease e E hE
      · exact h.filed.lease e' E' hE'
    · intro e' E' hE' hs
      simp only [hget] at hE'
      split at hE'
      · rename_i he
        subst he
        obtain rfl := Option.some.inj hE'
        rcases hf with hf | ⟨-, hopen⟩
        · simp [hf] at hs
        · rw [hlease]
          exact h.filed.open_ e' E hE hopen
      · exact h.filed.open_ e' E' hE' hs
    · intro e' E' hE'
      simp only [hget] at hE'
      split at hE'
      · obtain rfl := Option.some.inj hE'
        exact hcons
      · exact h.filed.consistent e' E' hE'

theorem Inv.release {options : Options Message} (h : d.Inv options) (e : Nat) :
    Inv options (d.release e) := by
  obtain ⟨ledger, hr⟩ := d.release_eq e
  rw [hr]
  exact h.books ledger _ _ _

theorem Inv.commit {options : Options Message} (h : d.Inv options) {e : Nat}
    {E : LeaseEntry Message} (hE : d.entries.get e = some E) : Inv options (d.commit e E) := by
  unfold Dispatcher.commit
  split
  · exact h
  · rename_i hprov
    rw [not_not] at hprov
    obtain ⟨L, hL, hopen, -⟩ := h.filed.open_ e E hE (.inl hprov)
    have hcons := h.filed.consistent e E hE
    simp only [Consistent, hprov] at hcons
    split
    · -- A provisional entry belongs to an open lease, and leases are closed by `dispose`.
      rename_i hgone
      rw [hL] at hgone
      have hdisp : d.disposed = true := by simpa [hopen] using hgone
      obtain ⟨S, hS, hmem⟩ := h.wired.lease _ L hL hopen
      simp [(h.named.disposed hdisp _ S hS).2] at hmem
    · exact h.updateEntry hE (by simp [hprov]) _ rfl rfl (by simp [Consistent, hcons])
        (.inr ⟨rfl, .inl hprov⟩)

theorem Inv.rollback {options : Options Message} (h : d.Inv options) {e : Nat}
    {E : LeaseEntry Message} (hE : d.entries.get e = some E) : Inv options (d.rollback e E) := by
  unfold Dispatcher.rollback
  split
  · exact h
  · rename_i hopen
    apply Inv.release
    refine h.updateEntry hE ?_ _ rfl rfl (by simp [Consistent]) (.inl rfl)
    intro hatt
    exact hopen (by simp [hatt])

/-- A lease that changes neither its key, its state nor whether it is finished. -/
theorem Inv.leaseRow {options : Options Message} (h : d.Inv options) (l : Nat)
    (f : InternalLease → InternalLease) (entries : Heap (LeaseEntry Message))
    (hkey : ∀ L, (f L).key = L.key) (hstate : ∀ L, (f L).state = L.state)
    (hfin : ∀ L, (f L).finished = L.finished)
    (hkeep : ∀ e E, d.entries.get e = some E →
      ∃ E', entries.get e = some E' ∧ E'.lease = E.lease ∧ E'.message = E.message)
    (hheld : ∀ e, isHeld { d with entries } e = d.isHeld e)
    (hfiled : Filed { d with entries, leases := d.leases.update l f }) :
    Inv options { d with entries, leases := d.leases.update l f } := by
  have hold : ∀ l' L', (d.leases.update l f).get l' = some L' →
      ∃ L, d.leases.get l' = some L ∧ L'.key = L.key ∧ L'.state = L.state ∧
        L'.finished = L.finished := by
    intro l' L' hL'
    rcases Heap.get_update_cases hL' with ⟨rfl, L, hL, rfl⟩ | ⟨-, hL⟩
    · exact ⟨L, hL, hkey L, hstate L, hfin L⟩
    · exact ⟨L', hL, rfl, rfl, rfl⟩
  have hnew : ∀ l' L, d.leases.get l' = some L →
      ∃ L', (d.leases.update l f).get l' = some L' ∧ L'.key = L.key ∧ L'.state = L.state ∧
        L'.finished = L.finished := by
    intro l' L hL
    rw [Heap.get_update]
    split
    · exact ⟨f L, by rw [hL, Option.map_some], hkey L, hstate L, hfin L⟩
    · exact ⟨L, hL, rfl, rfl, rfl⟩
  have hk : Keeps d { d with entries, leases := d.leases.update l f } := by
    refine ⟨hkeep, fun l' L hL => ?_⟩
    obtain ⟨L', hL', hkey', -⟩ := hnew l' L hL
    exact ⟨L', hL', hkey'⟩
  refine ⟨⟨⟨h.wired.turn, h.wired.running, ?_, ?_⟩,
    ⟨h.named.state, h.named.unique, ?_, h.named.turn, h.named.serial, h.named.disposed⟩, hfiled,
    h.placed.quiet hk rfl rfl rfl rfl hheld ?_ fun k => .refl _⟩, h.idle⟩
  · intro l' L' hL' hopen
    obtain ⟨L, hL, -, hs, hf⟩ := hold l' L' hL'
    rw [hs]
    exact h.wired.lease l' L hL (hf.symm.trans hopen)
  · intro s S l' hS hmem
    obtain ⟨L, hL, hopen, hs⟩ := h.wired.openLease s S l' hS hmem
    obtain ⟨L', hL', -, hs', hf'⟩ := hnew l' L hL
    exact ⟨L', hL', hf'.trans hopen, hs'.trans hs⟩
  · intro l' L' hL' hopen
    obtain ⟨L, hL, hk', hs, hf⟩ := hold l' L' hL'
    rw [hs, hk']
    exact h.named.lease l' L hL (hf.symm.trans hopen)
  · intro hd s S e hS he
    obtain ⟨k, hke, hks⟩ := h.placed.pending hd s S e hS he
    exact ⟨k, hk.keyOf_eq hke, hks⟩

theorem Inv.rejectTail {options : Options Message} (h : d.Inv options) (l : Nat)
    (reason : RetentionLimitReason) : Inv options (d.rejectTail l reason).2 := by
  apply h.leaseRow l _ d.entries
  · intro L
    rfl
  · intro L
    rfl
  · intro L
    rfl
  · exact fun e E hE => ⟨E, hE, rfl, rfl⟩
  · exact fun e => rfl
  · have hold : ∀ l' L', (d.leases.update l ({ · with tailRejected := some reason })).get l' =
        some L' → ∃ L, d.leases.get l' = some L ∧ L'.entries = L.entries := by
      intro l' L' hL'
      rcases Heap.get_update_cases hL' with ⟨rfl, L, hL, rfl⟩ | ⟨-, hL⟩
      · exact ⟨L, hL, rfl⟩
      · exact ⟨L', hL, rfl⟩
    have hnew : ∀ l' L, d.leases.get l' = some L → ∃ L',
        (d.leases.update l ({ · with tailRejected := some reason })).get l' = some L' ∧
          L'.entries = L.entries ∧ L'.finished = L.finished := by
      intro l' L hL
      rw [Heap.get_update]
      split
      · rw [hL, Option.map_some]
        exact ⟨_, rfl, rfl, rfl⟩
      · exact ⟨L, hL, rfl, rfl⟩
    constructor
    · intro l' L' e hL' he
      obtain ⟨L, hL, heq⟩ := hold l' L' hL'
      exact h.filed.entry l' L e hL (heq ▸ he)
    · intro l' L' hL'
      obtain ⟨L, hL, heq⟩ := hold l' L' hL'
      rw [heq]
      exact h.filed.nodup l' L hL
    · intro e E hE
      obtain ⟨L, hL⟩ := h.filed.lease e E hE
      obtain ⟨L', hL', -⟩ := hnew _ L hL
      exact ⟨L', hL'⟩
    · intro e E hE hs
      obtain ⟨L, hL, hopen, he⟩ := h.filed.open_ e E hE hs
      obtain ⟨L', hL', heq, hfin⟩ := hnew _ L hL
      exact ⟨L', hL', hfin.trans hopen, heq ▸ he⟩
    · exact h.filed.consistent

theorem Inv.acceptOffer {options : Options Message} (h : d.Inv options) {l : Nat}
    {L : InternalLease} (hL : d.leases.get l = some L) (hopen : L.finished = false)
    (message : Message) (r : Nat) : Inv options (d.acceptOffer l message r).2 := by
  have hfresh : ∀ l' L', d.leases.get l' = some L' → d.entries.next ∉ L'.entries := by
    intro l' L' hL' hmem
    obtain ⟨E, hE, -⟩ := h.filed.entry l' L' _ hL' hmem
    simp at hE
  have hnew : ∀ l' L', d.leases.get l' = some L' → ∃ L'',
      (d.leases.update l fun L => { L with entries := L.entries ++ [d.entries.next] }).get l' =
        some L'' ∧ L''.finished = L'.finished ∧ ∀ e ∈ L'.entries, e ∈ L''.entries := by
    intro l' L' hL'
    rw [Heap.get_update]
    split
    · rw [hL', Option.map_some]
      exact ⟨_, rfl, rfl, fun e he => List.mem_append_left _ he⟩
    · exact ⟨L', hL', rfl, fun e he => he⟩
  apply h.leaseRow l
  · intro L
    rfl
  · intro L
    rfl
  · intro L
    rfl
  · exact fun e E hE => ⟨E, Heap.get_alloc_of_some hE, rfl, rfl⟩
  · intro e
    simp only [isHeld, Heap.get_alloc]
    split
    · rename_i he
      subst he
      simp
    · rfl
  · constructor
    · intro l' L' e hL' he
      rcases Heap.get_update_cases hL' with ⟨rfl, L₀, hL₀, rfl⟩ | ⟨-, hL₀⟩
      · rcases List.mem_append.mp he with he | he
        · obtain ⟨E, hE, hrest⟩ := h.filed.entry l' L₀ e hL₀ he
          exact ⟨E, Heap.get_alloc_of_some hE, hrest⟩
        · obtain rfl := List.mem_singleton.mp he
          exact ⟨_, Heap.get_alloc_next _ _, rfl, by simp⟩
      · obtain ⟨E, hE, hrest⟩ := h.filed.entry l' L' e hL₀ he
        exact ⟨E, Heap.get_alloc_of_some hE, hrest⟩
    · intro l' L' hL'
      rcases Heap.get_update_cases hL' with ⟨rfl, L₀, hL₀, rfl⟩ | ⟨-, hL₀⟩
      · exact (h.filed.nodup l' L₀ hL₀).append (List.nodup_singleton _)
          (by simpa using hfresh l' L₀ hL₀)
      · exact h.filed.nodup l' L' hL₀
    · intro e E hE
      rcases Heap.get_alloc_cases hE with ⟨-, rfl⟩ | hE
      · obtain ⟨L', hL', -⟩ := hnew l L hL
        exact ⟨L', hL'⟩
      · obtain ⟨L₀, hL₀⟩ := h.filed.lease e E hE
        obtain ⟨L', hL', -⟩ := hnew _ L₀ hL₀
        exact ⟨L', hL'⟩
    · intro e E hE hs
      rcases Heap.get_alloc_cases hE with ⟨rfl, rfl⟩ | hE
      · exact ⟨_, Heap.get_update_self hL, hopen, by simp⟩
      · obtain ⟨L₀, hL₀, hopen₀, he⟩ := h.filed.open_ e E hE hs
        obtain ⟨L', hL', hfin, hsub⟩ := hnew _ L₀ hL₀
        exact ⟨L', hL', hfin.trans hopen₀, hsub e he⟩
    · intro e E hE
      rcases Heap.get_alloc_cases hE with ⟨-, rfl⟩ | hE
      · exact ⟨rfl, rfl⟩
      · exact h.filed.consistent e E hE

theorem Inv.offer {options : Options Message} (h : d.Inv options) {l : Nat} {L : InternalLease}
    (hL : d.leases.get l = some L) (message : Message) (supplied : Option (Nat × Reservation)) :
    Inv options (d.offer options l L message supplied).2 := by
  unfold Dispatcher.offer
  split
  · split
    · exact h
    · exact h.books _ _ _ _
  · rename_i hlive
    have hopen : L.finished = false := by
      simp only [Bool.or_eq_true, not_or, Bool.not_eq_true] at hlive
      exact hlive.2
    obtain ⟨tokens, nextToken, htoken⟩ := d.tokenFor_eq L.key
    split
    · exact h
    · split
      · unfold offerSupplied
        split
        · exact Inv.rejectTail (h.books _ _ _ _) _ _
        · rcases hpair : d.tokenFor L.key with ⟨token, d'⟩
          rw [hpair] at htoken
          simp only at htoken ⊢
          subst htoken
          split
          · exact Inv.rejectTail (h.books _ _ _ _) _ _
          · split
            · exact h.books _ _ _ _
            · refine Inv.acceptOffer (L := L) ?_ ?_ ?_ _ _
              · exact h.books _ _ _ _
              · exact hL
              · exact hopen
      · unfold offerBare
        split
        · exact h.rejectTail _ _
        · rcases hpair : d.tokenFor L.key with ⟨token, d'⟩
          rw [hpair] at htoken
          simp only at htoken ⊢
          subst htoken
          split
          · exact h.books _ _ _ _
          · exact Inv.rejectTail (h.books _ _ _ _) _ _
          · refine Inv.acceptOffer (L := L) ?_ ?_ ?_ _ _
            · exact h.books _ _ _ _
            · exact hL
            · exact hopen

theorem Inv.not_disposed_of_lease {options : Options Message} (h : d.Inv options) {l : Nat}
    {L : InternalLease} (hL : d.leases.get l = some L) (hopen : L.finished = false) :
    d.disposed = false := by
  cases hd : d.disposed with
  | false => rfl
  | true =>
    obtain ⟨S, hS, hmem⟩ := h.wired.lease l L hL hopen
    simp [(h.named.disposed hd _ S hS).2] at hmem

/-- What a session state owes depends on that state, and its turn, alone. -/
theorem backlogAt_congr {s : Nat} {S S' : SessionState} (hS : d.states.get s = some S)
    (hS' : d'.states.get s = some S') (hrun : S'.running = S.running)
    (hpend : S'.pending = S.pending)
    (hturn : ∀ t, S.running = some t → d'.turns.get t = d.turns.get t) :
    d'.backlogAt s = d.backlogAt s := by
  simp only [backlogAt, hS, hS', hrun, hpend]
  cases hr : S.running with
  | none => rfl
  | some t => simp only [Option.elim_some, hturn t hr]

/-- The backlogs shrink when the sessions do and no session gains work. -/
theorem backlog_sublist
    (hsess : ∀ k s, d'.sessions.get k = some s → d.sessions.get k = some s ∨ d'.backlogAt s = [])
    (hat : ∀ k s, d.sessions.get k = some s → (d'.backlogAt s).Sublist (d.backlogAt s))
    (k : String) : (d'.backlog k).Sublist (d.backlog k) := by
  unfold backlog
  cases hk : d'.sessions.get k with
  | none => exact List.nil_sublist _
  | some s =>
    rcases hsess k s hk with hs | hs
    · rw [hs]
      exact hat k s hs
    · simp only [hs]
      exact List.nil_sublist _

theorem Inv.sessionFor {options : Options Message} (h : d.Inv options)
    (hd : d.disposed = false) (key : String) :
    Inv options (d.sessionFor key).2 ∧
      (d.sessionFor key).2.sessions.get key = some (d.sessionFor key).1 ∧
      (d.sessionFor key).2.disposed = false := by
  unfold Dispatcher.sessionFor
  cases hkey : d.sessions.get key with
  | some s => exact ⟨h, hkey, hd⟩
  | none =>
    have hne : ∀ {k s}, d.sessions.get k = some s → k ≠ key ∧ s ≠ d.states.next := by
      intro k s hk
      constructor
      · rintro rfl
        simp [hkey] at hk
      · rintro rfl
        obtain ⟨S, hS⟩ := h.named.state k _ hk
        simp at hS
    have hset : ∀ {k s}, d.sessions.get k = some s →
        (d.sessions.set key d.states.next).get k = some s := by
      intro k s hk
      rw [OrderedMap.get_set_of_ne _ _ (hne hk).1, hk]
    refine ⟨⟨⟨⟨?_, ?_, ?_, ?_⟩, ⟨?_, ?_, ?_, ?_, h.named.serial, by simp [hd]⟩,
      ⟨h.filed.entry, h.filed.nodup, h.filed.lease, h.filed.open_, h.filed.consistent⟩, ?_⟩, ?_⟩,
      OrderedMap.get_set_self _ _ _, hd⟩
    · intro t T hT hphase
      obtain ⟨S, hS, hrun⟩ := h.wired.turn t T hT hphase
      exact ⟨S, Heap.get_alloc_of_some hS, hrun⟩
    · intro s S t hS hrun
      rcases Heap.get_alloc_cases hS with ⟨-, rfl⟩ | hS
      · cases hrun
      · exact h.wired.running s S t hS hrun
    · intro l L hL hopen
      obtain ⟨S, hS, hmem⟩ := h.wired.lease l L hL hopen
      exact ⟨S, Heap.get_alloc_of_some hS, hmem⟩
    · intro s S l hS hmem
      rcases Heap.get_alloc_cases hS with ⟨-, rfl⟩ | hS
      · simp at hmem
      · exact h.wired.openLease s S l hS hmem
    · intro k s hk
      by_cases hk' : k = key
      · subst hk'
        rw [OrderedMap.get_set_self] at hk
        obtain rfl := Option.some.inj hk
        exact ⟨_, Heap.get_alloc_next _ _⟩
      · rw [OrderedMap.get_set_of_ne _ _ hk'] at hk
        obtain ⟨S, hS⟩ := h.named.state k s hk
        exact ⟨S, Heap.get_alloc_of_some hS⟩
    · intro k k' s hk hk'
      rw [OrderedMap.get_set_eq] at hk hk'
      split at hk <;> split at hk'
      · rename_i h₁ h₂
        exact h₁.trans h₂.symm
      · obtain rfl := Option.some.inj hk
        exact absurd rfl (hne hk').2
      · obtain rfl := Option.some.inj hk'
        exact absurd rfl (hne hk).2
      · exact h.named.unique k k' s hk hk'
    · intro l L hL hopen
      exact hset (h.named.lease l L hL hopen)
    · intro _ t T hT hphase
      exact hset (h.named.turn hd t T hT hphase)
    · refine h.placed.quiet ⟨fun e E hE => ⟨E, hE, rfl, rfl⟩, fun l L hL => ⟨L, hL, rfl⟩⟩ rfl rfl
        rfl (by simp) (fun e => rfl) ?_ ?_
      · intro _ s S e hS he
        rcases Heap.get_alloc_cases hS with ⟨-, rfl⟩ | hS
        · simp at he
        · obtain ⟨k, hke, hks⟩ := h.placed.pending hd s S e hS he
          exact ⟨k, hke, hset hks⟩
      · apply backlog_sublist
        · intro k s hk
          rw [OrderedMap.get_set_eq] at hk
          split at hk
          · obtain rfl := Option.some.inj hk
            exact .inr (by simp [backlogAt])
          · exact .inl hk
        · intro k s hk
          obtain ⟨S, hS⟩ := h.named.state k s hk
          have hsame : backlogAt { d with
              states := d.states.alloc
                { running := none, pending := [], openLeases := [], readyToDrain := false }
              sessions := d.sessions.set key d.states.next } s = d.backlogAt s :=
            backlogAt_congr hS (Heap.get_alloc_of_some hS) rfl rfl fun t _ => rfl
          exact hsame ▸ .refl _
    · intro s S hS hrun hopen
      rcases Heap.get_alloc_cases hS with ⟨-, rfl⟩ | hS
      · rfl
      · exact h.idle s S hS hrun hopen

/-- The lease that `beginBatch` opens on the session it found or made. -/
theorem Inv.openBatch {options : Options Message} (h : d.Inv options) (hd : d.disposed = false)
    {key : String} {s : Nat} (hkey : d.sessions.get key = some s) :
    Inv options { d.updateState s fun S =>
        { S with openLeases := S.openLeases ++ [d.leases.next] } with
      leases := d.leases.alloc
        { key, state := s, entries := [], finished := false, tailRejected := none } } := by
  obtain ⟨S, hS⟩ := h.named.state key s hkey
  have hnew : ∀ s' S', d.states.get s' = some S' → ∃ S'',
      (d.states.update s fun S => { S with openLeases := S.openLeases ++ [d.leases.next] }).get
        s' = some S'' ∧ S''.running = S'.running ∧ S''.pending = S'.pending ∧
      ∀ l ∈ S'.openLeases, l ∈ S''.openLeases := by
    intro s' S' hS'
    rw [Heap.get_update]
    split
    · rw [hS', Option.map_some]
      exact ⟨_, rfl, rfl, rfl, fun l hl => List.mem_append_left _ hl⟩
    · exact ⟨S', hS', rfl, rfl, fun l hl => hl⟩
  have hold : ∀ s' S'',
      (d.states.update s fun S => { S with openLeases := S.openLeases ++ [d.leases.next] }).get
        s' = some S'' → ∃ S', d.states.get s' = some S' ∧ S''.running = S'.running ∧
      S''.pending = S'.pending ∧ (s' ≠ s ∧ S''.openLeases = S'.openLeases ∨
        s' = s ∧ S''.openLeases = S'.openLeases ++ [d.leases.next]) := by
    intro s' S'' hS''
    rcases Heap.get_update_cases hS'' with ⟨rfl, S', hS', rfl⟩ | ⟨hne, hS'⟩
    · exact ⟨S', hS', rfl, rfl, .inr ⟨rfl, rfl⟩⟩
    · exact ⟨S'', hS', rfl, rfl, .inl ⟨hne, rfl⟩⟩
  refine ⟨⟨⟨?_, ?_, ?_, ?_⟩, ⟨?_, h.named.unique, ?_, h.named.turn, h.named.serial,
    by simp [updateState, hd]⟩, ⟨?_, ?_, ?_, ?_, h.filed.consistent⟩, ?_⟩, ?_⟩
  · intro t T hT hphase
    obtain ⟨S', hS', hrun⟩ := h.wired.turn t T hT hphase
    obtain ⟨S'', hS'', hrun', -⟩ := hnew _ S' hS'
    exact ⟨S'', hS'', hrun'.trans hrun⟩
  · intro s' S'' t hS'' hrun
    obtain ⟨S', hS', hrun', -⟩ := hold s' S'' hS''
    exact h.wired.running s' S' t hS' (hrun'.symm.trans hrun)
  · intro l L hL hopen
    rcases Heap.get_alloc_cases hL with ⟨rfl, rfl⟩ | hL
    · exact ⟨_, Heap.get_update_self hS, by simp⟩
    · obtain ⟨S', hS', hmem⟩ := h.wired.lease l L hL hopen
      obtain ⟨S'', hS'', -, -, hsub⟩ := hnew _ S' hS'
      exact ⟨S'', hS'', hsub l hmem⟩
  · intro s' S'' l hS'' hmem
    obtain ⟨S', hS', -, -, hleases⟩ := hold s' S'' hS''
    rcases hleases with ⟨-, heq⟩ | ⟨rfl, heq⟩
    · obtain ⟨L, hL, hrest⟩ := h.wired.openLease s' S' l hS' (heq ▸ hmem)
      exact ⟨L, Heap.get_alloc_of_some hL, hrest⟩
    · rw [heq, List.mem_append, List.mem_singleton] at hmem
      rcases hmem with hmem | rfl
      · obtain ⟨L, hL, hrest⟩ := h.wired.openLease s' S' l hS' hmem
        exact ⟨L, Heap.get_alloc_of_some hL, hrest⟩
      · exact ⟨_, Heap.get_alloc_next _ _, rfl, rfl⟩
  · intro k s' hk
    obtain ⟨S', hS'⟩ := h.named.state k s' hk
    obtain ⟨S'', hS'', -⟩ := hnew s' S' hS'
    exact ⟨S'', hS''⟩
  · intro l L hL hopen
    rcases Heap.get_alloc_cases hL with ⟨-, rfl⟩ | hL
    · exact hkey
    · exact h.named.lease l L hL hopen
  · intro l L e hL he
    rcases Heap.get_alloc_cases hL with ⟨-, rfl⟩ | hL
    · simp at he
    · exact h.filed.entry l L e hL he
  · intro l L hL
    rcases Heap.get_alloc_cases hL with ⟨-, rfl⟩ | hL
    · exact List.nodup_nil
    · exact h.filed.nodup l L hL
  · intro e E hE
    obtain ⟨L, hL⟩ := h.filed.lease e E hE
    exact ⟨L, Heap.get_alloc_of_some hL⟩
  · intro e E hE hs
    obtain ⟨L, hL, hrest⟩ := h.filed.open_ e E hE hs
    exact ⟨L, Heap.get_alloc_of_some hL, hrest⟩
  · have hk : Keeps d { d.updateState s fun S =>
        { S with openLeases := S.openLeases ++ [d.leases.next] } with
        leases := d.leases.alloc { key, state := s, entries := [], finished := false
                                   tailRejected := none } } :=
      ⟨fun e E hE => ⟨E, hE, rfl, rfl⟩, fun l L hL => ⟨L, Heap.get_alloc_of_some hL, rfl⟩⟩
    refine h.placed.quiet hk rfl rfl rfl ?_ (fun e => rfl) ?_ ?_
    · apply Heap.gather_update_same
      intro S
      rfl
    · intro _ s' S'' e hS'' he
      obtain ⟨S', hS', -, hpend, -⟩ := hold s' S'' hS''
      obtain ⟨k, hke, hks⟩ := h.placed.pending hd s' S' e hS' (hpend ▸ he)
      exact ⟨k, hk.keyOf_eq hke, hks⟩
    · apply backlog_sublist
      · exact fun k s' hk => .inl hk
      · intro k s' hk'
        obtain ⟨S', hS'⟩ := h.named.state k s' hk'
        obtain ⟨S'', hS'', hrun, hpend, -⟩ := hnew s' S' hS'
        have hsame : backlogAt { d.updateState s fun S =>
            { S with openLeases := S.openLeases ++ [d.leases.next] } with
            leases := d.leases.alloc { key, state := s, entries := [], finished := false
                                       tailRejected := none } } s' = d.backlogAt s' :=
          backlogAt_congr hS' hS'' hrun hpend fun t _ => rfl
        exact hsame ▸ .refl _
  · intro s' S'' hS'' hrun hopen
    obtain ⟨S', hS', hrun', hpend, hleases⟩ := hold s' S'' hS''
    rcases hleases with ⟨-, heq⟩ | ⟨-, heq⟩
    · rw [hpend]
      exact h.idle s' S' hS' (hrun'.symm.trans hrun) (heq.symm.trans hopen)
    · simp [heq] at hopen

theorem Inv.beginBatch {options : Options Message} (h : d.Inv options) (key : String) :
    Inv options (d.beginBatch key).2 := by
  unfold Dispatcher.beginBatch
  split
  · exact h
  · rename_i hd
    obtain ⟨h', hkey, hd'⟩ := h.sessionFor (by simpa using hd) key
    exact h'.openBatch hd' hkey

end Dispatcher

end Webchannel.Dispatch
