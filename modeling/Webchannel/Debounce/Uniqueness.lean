import Webchannel.Lib.Runs
import Webchannel.Debounce.Flow

/-!
# One live entry for each id

The index of ids admits a second entry with the key and id of a live one only after a late
settlement has erased that id: a flush or a cancellation callback that returns for an entry
which had left the index before. As long as no settlement does that, an id is live once, and
no batch carries it twice.
-/

namespace Webchannel.Debounce

open Webchannel.Retention Webchannel.Runs

variable {Item : Type}

namespace Debouncer

variable {d d' : Debouncer Item} {key k : String} {e : Nat} {es : List Nat} {E : Entry Item}

def idsOf (d : Debouncer Item) (l : List Nat) : List String :=
  l.filterMap fun e => (d.entries.get e).bind Entry.id

structure Inv (d : Debouncer Item) : Prop where
  filed : d.Filed
  known : ∀ k e, d.Live k e ∨ d.Detached k e → ∃ E, d.entries.get e = some E ∧ E.key = k
  apart : ∀ k e, e ∈ d.waitingEntries k → ¬ d.Detached k e
  handed : ∀ l, d.Handed l → (∀ e ∈ l, ∃ E, d.entries.get e = some E) ∧ (d.idsOf l).Nodup
  indexed : ∀ k e E i, d.Live k e → d.entries.get e = some E → E.id = some i →
    d.inflightIds.has (idIndexKey k i) = true
  unique : ∀ k e e' E E' i, d.Live k e → d.Live k e' → d.entries.get e = some E →
    d.entries.get e' = some E' → E.id = some i → E'.id = some i → e = e'

theorem inv_create (limits : BusyTurnLimits) : (create limits : Debouncer Item).Inv := by
  have hwaiting (k : String) : (create limits : Debouncer Item).waitingEntries k = [] := rfl
  have hactive (k : String) : (create limits : Debouncer Item).activeEntries k = [] := rfl
  have hlive (k : String) (e : Nat) : ¬ (create limits : Debouncer Item).Live k e := by
    simp [Live, hwaiting, hactive]
  have hdet (k : String) (e : Nat) : ¬ (create limits : Debouncer Item).Detached k e := by
    rw [Detached, hactive]
    simp [InChain, InCancellation, create]
  refine ⟨?_, ?_, ?_, ?_, ?_, ?_⟩
  · intro k b h
    cases h
  · exact fun k e h => absurd h (not_or.mpr ⟨hlive k e, hdet k e⟩)
  · exact fun k e h => absurd (.inl h) (hlive k e)
  · rintro l (rfl | h | ⟨k, rfl⟩ | ⟨k, chain, h, -⟩)
    · exact ⟨by simp, List.nodup_nil⟩
    · cases h
    · exact ⟨by simp [hwaiting], List.nodup_nil⟩
    · cases h
  · exact fun k e _ _ h => absurd h (hlive k e)
  · exact fun k e _ _ _ _ h => absurd h (hlive k e)

theorem Keeps.entry_eq (h : Keeps d d') {E' : Entry Item} (hE : d.entries.get e = some E)
    (hE' : d'.entries.get e = some E') : E'.id = E.id ∧ E'.key = E.key := by
  obtain ⟨E'', hE'', hid, hkey, -⟩ := h e E hE
  obtain rfl := Option.some.inj (hE'.symm.trans hE'')
  exact ⟨hid, hkey⟩

theorem Keeps.idsOf_eq (h : Keeps d d') {l : List Nat}
    (hl : ∀ e ∈ l, ∃ E, d.entries.get e = some E) : d'.idsOf l = d.idsOf l := by
  apply List.filterMap_congr
  intro e he
  obtain ⟨E, hE⟩ := hl e he
  obtain ⟨E', hE', hid, -⟩ := h e E hE
  simp [hE, hE', hid]

/-- What a step that only moves entries leaves live was live before. -/
theorem Flows.live (h : Flows key es d d')
    (hes : es = [] ∨ es = d.waitingEntries key ∧ d'.waitingEntries key = [])
    (he : d'.Live k e) : d.Live k e := by
  rcases he with he | he
  · rcases h.waiting k with hw | hw
    · exact .inl (hw ▸ he)
    · rw [hw] at he
      cases he
  · rcases h.active k e he with he | ⟨rfl, he⟩
    · exact .inr he
    · rcases hes with rfl | ⟨rfl, -⟩
      · cases he
      · exact .inl he

/-- Moving entries keeps the invariant if the ids of the live ones stay indexed. -/
theorem Inv.flows (h : d.Inv) (hflows : Flows key es d d')
    (hes : es = [] ∨ es = d.waitingEntries key ∧ d'.waitingEntries key = [])
    (hindex : ∀ k e E i, d'.Live k e → d.entries.get e = some E → E.id = some i →
      d.inflightIds.has (idIndexKey k i) = true → d'.inflightIds.has (idIndexKey k i) = true) :
    d'.Inv := by
  have hold : ∀ k e E', d'.Live k e → d'.entries.get e = some E' →
      ∃ E, d.entries.get e = some E ∧ E'.id = E.id := by
    intro k e E' hlive hE'
    obtain ⟨E, hE, -⟩ := h.known k e (.inl (hflows.live hes hlive))
    exact ⟨E, hE, (hflows.keeps.entry_eq hE hE').1⟩
  have hknown : ∀ k e, d.Live k e ∨ d.Detached k e →
      ∃ E', d'.entries.get e = some E' ∧ E'.key = k := by
    intro k e he
    obtain ⟨E, hE, hkey⟩ := h.known k e he
    obtain ⟨E', hE', -, hkey', -⟩ := hflows.keeps e E hE
    exact ⟨E', hE', hkey'.trans hkey⟩
  -- What is detached now was detached before, or was waiting for this key.
  have hdet : ∀ k e, d'.Detached k e → d.Detached k e ∨
      e ∈ d.waitingEntries k ∧ d'.waitingEntries k = [] := by
    intro k e he
    rcases hflows.detached k e he with he | ⟨rfl, he⟩
    · exact .inl he
    · rcases hes with rfl | ⟨rfl, hnil⟩
      · cases he
      · exact .inr ⟨he, hnil⟩
  refine ⟨hflows.filed h.filed, ?_, ?_, ?_, ?_, ?_⟩
  · rintro k e (he | he)
    · exact hknown k e (.inl (hflows.live hes he))
    · rcases hdet k e he with he | ⟨he, -⟩
      · exact hknown k e (.inr he)
      · exact hknown k e (.inl (.inl he))
  · intro k e hw hd
    rcases hflows.waiting k with heq | hnil
    · rcases hdet k e hd with hd | ⟨-, hnil⟩
      · exact h.apart k e (heq ▸ hw) hd
      · rw [hnil] at hw
        cases hw
    · rw [hnil] at hw
      cases hw
  · intro l hl
    have hl' : d.Handed l := by
      rcases hflows.handed l hl with hl | rfl
      · exact hl
      · rcases hes with rfl | ⟨rfl, -⟩
        · exact .inl rfl
        · exact .inr (.inr (.inl ⟨key, rfl⟩))
    obtain ⟨hex, hnodup⟩ := h.handed l hl'
    refine ⟨fun e he => ?_, by rwa [hflows.keeps.idsOf_eq hex]⟩
    obtain ⟨E, hE⟩ := hex e he
    obtain ⟨E', hE', -⟩ := hflows.keeps e E hE
    exact ⟨E', hE'⟩
  · intro k e E' i hlive hE' hid
    obtain ⟨E, hE, hsame⟩ := hold k e E' hlive hE'
    have hid' : E.id = some i := hsame.symm.trans hid
    exact hindex k e E i hlive hE hid' (h.indexed k e E i (hflows.live hes hlive) hE hid')
  · intro k e₁ e₂ E₁ E₂ i hl₁ hl₂ hE₁ hE₂ hid₁ hid₂
    obtain ⟨F₁, hF₁, hs₁⟩ := hold k e₁ E₁ hl₁ hE₁
    obtain ⟨F₂, hF₂, hs₂⟩ := hold k e₂ E₂ hl₂ hE₂
    exact h.unique k e₁ e₂ F₁ F₂ i (hflows.live hes hl₁) (hflows.live hes hl₂) hF₁ hF₂
      (hs₁.symm.trans hid₁) (hs₂.symm.trans hid₂)

/-! ### Settlements -/

/-- Settling the entry erases the id of no other live entry. -/
def Safe (d : Debouncer Item) (key : String) (e : Nat) : Prop :=
  e ∉ d.waitingEntries key ∧ ∃ E, d.entries.get e = some E ∧
    ∀ e' E' i, d.Live key e' → d.entries.get e' = some E' → E.id = some i → E'.id = some i → e' = e

theorem Safe.flows (h : Safe d key e) (hinv : d.Inv) (hflows : Flows k [] d d') : Safe d' key e := by
  obtain ⟨hw, E, hE, hother⟩ := h
  obtain ⟨E₁, hE₁, hid₁, -⟩ := hflows.keeps e E hE
  refine ⟨?_, E₁, hE₁, ?_⟩
  · rcases hflows.waiting key with heq | hnil
    · rwa [heq]
    · simp [hnil]
  · intro e' E' i hlive hE' hi hi'
    have hlive' := hflows.live (.inl rfl) hlive
    obtain ⟨F, hF, -⟩ := hinv.known key e' (.inl hlive')
    have hF' := (hflows.keeps.entry_eq hF hE').1
    exact hother e' F i hlive' hF (hid₁.symm.trans hi) (hF'.symm.trans hi')

theorem idIndexKey_inj {i i' : String} (h : idIndexKey key i = idIndexKey k i') :
    key = k ∧ i = i' := lengthPrefixed_inj h

theorem Inv.settleEntry (h : d.Inv) (owner : Owner)
    (hsafe : ∀ E, d.entries.get e = some E →
      ¬ (owner = .flush ∧ E.cancellationPending = true) → Safe d key e) :
    (settleEntry key owner d e).Inv := by
  have hflows : Flows key [] d (Debouncer.settleEntry key owner d e) := settleEntry_flows key owner d e
  refine h.flows hflows (.inl rfl) ?_
  by_cases hex : ∃ E, d.entries.get e = some E ∧ ¬ (owner = .flush ∧ E.cancellationPending = true)
  · obtain ⟨E, hE, hskip⟩ := hex
    obtain ⟨hw, E₀, hE₀, hother⟩ := hsafe E hE hskip
    obtain rfl := Option.some.inj (hE.symm.trans hE₀)
    have hsettled : Debouncer.settleEntry key owner d e = _ := settleEntry_eq hE hskip
    intro k e' E' i hlive hE' hi hhas
    rw [settleEntry_eq hE hskip] at hlive ⊢
    cases hid : E.id with
    | none => exact hhas
    | some i₀ =>
      dsimp only
      rw [OrderedMap.has_delete_eq, hhas, Bool.and_true, decide_eq_true_eq]
      intro heq
      obtain ⟨rfl, rfl⟩ := idIndexKey_inj heq
      have hlive' := hflows.live (.inl rfl) (hsettled ▸ hlive)
      obtain rfl := hother e' E' i hlive' hE' hid hi
      -- The settled entry is neither waiting nor tracked any more.
      rcases hlive with hin | hin
      · exact hw hin
      · have hact := d.activeEntries_untrackInflight k e' k
        rw [if_pos rfl, activeEntries] at hact
        rw [activeEntries, hact] at hin
        simp at hin
  · intro k e' E' i hlive hE' hi hhas
    rw [settleEntry_skip (by simpa using hex)]
    exact hhas

/-- Whether a settlement by `owner` skips the entry does not change on the way. -/
theorem settleEntry_pending {owner : Owner} {e' : Nat} {E' : Entry Item}
    (h : (settleEntry key owner d e).entries.get e' = some E')
    (hskip : ¬ (owner = .flush ∧ E'.cancellationPending = true)) :
    ∃ E, d.entries.get e' = some E ∧ ¬ (owner = .flush ∧ E.cancellationPending = true) := by
  by_cases hex : ∃ E, d.entries.get e = some E ∧ ¬ (owner = .flush ∧ E.cancellationPending = true)
  · obtain ⟨E, hE, hs⟩ := hex
    rw [settleEntry_eq hE hs] at h
    rcases Heap.get_update_cases h with ⟨rfl, E₀, hE₀, -⟩ | ⟨-, h⟩
    · obtain rfl := Option.some.inj (hE.symm.trans hE₀)
      exact ⟨E, hE, hs⟩
    · exact ⟨E', h, hskip⟩
  · rw [settleEntry_skip (by simpa using hex)] at h
    exact ⟨E', h, hskip⟩

theorem Inv.foldl_settleEntry (owner : Owner) {l : List Nat} (h : d.Inv)
    (hsafe : ∀ e ∈ l, ∀ E, d.entries.get e = some E →
      ¬ (owner = .flush ∧ E.cancellationPending = true) → Safe d key e) :
    (l.foldl (Debouncer.settleEntry key owner) d).Inv := by
  induction l generalizing d with
  | nil => exact h
  | cons e l ih =>
    refine ih (h.settleEntry owner (hsafe e List.mem_cons_self)) fun e' he' E' hE' hskip => ?_
    obtain ⟨E, hE, hs⟩ := settleEntry_pending hE' hskip
    have hflows : Flows key [] d (Debouncer.settleEntry key owner d e) :=
      settleEntry_flows key owner d e
    exact (hsafe e' (.tail _ he') E hE hs).flows h hflows

/-- Entries move and no id is erased. -/
theorem Inv.quiet (h : d.Inv) (hflows : Flows key [] d d') (hids : d'.inflightIds = d.inflightIds) :
    d'.Inv := h.flows hflows (.inl rfl) fun _ _ _ _ _ _ _ hhas => hids ▸ hhas

theorem Inv.still (h : d.Inv) (hs : Still d d') (hids : d'.inflightIds = d.inflightIds) :
    d'.Inv := by
  have hflows : Flows "" [] d d' := hs.flows
  exact h.quiet hflows hids

theorem forgetGeneration_ids (d : Debouncer Item) (key : String) :
    (d.forgetGeneration key).inflightIds = d.inflightIds := by
  unfold forgetGeneration
  split <;> rfl

theorem Inv.settleEntries (owner : Owner) {l : List Nat} (h : d.Inv)
    (hsafe : ∀ e ∈ l, ∀ E, d.entries.get e = some E →
      ¬ (owner = .flush ∧ E.cancellationPending = true) → Safe d key e) :
    (d.settleEntries key l owner).Inv :=
  (h.foldl_settleEntry owner hsafe).still (forgetGeneration_still _ key) (forgetGeneration_ids _ key)

/-! ### Admission -/

theorem waitingEntries_retain (hf : d.Filed) (item : Item) (key : String) (id : Option String)
    (r : Nat) (k : String) : (d.retain item key id r).waitingEntries k =
      if k = key then d.waitingEntries key ++ [d.entries.next] else d.waitingEntries k := by
  unfold retain
  dsimp only
  cases hget : d.waiting.get key with
  | some b =>
    obtain ⟨bucket, hb, hkey⟩ := hf key b hget
    simp only [waitingEntries]
    split
    · rename_i hk
      subst hk
      simp [hget, Heap.get_update, hb]
    · rename_i hk
      cases hget' : d.waiting.get k with
      | none => rfl
      | some b' =>
        obtain ⟨bucket', hb', hkey'⟩ := hf k b' hget'
        have hne : b' ≠ b := by
          rintro rfl
          obtain rfl := Option.some.inj (hb.symm.trans hb')
          exact hk (hkey'.symm.trans hkey)
        simp only [Option.bind_some, Heap.get_update_of_ne hne]
  | none =>
    simp only [waitingEntries, OrderedMap.get_set_eq]
    split
    · rename_i hk
      subst hk
      simp [hget]
    · rename_i hk
      cases hget' : d.waiting.get k with
      | none => rfl
      | some b' =>
        obtain ⟨bucket', hb', -⟩ := hf k b' hget'
        simp only [Option.bind_some, hb', Heap.get_alloc_of_some hb']

theorem filed_retain (hf : d.Filed) (item : Item) (key : String) (id : Option String) (r : Nat) :
    (d.retain item key id r).Filed := by
  unfold retain
  dsimp only
  cases hget : d.waiting.get key with
  | some b =>
    intro k b' hb'
    obtain ⟨bucket, hbucket, hkey⟩ := hf k b' hb'
    simp only [Heap.get_update, hbucket]
    split
    · exact ⟨_, rfl, hkey⟩
    · exact ⟨bucket, rfl, hkey⟩
  | none =>
    intro k b' hb'
    simp only [OrderedMap.get_set_eq] at hb'
    split at hb'
    · rename_i hk
      obtain rfl := Option.some.inj hb'
      exact ⟨_, Heap.get_alloc_next _ _, hk.symm⟩
    · obtain ⟨bucket, hbucket, hkey⟩ := hf k b' hb'
      exact ⟨bucket, Heap.get_alloc_of_some hbucket, hkey⟩

/-- What becomes of the rest when `push` retains an entry. -/
theorem retain_views (d : Debouncer Item) (item : Item) (key : String) (id : Option String)
    (r : Nat) : ∃ E, (d.retain item key id r).entries = d.entries.alloc E ∧ E.id = id ∧ E.key = key ∧
    (∀ x, (d.retain item key id r).inflightIds.has x =
      (d.inflightIds.has x || id.any fun i => x = idIndexKey key i)) ∧
    (d.retain item key id r).chains = d.chains ∧
    (d.retain item key id r).inflightByKey = d.inflightByKey ∧
    (d.retain item key id r).cancellations = d.cancellations ∧
    (d.retain item key id r).flushed = d.flushed := by
  have hids : ∀ x, OrderedMap.has
      (id.elim d.inflightIds fun id => d.inflightIds.add (idIndexKey key id)) x =
      (d.inflightIds.has x || id.any fun i => x = idIndexKey key i) := by
    intro x
    cases id with
    | none => simp
    | some i => simp [OrderedSet.add, OrderedMap.has_set_eq, Bool.or_comm]
  unfold retain
  dsimp only
  split
  · exact ⟨_, rfl, rfl, rfl, hids, rfl, rfl, rfl, rfl⟩
  · exact ⟨_, rfl, rfl, rfl, hids, rfl, rfl, rfl, rfl⟩

/-- An entry whose id is not indexed may be retained. -/
theorem Inv.retain (h : d.Inv) (item : Item) (key : String) (id : Option String) (r : Nat)
    (hfresh : ∀ i, id = some i → d.inflightIds.has (idIndexKey key i) = false) :
    (d.retain item key id r).Inv := by
  have hw := waitingEntries_retain h.filed item key id r
  have hf := filed_retain h.filed item key id r
  obtain ⟨E, hentries, hid, hkey, hids, hchains, hactive, hcancel, hflushed⟩ :=
    d.retain_views item key id r
  generalize d.retain item key id r = d' at *
  have hget {e : Nat} {F : Entry Item} (hF : d.entries.get e = some F) :
      d'.entries.get e = some F := by rw [hentries, Heap.get_alloc_of_some hF]
  have hkeeps : Keeps d d' := fun e F hF => ⟨F, hget hF, rfl, rfl, rfl, rfl⟩
  have hact (k : String) : d'.activeEntries k = d.activeEntries k := by
    rw [activeEntries, hactive, activeEntries]
  have hdet {k : String} {e : Nat} (he : d'.Detached k e) : d.Detached k e := by
    rwa [Detached, hact, InChain, hchains, InCancellation, hcancel] at he
  have hnew : d'.entries.get d.entries.next = some E := by rw [hentries, Heap.get_alloc_next]
  have hlive : ∀ k e, d'.Live k e → d.Live k e ∨ k = key ∧ e = d.entries.next := by
    rintro k e (he | he)
    · rw [hw k] at he
      split at he
      · rename_i hk
        subst hk
        rcases List.mem_append.mp he with he | he
        · exact .inl (.inl he)
        · exact .inr ⟨rfl, List.mem_singleton.mp he⟩
      · exact .inl (.inl he)
    · exact .inl (.inr (hact k ▸ he))
  have hold : ∀ k e F, d.Live k e → d'.entries.get e = some F → d.entries.get e = some F := by
    intro k e F he hF
    obtain ⟨F', hF', -⟩ := h.known k e (.inl he)
    rw [← hF]
    exact hF'.trans (hget hF').symm
  have hnone (k : String) (e : Nat) (F : Entry Item) (i : String) (he : d.Live k e)
      (hF : d.entries.get e = some F) (hi : F.id = some i) (hk : k = key) : id ≠ some i := by
    intro heq
    have hhas := h.indexed k e F i he hF hi
    rw [hk, hfresh i heq] at hhas
    cases hhas
  refine ⟨hf, ?_, ?_, ?_, ?_, ?_⟩
  · rintro k e (he | he)
    · rcases hlive k e he with he | ⟨rfl, rfl⟩
      · obtain ⟨F, hF, hk⟩ := h.known k e (.inl he)
        exact ⟨F, hget hF, hk⟩
      · exact ⟨E, hnew, hkey⟩
    · obtain ⟨F, hF, hk⟩ := h.known k e (.inr (hdet he))
      exact ⟨F, hget hF, hk⟩
  · intro k e he hd'
    have hd := hdet hd'
    rcases hlive k e (.inl he) with hold' | ⟨-, rfl⟩
    · rw [hw k] at he
      split at he
      · rename_i hk
        subst hk
        rcases List.mem_append.mp he with he | he
        · exact h.apart k e he hd
        · obtain ⟨F, hF, -⟩ := h.known k e (.inr hd)
          rw [List.mem_singleton.mp he, Heap.get_next] at hF
          cases hF
      · exact h.apart k e he hd
    · obtain ⟨F, hF, -⟩ := h.known k _ (.inr hd)
      rw [Heap.get_next] at hF
      cases hF
  · -- Only the bucket of the key has become longer.
    have hsame : ∀ l, d.Handed l → (∀ e ∈ l, ∃ E, d'.entries.get e = some E) ∧ (d'.idsOf l).Nodup := by
      intro l hl
      obtain ⟨hex, hnodup⟩ := h.handed l hl
      refine ⟨fun e he => ?_, by rwa [hkeeps.idsOf_eq hex]⟩
      obtain ⟨F, hF⟩ := hex e he
      exact ⟨F, hget hF⟩
    rintro l (rfl | hl | ⟨k, rfl⟩ | hl)
    · exact hsame [] (.inl rfl)
    · exact hsame l (.inr (.inl (hflushed ▸ hl)))
    · rw [hw k]
      split
      · rename_i hk
        subst hk
        obtain ⟨hex, hnodup⟩ := hsame _ (.inr (.inr (.inl ⟨k, rfl⟩)))
        refine ⟨fun e he => ?_, ?_⟩
        · rcases List.mem_append.mp he with he | he
          · exact hex e he
          · exact ⟨E, List.mem_singleton.mp he ▸ hnew⟩
        · rw [idsOf, List.filterMap_append]
          refine List.Nodup.append hnodup ?_ ?_
          · rw [List.filterMap_cons, List.filterMap_nil]
            cases (d'.entries.get d.entries.next).bind Entry.id <;> simp
          · intro i hi hi'
            obtain ⟨e, he, hei⟩ := List.mem_filterMap.mp hi
            obtain ⟨F, hF, hFi⟩ := Option.bind_eq_some_iff.mp hei
            have heq : id = some i := by
              simpa [hnew, hid] using hi'
            exact hnone k e F i (.inl he) (hold k e F (.inl he) hF) hFi rfl heq
      · exact hsame _ (.inr (.inr (.inl ⟨k, rfl⟩)))
    · exact hsame l (.inr (.inr (.inr (hchains ▸ hl))))
  · intro k e F i he hF hi
    rw [hids]
    rcases hlive k e he with he | ⟨rfl, rfl⟩
    · rw [h.indexed k e F i he (hold k e F he hF) hi, Bool.true_or]
    · obtain rfl := Option.some.inj (hnew.symm.trans hF)
      rw [hid] at hi
      simp [hi]
  · intro k e₁ e₂ E₁ E₂ i hl₁ hl₂ hE₁ hE₂ hi₁ hi₂
    rcases hlive k e₁ hl₁ with h₁ | ⟨hk₁, rfl⟩ <;> rcases hlive k e₂ hl₂ with h₂ | ⟨hk₂, rfl⟩
    · exact h.unique k e₁ e₂ E₁ E₂ i h₁ h₂ (hold k e₁ E₁ h₁ hE₁) (hold k e₂ E₂ h₂ hE₂) hi₁ hi₂
    · obtain rfl := Option.some.inj (hnew.symm.trans hE₂)
      exact absurd (hid.symm.trans hi₂) (hnone k e₁ E₁ i h₁ (hold k e₁ E₁ h₁ hE₁) hi₁ hk₂)
    · obtain rfl := Option.some.inj (hnew.symm.trans hE₁)
      exact absurd (hid.symm.trans hi₁) (hnone k e₂ E₂ i h₂ (hold k e₂ E₂ h₂ hE₂) hi₂ hk₁)
    · rfl

/-! ### What leaves the index of ids alone -/

theorem trackEntries_ids (key : String) (l : List Nat) (d : Debouncer Item) :
    (trackEntries key l d).2.inflightIds = d.inflightIds := by
  induction l generalizing d with
  | nil => rfl
  | cons e l ih =>
    unfold trackEntries
    dsimp only
    split
    · exact ih _
    · split
      · exact ih _
      · split
        · rfl
        · exact ih _

theorem trackInflight_ids (d : Debouncer Item) (key : String) (l : List Nat) :
    (d.trackInflight key l).2.inflightIds = d.inflightIds := by
  rw [trackInflight, trackEntries_ids, indexKey]
  split <;> rfl

theorem pin_ids (d : Debouncer Item) (e : Nat) : (d.pin e).2.inflightIds = d.inflightIds := by
  unfold pin
  split
  · rfl
  · dsimp only
    split
    · rfl
    · split <;> rfl

theorem pinAll_ids (l : List Nat) (d : Debouncer Item) :
    (pinAll l d).2.inflightIds = d.inflightIds := by
  induction l generalizing d with
  | nil => rfl
  | cons e l ih =>
    have hpin := d.pin_ids e
    unfold pinAll
    split
    · rename_i heq
      rw [heq] at hpin
      exact hpin
    · rename_i heq
      rw [heq] at hpin
      exact (ih _).trans hpin

theorem notifyCancelled_ids (d : Debouncer Item) (key : String) (es l : List Nat) :
    (d.notifyCancelled key es l).2.inflightIds = d.inflightIds := by
  have hpin := pinAll_ids l d
  unfold notifyCancelled
  split
  · rename_i heq
    rw [heq] at hpin
    exact hpin
  · rename_i d₁ heq
    rw [heq] at hpin
    have htrack := d₁.trackInflight_ids key es
    split
    · rename_i heq₂
      rw [heq₂] at htrack
      exact htrack.trans hpin
    · rename_i heq₂
      rw [heq₂] at htrack
      rw [forgetGeneration_ids]
      exact htrack.trans hpin

theorem clearCapturedBatches_ids (d : Debouncer Item) (key : String) :
    (d.clearCapturedBatches key).inflightIds = d.inflightIds := by
  unfold clearCapturedBatches
  split <;> rfl

theorem clearQueuedCancellationBatches_ids (d : Debouncer Item) (key : String) :
    (d.clearQueuedCancellationBatches key).inflightIds = d.inflightIds := by
  unfold clearQueuedCancellationBatches
  split <;> rfl

theorem dropBucket_ids (d : Debouncer Item) (key : String) :
    (d.dropBucket key).inflightIds = d.inflightIds := by
  unfold dropBucket
  split <;> rfl

/-! ### Steps -/

/-- The next batch of a worker is handed to `onFlush`, rather than settled at once. -/
def startsFlush (d : Debouncer Item) (key : String) (batch : FlushBatch) : Bool :=
  !d.disposed && d.generation key == batch.generation &&
    (holdAll (d.reservationsOf batch.entries) d.ledger).1.isSome

/-- The entries that a returning flush settles: not those a cancellation has taken over. -/
def unpended (d : Debouncer Item) (l : List Nat) : List Nat :=
  l.filter fun e => !(d.entries.get e).any Entry.cancellationPending

/-- The entries that a step settles because a flush or a cancellation callback is over. -/
def settledBy (d : Debouncer Item) : Action Item → List Nat
  | .workerNext key => match (d.chains.get key).map KeyWorker.queued with
    | some (batch :: _) => if d.startsFlush key batch then [] else d.unpended batch.entries
    | _ => []
  | .flushSettled key =>
    d.unpended (((d.chains.get key).bind KeyWorker.running).elim [] Running.entries)
  | .cancelSettled c => ((d.cancellations.get c).map CancellationBatch.callbackEntries).getD []
  | _ => []

/-- Each entry that the step settles is the only live one with its key and id, or there is
none. -/
def SettlesOwn (d : Debouncer Item) (a : Action Item) : Prop :=
  ∀ e ∈ d.settledBy a, ∀ E e' E' i, d.entries.get e = some E → d.Live E.key e' →
    d.entries.get e' = some E' → E.id = some i → E'.id = some i → e' = e

instance (d : Debouncer Item) (a : Action Item) : Decidable (d.SettlesOwn a) :=
  decidable_of_iff (∀ e ∈ d.settledBy a, ∀ E ∈ d.entries.get e,
    ∀ e' ∈ d.waitingEntries E.key ++ d.activeEntries E.key, ∀ E' ∈ d.entries.get e',
      ∀ i ∈ E.id, E'.id = some i → e' = e) <| by
    constructor
    · intro h e he E e' E' i hE hlive hE' hi hi'
      exact h e he E hE e' (List.mem_append.mpr hlive) E' hE' i hi hi'
    · intro h e he E hE e' hlive E' hE' i hi hi'
      exact h e he E e' E' i hE (List.mem_append.mp hlive) hE' hi hi'

theorem Inv.safe (h : d.Inv) (hdet : d.Detached key e)
    (hown : ∀ E e' E' i, d.entries.get e = some E → d.Live E.key e' →
      d.entries.get e' = some E' → E.id = some i → E'.id = some i → e' = e) : Safe d key e := by
  obtain ⟨E, hE, rfl⟩ := h.known key e (.inr hdet)
  exact ⟨fun hw => h.apart E.key e hw hdet, E, hE, fun e' E' i => hown E e' E' i hE⟩

theorem mem_unpended (hE : d.entries.get e = some E)
    (hskip : ¬ (Owner.flush = .flush ∧ E.cancellationPending = true)) (he : e ∈ es) :
    e ∈ d.unpended es := by
  simp only [true_and, Bool.not_eq_true] at hskip
  simp [unpended, he, hE, hskip]

theorem Inv.startFlush (h : d.Inv) {chain : KeyWorker} {batch : FlushBatch}
    {queued : List FlushBatch} (hget : d.chains.get key = some chain)
    (hq : chain.queued = batch :: queued) (hown : d.SettlesOwn (.workerNext key)) :
    (d.startFlush key queued batch).Inv := by
  have hdet {e : Nat} (he : e ∈ batch.entries) : d.Detached key e :=
    .inr (.inl ⟨chain, hget, .inl ⟨batch, hq ▸ .head _, he⟩⟩)
  -- A batch that is not handed over is settled, in a state that differs only in its chain.
  have hskipped (ledger : Ledger) (hno : d.startsFlush key batch = false) :
      (({ d with ledger }.setChain key ⟨queued, some ⟨batch.entries, [], []⟩, .returning⟩).settleEntries
        key batch.entries .flush).Inv := by
    have hset : Flows key [] d ({ d with ledger }.setChain key
        ⟨queued, some ⟨batch.entries, [], []⟩, .returning⟩) :=
      (still_ledger d ledger).flows.trans
        (setChain_next_flows (d := { d with ledger }) hget hq [] [] .returning)
    refine (h.quiet hset rfl).settleEntries .flush fun e he E hE hskip => ?_
    refine Safe.flows (h.safe (hdet he) ?_) h hset
    refine hown e ?_
    simp only [settledBy, hget, Option.map_some, hq, hno, Bool.false_eq_true, if_false]
    exact mem_unpended hE hskip he
  unfold Debouncer.startFlush
  dsimp only
  split
  · rename_i hgen
    split
    · rename_i ledger heq
      exact hskipped ledger (by simp [startsFlush, heq])
    · rename_i holds ledger heq
      have hflows : Flows key [] d (d.startFlush key queued batch) := startFlush_flows hget hq
      have hstate : d.startFlush key queued batch =
          { ({ d with ledger }.trackRunningCallback key batch.entries).setChain key
              ⟨queued, some ⟨batch.entries, holds, batch.entries⟩, .awaiting⟩ with
            flushed := d.flushed ++ [batch.entries] } := by
        rw [Debouncer.startFlush]
        simp only [hgen, heq, if_true]
      rw [← hstate]
      exact h.quiet hflows (by rw [hstate]; rfl)
  · rename_i hgen
    exact hskipped d.ledger (by simp [startsFlush, hgen])

theorem Inv.workerNext (h : d.Inv) {chain : KeyWorker} (hget : d.chains.get key = some chain)
    (hown : d.SettlesOwn (.workerNext key)) : (d.workerNext key chain).Inv := by
  have hflows : Flows key [] d (d.workerNext key chain) := workerNext_flows hget
  unfold Debouncer.workerNext at hflows ⊢
  split
  · rename_i hq
    rw [hq] at hflows
    exact h.quiet hflows rfl
  · rename_i hq
    exact h.startFlush hget hq hown

theorem Inv.flushSettled (h : d.Inv) {chain : KeyWorker} {running : Running}
    (hget : d.chains.get key = some chain) (hrun : chain.running = some running)
    (hown : d.SettlesOwn (.flushSettled key)) : (d.flushSettled key chain running).Inv := by
  have hsettled : (d.settleEntries key running.entries .flush).Inv := by
    refine h.settleEntries .flush fun e he E hE hskip => ?_
    refine h.safe (.inr (.inl ⟨chain, hget, .inr ⟨running, hrun, he⟩⟩)) (hown e ?_)
    simp only [settledBy, hget, Option.bind_some, hrun, Option.elim_some]
    exact mem_unpended hE hskip he
  have hget' : (d.settleEntries key running.entries .flush).chains.get key = some chain := by
    rw [settleEntries_chains, hget]
  have hset : Flows key [] (d.settleEntries key running.entries .flush)
      ((d.settleEntries key running.entries .flush).setChain key { chain with worker := .returning }) :=
    setChain_keep_flows hget' (fun _ => id) fun running' hr => .inr ⟨running', hr, rfl⟩
  have hstill : Still ((d.settleEntries key running.entries .flush).setChain key
      { chain with worker := .returning }) (d.flushSettled key chain running) :=
    ⟨.of_eq rfl, rfl, rfl, rfl, rfl, rfl, rfl⟩
  exact (hsettled.quiet hset rfl).still hstill rfl

theorem Inv.cancelSettled (h : d.Inv) {c : Nat} {batch : CancellationBatch}
    (hget : d.cancellations.get c = some batch) (hown : d.SettlesOwn (.cancelSettled c)) :
    (d.cancelSettled c batch).Inv := by
  unfold Debouncer.cancelSettled
  have hflows : Flows batch.key [] d { d with
      cancellations := d.cancellations.update c ({ · with phase := .done })
      entries := d.entries.updateAll batch.callbackEntries
        ({ · with cancellationCallbackRunning := false })
      runningCallbacks := stopTracking batch.callbackEntries d.runningCallbacks } := by
    refine Flows.cancellations ?_ rfl rfl rfl rfl rfl ?_
    · exact Keeps.of_updateAll rfl (fun _ => rfl) (fun _ => rfl) (fun _ => rfl) (fun _ => rfl)
        fun _ => rfl
    · intro c' batch' h
      rcases Heap.get_update_cases h with ⟨rfl, b, hb, rfl⟩ | ⟨-, h⟩
      · exact ⟨b, hb, rfl, fun _ => id⟩
      · exact ⟨batch', h, rfl, fun _ => id⟩
  refine (h.quiet hflows rfl).settleEntries .cancel fun e he E hE _ => ?_
  refine Safe.flows (h.safe (.inr (.inr ⟨c, batch, hget, rfl, .inr he⟩)) (hown e ?_)) h hflows
  simpa [settledBy, hget] using he

theorem Inv.detach (h : d.Inv) {b : Nat} {bucket : Waiting} (hget : d.buckets.get b = some bucket) :
    (d.detachAndQueue b bucket).2.Inv := by
  by_cases hb : d.waiting.get bucket.key = some b
  · obtain ⟨hentries, hnil, hflows⟩ := detachAndQueue_flows h.filed hget hb
    refine h.flows hflows (.inr ⟨hentries.symm, hnil⟩) ?_
    have hids : (d.detachAndQueue b bucket).2.inflightIds = d.inflightIds := by
      unfold detachAndQueue
      rw [if_neg (not_not.mpr hb)]
      dsimp only
      have htrack := trackInflight_ids { d with
        waiting := d.waiting.delete bucket.key
        buckets := d.buckets.update b ({ · with entries := [] }) } bucket.key bucket.entries
      split
      · rename_i heq
        rw [heq] at htrack
        exact htrack
      · rename_i heq
        rw [heq] at htrack
        exact htrack
    intro k e E i _ _ _ hhas
    rwa [hids]
  · rw [detachAndQueue, if_pos hb]
    exact h

theorem Inv.settleCancelled (h : d.Inv) (key : String) {l : List Nat} (retire : Bool)
    (hsafe : ∀ e ∈ l, Safe d key e) : (d.settleCancelled key l retire).Inv := by
  unfold Debouncer.settleCancelled
  split
  · have hsettled := h.settleEntries .retire fun e he _ _ _ => hsafe e he
    have hc : Flows key [] _ _ := clearCapturedBatches_flows (d.settleEntries key l .retire) key
    have hcaptured := hsettled.quiet hc (clearCapturedBatches_ids _ key)
    have hq : Flows key [] _ _ := clearQueuedCancellationBatches_flows
      ((d.settleEntries key l .retire).clearCapturedBatches key) key
    have hqueued := hcaptured.quiet hq (clearQueuedCancellationBatches_ids _ key)
    exact hqueued.still (forgetGeneration_still _ key) (forgetGeneration_ids _ key)
  · have hsettled := h.settleEntries .cancel fun e he _ _ _ => hsafe e he
    exact hsettled.still (forgetGeneration_still _ key) (forgetGeneration_ids _ key)

theorem Inv.cancelKey (h : d.Inv) (options : Options Item) (key : String) (notify : Option Bool) :
    (d.cancelKey options key notify).2.Inv := by
  have hflows := cancelKey_flows h.filed options key notify
  have hdrop : Flows key [] d ((d.dropBucket key).bumpGeneration key) :=
    (dropBucket_flows h.filed key).trans (Still.flows ⟨.of_eq rfl, rfl, rfl, rfl, rfl, rfl, rfl⟩)
  unfold Debouncer.cancelKey at hflows ⊢
  dsimp only at hflows ⊢
  split
  · exact h
  · split
    · rename_i hne hnotify
      rw [if_neg hne, if_pos hnotify] at hflows
      rcases hflows with heq | ⟨hflows, hnil⟩
      · rw [heq]
        exact h
      · refine h.flows hflows (.inr ⟨rfl, hnil⟩) fun k e E i _ _ _ hhas => ?_
        rw [notifyCancelled_ids]
        exact dropBucket_ids d key ▸ hhas
    · refine (h.quiet hdrop (dropBucket_ids d key)).settleCancelled key _ fun e he => ?_
      have hlive : d.Live key e := (newlyCancelled_subset he).symm
      obtain ⟨E, hE, -⟩ := h.known key e (.inl hlive)
      obtain ⟨E', hE', hid, -⟩ := hdrop.keeps e E hE
      have hnil : ((d.dropBucket key).bumpGeneration key).waitingEntries key = [] :=
        (waitingEntries_dropBucket h.filed key key).trans (if_pos rfl)
      refine ⟨by simp [hnil], E', hE', ?_⟩
      intro e₂ E₂ i hlive₂ hE₂ hi hi₂
      have hlive' := hdrop.live (.inl rfl) hlive₂
      obtain ⟨F, hF, -⟩ := h.known key e₂ (.inl hlive')
      have hF₂ := (hdrop.keeps.entry_eq hF hE₂).1
      exact h.unique key e₂ e F E i hlive' hlive hF hE (hF₂.symm.trans hi₂) (hid.symm.trans hi)

/-- Retirement takes an entry out of the index of its key. -/
theorem retireActive_gone {active : String × Nat} (hE : d.entries.get active.2 = some E) :
    active.2 ∉ (retireActive d active).activeEntries active.1 := by
  have hact := d.activeEntries_untrackInflight active.1 active.2 active.1
  rw [if_pos rfl, activeEntries] at hact
  rw [retireActive, settleEntries, (forgetGeneration_still _ _).activeEntries_eq, List.foldl_cons,
    List.foldl_nil, settleEntry_eq hE (by simp), activeEntries, hact]
  simp

theorem foldl_retireActive_gone (l : List (String × Nat)) (d : Debouncer Item)
    (hl : ∀ a ∈ l, ∃ E, d.entries.get a.2 = some E) {a : String × Nat} (ha : a ∈ l) :
    a.2 ∉ (l.foldl retireActive d).activeEntries a.1 := by
  induction l generalizing d with
  | nil => cases ha
  | cons b l ih =>
    have hone : Flows "" [] d (retireActive d b) := retireActive_flows d b
    have hex : ∀ a ∈ l, ∃ E, (retireActive d b).entries.get a.2 = some E := by
      intro a ha
      obtain ⟨E, hE⟩ := hl a (.tail _ ha)
      obtain ⟨E', hE', -⟩ := hone.keeps a.2 E hE
      exact ⟨E', hE'⟩
    rcases List.mem_cons.mp ha with rfl | ha
    · obtain ⟨E, hE⟩ := hl a List.mem_cons_self
      have hrest : Flows "" [] (retireActive d a) (l.foldl retireActive (retireActive d a)) :=
        foldl_flows retireActive_flows l _
      intro hmem
      rcases hrest.active a.1 a.2 hmem with hmem | ⟨-, hmem⟩
      · exact retireActive_gone hE hmem
      · cases hmem
    · exact ih _ hex ha

theorem mem_activeAll : (key, e) ∈ d.activeAll ↔ e ∈ d.activeEntries key := by
  simp only [activeAll, List.mem_flatMap, List.mem_map, Prod.mk.injEq, activeEntries]
  constructor
  · rintro ⟨⟨k, keyed⟩, hmem, e', he', rfl, rfl⟩
    rw [OrderedMap.mem_entries.mp hmem]
    exact he'
  · intro he
    cases hget : d.inflightByKey.get key with
    | none => simp [hget] at he
    | some keyed =>
      rw [hget] at he
      exact ⟨(key, keyed), OrderedMap.mem_entries.mpr hget, e, he, rfl, rfl⟩

theorem retireAll_active (hex : ∀ k e, e ∈ d.activeEntries k → ∃ E, d.entries.get e = some E) :
    e ∉ d.retireAll.activeEntries key := by
  have hclear : Flows "" [] (d.activeAll.foldl retireActive d) d.retireAll := clearAll_flows _
  have hretire : Flows "" [] d (d.activeAll.foldl retireActive d) :=
    foldl_flows retireActive_flows d.activeAll d
  intro hmem
  have hmem' : e ∈ (d.activeAll.foldl retireActive d).activeEntries key :=
    (hclear.active key e hmem).resolve_right (by simp)
  have hall : ∀ a ∈ d.activeAll, ∃ E, d.entries.get a.2 = some E :=
    fun a ha => hex a.1 a.2 (mem_activeAll.mp ha)
  have hin : e ∈ d.activeEntries key := (hretire.active key e hmem').resolve_right (by simp)
  exact foldl_retireActive_gone d.activeAll d hall (mem_activeAll.mpr hin) hmem'

/-- A debouncer that has just been disposed of has no live entry. -/
theorem dispose_live (h : d.Inv) (hd : d.disposed = false) : ¬ d.dispose.2.Live key e := by
  let d₁ : Debouncer Item := { (d.waiting.entries.foldl disposeBucket
    (0, { d with disposed := true })).2 with waiting := .empty }
  have hstart : Still d { d with disposed := true } := ⟨.of_eq rfl, rfl, rfl, rfl, rfl, rfl, rfl⟩
  have hflows : Flows "" [] d d₁ := (hstart.flows.trans (disposeBuckets_flows _ 0 _)).trans
    (clearWaiting_flows _)
  have hdispose : d.dispose.2 = { d₁.retireAll with inflightIds := .empty } := by
    rw [Debouncer.dispose, if_neg (by simp [hd])]
  rw [hdispose]
  rintro (he | he)
  · have hretire : Flows "" [] d₁ d₁.retireAll := retireAll_flows d₁
    have hnil : d₁.retireAll.waitingEntries key = [] := (hretire.waiting key).elim id id
    change e ∈ d₁.retireAll.waitingEntries key at he
    rw [hnil] at he
    cases he
  · refine retireAll_active ?_ he
    intro k e he
    have hold := (hflows.active k e he).resolve_right (by simp)
    obtain ⟨E, hE, -⟩ := h.known k e (.inl (.inr hold))
    obtain ⟨E', hE', -⟩ := hflows.keeps e E hE
    exact ⟨E', hE'⟩

theorem Inv.dispose (h : d.Inv) : d.dispose.2.Inv := by
  have hflows : Flows "" [] d d.dispose.2 := dispose_flows d
  refine h.flows hflows (.inl rfl) ?_
  cases hd : d.disposed with
  | true =>
    intro k e E i _ _ _ hhas
    rw [Debouncer.dispose, if_pos hd]
    exact hhas
  | false => exact fun k e E i hlive => absurd hlive (dispose_live h hd)

theorem Inv.push (h : d.Inv) (options : Options Item) (item : Item) (answers : PushAnswers) :
    (d.push options item answers).2.Inv := by
  have hadmitted (id : Option String)
      (hfresh : ∀ i, id = some i → d.inflightIds.has (idIndexKey (options.buildKey item) i) = false) :
      (d.admission options item (options.buildKey item) id answers).2.Inv := by
    unfold admission
    split
    · exact h
    · split
      · rename_i ledger _
        exact (h.still (still_ledger d ledger) rfl).retain item _ id _ hfresh
      · exact h
      · exact h
  unfold Debouncer.push
  split
  · exact h
  · dsimp only
    split
    · exact hadmitted none fun i hi => by cases hi
    · split
      · exact h
      · split
        · exact h
        · split
          · exact h
          · rename_i id _ _ _ _ hhas
            refine hadmitted (some id) fun i hi => ?_
            obtain rfl := Option.some.inj hi
            simpa using hhas

end Debouncer

open Debouncer

variable {options : Options Item} {d d' : Debouncer Item}

theorem Debouncer.Inv.step {a : Action Item} (h : d.Inv) (hown : d.SettlesOwn a)
    (hs : step options d a = some d') : d'.Inv := by
  cases a with
  | push item answers =>
    obtain rfl := Option.some.inj hs
    exact h.push options item answers
  | detach b =>
    obtain ⟨bucket, hb, hs⟩ := Option.bind_eq_some_iff.mp hs
    obtain rfl := Option.some.inj hs
    exact h.detach hb
  | workerNext key =>
    obtain ⟨chain, hget, hs⟩ := Option.bind_eq_some_iff.mp hs
    split at hs
    · obtain rfl := Option.some.inj hs
      exact h.workerNext hget hown
    · cases hs
  | flushSettled key =>
    obtain ⟨chain, hget, hs⟩ := Option.bind_eq_some_iff.mp hs
    obtain ⟨running, hrun, hs⟩ := Option.bind_eq_some_iff.mp hs
    split at hs
    · obtain rfl := Option.some.inj hs
      exact h.flushSettled hget hrun hown
    · cases hs
  | workerEnded key =>
    obtain ⟨chain, hget, hs⟩ := Option.bind_eq_some_iff.mp hs
    split at hs
    · obtain rfl := Option.some.inj hs
      have hflows : Flows key [] d (d.workerEnded key chain) := workerEnded_flows hget
      refine h.quiet hflows ?_
      unfold workerEnded
      split
      · rfl
      · dsimp only
        split <;> rfl
    · cases hs
  | cancelKey key notify =>
    obtain rfl := Option.some.inj hs
    exact h.cancelKey options key notify
  | cancelStart c =>
    obtain ⟨batch, hget, hs⟩ := Option.bind_eq_some_iff.mp hs
    split at hs
    · obtain rfl := Option.some.inj hs
      have hflows : Flows batch.key [] d (d.cancelStart c batch) := cancelStart_flows hget
      refine h.quiet hflows ?_
      unfold cancelStart
      dsimp only
      split <;> rfl
    · cases hs
  | cancelSettled c =>
    obtain ⟨batch, hget, hs⟩ := Option.bind_eq_some_iff.mp hs
    split at hs
    · obtain rfl := Option.some.inj hs
      exact h.cancelSettled hget hown
    · cases hs
  | dispose =>
    obtain rfl := Option.some.inj hs
    exact h.dispose
  | ledger call =>
    obtain rfl := Option.some.inj hs
    exact h.still (still_ledger d _) rfl

theorem inv_of_reached {limits : BusyTurnLimits}
    (h : ReachedBy (step options) SettlesOwn (create limits) d) : d.Inv :=
  h.invariant (inv_create limits) fun _ _ _ hi hown hs => hi.step hown hs

/-- Two different entries with one key and id, both waiting or tracked in flight. -/
def Twice (d : Debouncer Item) : Prop :=
  ∃ key e e' E E' i, d.Live key e ∧ d.Live key e' ∧ d.entries.get e = some E ∧
    d.entries.get e' = some E' ∧ E.id = some i ∧ E'.id = some i ∧ e ≠ e'

/-- If no settlement erases the id of a live entry that is not its own, an id is live at most
once, `push` never accepts an id that is live, and no batch handed to `onFlush` has an id
twice. -/
theorem unique_ids_of_own_settlements (options : Options Item) (limits : BusyTurnLimits)
    (d : Debouncer Item) (h : ReachedBy (step options) SettlesOwn (create limits) d) :
    ¬ Twice d ∧
    (∀ item answers i e E, (d.push options item answers).1 = .accepted →
      validId (options.getId item) = some i → d.Live (options.buildKey item) e →
      d.entries.get e = some E → E.id ≠ some i) ∧
    ∀ l ∈ d.flushed, (d.idsOf l).Nodup := by
  have hinv := inv_of_reached h
  refine ⟨?_, ?_, ?_⟩
  · rintro ⟨key, e, e', E, E', i, hl, hl', hE, hE', hi, hi', hne⟩
    exact hne (hinv.unique key e e' E E' i hl hl' hE hE' hi hi')
  · intro item answers i e E hacc hid hlive hE hi
    have hhas := hinv.indexed _ e E i hlive hE hi
    unfold push at hacc
    split at hacc
    · cases hacc
    · simp only [hid, hhas, if_true] at hacc
      split at hacc
      · cases hacc
      · split at hacc
        · cases hacc
        · cases hacc
  · exact fun l hl => (hinv.handed l (.inr (.inl hl))).2

/-- One peer, whose messages are their own ids. -/
def oneByteEach : Options String := ⟨fun _ => "peer", some, fun _ => some (.integer 1), true⟩

def noAnswer : PushAnswers := ⟨false, false, none, 0⟩

/-- A message is stopped and cancelled without hindrance, and may then be sent again. -/
theorem unique_ids_after_cancellation :
    ∃ d : Debouncer String, d.waitingEntries "peer" = [1] ∧ ¬ Twice d := by
  have hrun : (exec (fun d a => if d.SettlesOwn a then step oneByteEach d a else none)
      (create defaultBusyTurnLimits)
      [.push "m" noAnswer, .cancelKey "peer" (some true), .cancelStart 0, .cancelSettled 0,
        .push "m" noAnswer]).map
      (fun d => decide (d.waitingEntries "peer" = [1])) = some true := by decide +kernel
  obtain ⟨d, hd, hp⟩ := exists_reachedBy_of_exec hrun
  exact ⟨d, of_decide_eq_true hp,
    (unique_ids_of_own_settlements oneByteEach defaultBusyTurnLimits d hd).1⟩

/-- A cancellation callback hangs while its peer is retired and the message comes again. When
it returns it erases the id of the second copy, and a third one is accepted beside it. -/
theorem unique_ids_fails :
    ∃ d : Debouncer String, Reached (step oneByteEach) (create defaultBusyTurnLimits) d ∧ Twice d ∧
      ∃ l ∈ d.flushed, ¬ (d.idsOf l).Nodup := by
  have hrun : (exec (step oneByteEach) (create defaultBusyTurnLimits)
      [.push "m" noAnswer, .cancelKey "peer" (some true), .cancelStart 0,
        .cancelKey "peer" (some false), .push "m" noAnswer, .cancelSettled 0, .push "m" noAnswer,
        .detach 1, .workerNext "peer"]).map
      (fun d => decide (d.activeEntries "peer" = [1, 2] ∧
        (d.entries.get 1).map Entry.id = some (some "m") ∧
        (d.entries.get 2).map Entry.id = some (some "m") ∧
        d.flushed = [[1, 2]])) = some true := by decide +kernel
  obtain ⟨d, hd, hp⟩ := exists_reached_of_exec hrun
  obtain ⟨hactive, h₁, h₂, hflushed⟩ := of_decide_eq_true hp
  obtain ⟨E₁, hE₁, hi₁⟩ := Option.map_eq_some_iff.mp h₁
  obtain ⟨E₂, hE₂, hi₂⟩ := Option.map_eq_some_iff.mp h₂
  refine ⟨d, hd, ⟨"peer", 1, 2, E₁, E₂, "m", .inr ?_, .inr ?_, hE₁, hE₂, hi₁, hi₂, by decide⟩,
    [1, 2], by simp [hflushed], ?_⟩
  · simp [hactive]
  · simp [hactive]
  · simp [idsOf, hE₁, hE₂, hi₁, hi₂]

end Webchannel.Debounce
