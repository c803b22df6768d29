import Mathlib.Data.List.Nodup
import Webchannel.Debounce.Queue

/-!
# How entries move through the debouncer

An entry waits in the bucket of its key, is detached into a batch and tracked in flight, and
may be copied into a cancellation. No step but `push` puts an entry into a bucket, and what is
detached was waiting or detached before.
-/

namespace Webchannel.Debounce

open Webchannel.Retention

variable {Item : Type}

namespace Debouncer

variable {d d' d'' : Debouncer Item} {key k : String} {e : Nat} {es : List Nat}

/-- The entry is waiting or tracked in flight. -/
def Live (d : Debouncer Item) (key : String) (e : Nat) : Prop :=
  e ∈ d.waitingEntries key ∨ e ∈ d.activeEntries key

/-- The entry is in a batch of the key's chain. -/
def InChain (d : Debouncer Item) (key : String) (e : Nat) : Prop :=
  ∃ chain, d.chains.get key = some chain ∧
    ((∃ batch ∈ chain.queued, e ∈ batch.entries) ∨
      ∃ running, chain.running = some running ∧ e ∈ running.entries)

/-- The entry is in a cancellation batch of the key, or was handed to `onCancel` with it. -/
def InCancellation (d : Debouncer Item) (key : String) (e : Nat) : Prop :=
  ∃ c batch, d.cancellations.get c = some batch ∧ batch.key = key ∧
    (e ∈ batch.entries ∨ e ∈ batch.callbackEntries)

def Detached (d : Debouncer Item) (key : String) (e : Nat) : Prop :=
  e ∈ d.activeEntries key ∨ d.InChain key e ∨ d.InCancellation key e

/-- A list of entries that `onFlush` has got, or will get as it stands. -/
def Handed (d : Debouncer Item) (l : List Nat) : Prop :=
  l = [] ∨ l ∈ d.flushed ∨ (∃ key, l = d.waitingEntries key) ∨
    ∃ key chain, d.chains.get key = some chain ∧ ∃ batch ∈ chain.queued, l = batch.entries

/-- Buckets are filed under their own key. -/
def Filed (d : Debouncer Item) : Prop :=
  ∀ key b, d.waiting.get key = some b → ∃ bucket, d.buckets.get b = some bucket ∧ bucket.key = key

/-- Entries keep what `push` gave them. -/
def Keeps (d d' : Debouncer Item) : Prop :=
  ∀ e E, d.entries.get e = some E → ∃ E', d'.entries.get e = some E' ∧
    E'.id = E.id ∧ E'.key = E.key ∧ E'.item = E.item ∧ E'.reservation = E.reservation

theorem Keeps.refl (d : Debouncer Item) : Keeps d d := fun _ E hE => ⟨E, hE, rfl, rfl, rfl, rfl⟩

theorem Keeps.trans (h : Keeps d d') (h' : Keeps d' d'') : Keeps d d'' := by
  intro e E hE
  obtain ⟨E', hE', hid, hkey, hitem, hres⟩ := h e E hE
  obtain ⟨E'', hE'', hid', hkey', hitem', hres'⟩ := h' e E' hE'
  exact ⟨E'', hE'', hid'.trans hid, hkey'.trans hkey, hitem'.trans hitem, hres'.trans hres⟩

theorem Keeps.of_eq (h : d'.entries = d.entries) : Keeps d d' := by
  intro e E hE
  exact ⟨E, h ▸ hE, rfl, rfl, rfl, rfl⟩

theorem Keeps.of_update {f : Entry Item → Entry Item} (h : d'.entries = d.entries.update e f)
    (hid : ∀ E, (f E).id = E.id) (hkey : ∀ E, (f E).key = E.key)
    (hitem : ∀ E, (f E).item = E.item) (hres : ∀ E, (f E).reservation = E.reservation) :
    Keeps d d' := by
  intro e' E hE
  rw [h, Heap.get_update]
  split
  · rw [hE, Option.map_some]
    exact ⟨f E, rfl, hid E, hkey E, hitem E, hres E⟩
  · exact ⟨E, hE, rfl, rfl, rfl, rfl⟩

theorem Keeps.of_updateAll {f : Entry Item → Entry Item}
    (h : d'.entries = d.entries.updateAll es f) (hf : ∀ E, f (f E) = f E)
    (hid : ∀ E, (f E).id = E.id) (hkey : ∀ E, (f E).key = E.key)
    (hitem : ∀ E, (f E).item = E.item) (hres : ∀ E, (f E).reservation = E.reservation) :
    Keeps d d' := by
  intro e' E hE
  rw [h, Heap.get_updateAll hf]
  split
  · rw [hE, Option.map_some]
    exact ⟨f E, rfl, hid E, hkey E, hitem E, hres E⟩
  · exact ⟨E, hE, rfl, rfl, rfl, rfl⟩

/-- A step that detaches nothing but `es`, which belongs to `key`. -/
structure Flows (key : String) (es : List Nat) (d d' : Debouncer Item) : Prop where
  keeps : Keeps d d'
  filed : d.Filed → d'.Filed
  waiting : ∀ k, d'.waitingEntries k = d.waitingEntries k ∨ d'.waitingEntries k = []
  active : ∀ k e, e ∈ d'.activeEntries k → e ∈ d.activeEntries k ∨ k = key ∧ e ∈ es
  detached : ∀ k e, d'.Detached k e → d.Detached k e ∨ k = key ∧ e ∈ es
  handed : ∀ l, d'.Handed l → d.Handed l ∨ l = es

theorem Flows.trans (h : Flows key es d d') (h' : Flows key es d' d'') : Flows key es d d'' where
  keeps := h.keeps.trans h'.keeps
  filed hf := h'.filed (h.filed hf)
  waiting k := by
    rcases h'.waiting k with hw | hw
    · rw [hw]
      exact h.waiting k
    · exact .inr hw
  active k e he := (h'.active k e he).elim (h.active k e) .inr
  detached k e he := (h'.detached k e he).elim (h.detached k e) .inr
  handed l hl := (h'.handed l hl).elim (h.handed l) .inr

/-- Nothing that concerns the places of entries changes. -/
structure Still (d d' : Debouncer Item) : Prop where
  keeps : Keeps d d'
  waiting : d'.waiting = d.waiting
  buckets : d'.buckets = d.buckets
  chains : d'.chains = d.chains
  inflightByKey : d'.inflightByKey = d.inflightByKey
  cancellations : d'.cancellations = d.cancellations
  flushed : d'.flushed = d.flushed

theorem Still.refl (d : Debouncer Item) : Still d d := ⟨.refl d, rfl, rfl, rfl, rfl, rfl, rfl⟩

theorem Still.trans (h : Still d d') (h' : Still d' d'') : Still d d'' :=
  ⟨h.keeps.trans h'.keeps, h'.waiting.trans h.waiting, h'.buckets.trans h.buckets,
    h'.chains.trans h.chains, h'.inflightByKey.trans h.inflightByKey,
    h'.cancellations.trans h.cancellations, h'.flushed.trans h.flushed⟩

theorem Still.waitingEntries_eq (h : Still d d') (k : String) :
    d'.waitingEntries k = d.waitingEntries k := by
  rw [waitingEntries, waitingEntries, h.waiting, h.buckets]

theorem Still.activeEntries_eq (h : Still d d') (k : String) :
    d'.activeEntries k = d.activeEntries k := by
  rw [activeEntries, activeEntries, h.inflightByKey]

theorem Still.detached_iff (h : Still d d') : d'.Detached k e ↔ d.Detached k e := by
  rw [Detached, Detached, h.activeEntries_eq, InChain, InChain, h.chains, InCancellation,
    InCancellation, h.cancellations]

theorem Still.handed_iff (h : Still d d') (l : List Nat) : d'.Handed l ↔ d.Handed l := by
  simp only [Handed, h.flushed, h.waitingEntries_eq, h.chains]

theorem Still.flows (h : Still d d') : Flows key es d d' where
  keeps := h.keeps
  filed hf := by rwa [Filed, h.waiting, h.buckets]
  waiting k := .inl (h.waitingEntries_eq k)
  active k e he := .inl (h.activeEntries_eq k ▸ he)
  detached k e he := .inl (h.detached_iff.mp he)
  handed l hl := .inl ((h.handed_iff l).mp hl)

/-! ### The indexes -/

theorem activeEntries_untrackInflight (d : Debouncer Item) (key : String) (e : Nat) (k : String) :
    (d.untrackInflight key e).activeEntries k =
      if k = key then (d.activeEntries k).filter (· ≠ e) else d.activeEntries k := by
  simp only [activeEntries, untrackInflight]
  cases hget : d.inflightByKey.get key with
  | none =>
    simp only
    split
    · rename_i hk
      subst hk
      simp [hget]
    · rfl
  | some keyed =>
    simp only
    by_cases hk : k = key
    · subst hk
      rw [if_pos rfl, hget, Option.map_some, Option.getD_some, ← OrderedMap.keys_delete]
      split
      · rename_i hsize
        rw [OrderedMap.get_delete_self, OrderedMap.keys_eq_nil_iff.mpr hsize]
        rfl
      · rw [OrderedMap.get_set_self]
        rfl
    · rw [if_neg hk]
      split
      · rw [OrderedMap.get_delete_of_ne _ hk]
      · rw [OrderedMap.get_set_of_ne _ _ hk]

/-- What `settleEntries` makes of the state record of an entry. -/
def settled (owner : Owner) (E : Entry Item) : Entry Item :=
  match owner with
  | .flush => E
  | .cancel => { E with
      cancellationPending := false
      releaseCancellationHold := none
      cancellationSettled := E.cancellationSettled.map fun _ => true }
  | .retire => { E with
      retired := true
      cancellationPending := false
      releaseCancellationHold :=
        if E.cancellationCallbackRunning then E.releaseCancellationHold else none
      cancellationSettled := E.cancellationSettled.map fun _ => true }

/-- What it asks of the budget for it. -/
def settledLedger (owner : Owner) (E : Entry Item) (l : Ledger) : Ledger :=
  let l := if owner ≠ .flush ∨ (l.rows[E.reservation]?).map Reservation.owner ≠ some .pending then
    l.requestRelease E.reservation else l
  if owner = .cancel ∨ owner = .retire ∧ !E.cancellationCallbackRunning then
    match E.releaseCancellationHold with
    | none => l
    | some h => l.releaseHold E.reservation h
  else l

theorem settleEntry_skip {owner : Owner} (h : ∀ E, d.entries.get e = some E →
    owner = .flush ∧ E.cancellationPending = true) : settleEntry key owner d e = d := by
  unfold settleEntry
  cases hE : d.entries.get e with
  | none => rfl
  | some E => exact if_pos (h E hE)

theorem settleEntry_eq {owner : Owner} {E : Entry Item} (hE : d.entries.get e = some E)
    (hskip : ¬ (owner = .flush ∧ E.cancellationPending = true)) :
    settleEntry key owner d e = { d with
      entries := d.entries.update e (settled owner)
      ledger := settledLedger owner E d.ledger
      inflightEntries := d.inflightEntries.delete e
      inflightByKey := (d.untrackInflight key e).inflightByKey
      inflightIds := match E.id with
        | none => d.inflightIds
        | some id => d.inflightIds.delete (idIndexKey key id) } := by
  unfold settleEntry
  rw [hE]
  dsimp only
  rw [if_neg hskip]
  have hcongr {f g : Entry Item → Entry Item} (h : f E = g E) :
      d.entries.update e f = d.entries.update e g := by
    apply Heap.update_congr
    intro a ha
    rw [← Option.some.inj (hE.symm.trans ha)]
    exact h
  cases owner with
  | flush =>
    have hself : d.entries.update e (settled .flush) = d.entries :=
      Heap.update_eq_self fun _ _ => rfl
    rw [hself]
    by_cases hown : (d.ledger.rows[E.reservation]?).map Reservation.owner ≠ some .pending <;>
      cases hid : E.id <;> simp [releaseEntry, untrackInflight, settledLedger, hown]
  | cancel =>
    cases hold : E.releaseCancellationHold <;> cases hid : E.id <;>
      simp [releaseEntry, untrackInflight, settledLedger, releaseCancellationHold, updateEntry,
        hold, Heap.update_update]
    all_goals exact hcongr (by simp [settled, hold])
  | retire =>
    cases hrun : E.cancellationCallbackRunning <;> cases hold : E.releaseCancellationHold <;>
      cases hid : E.id <;>
      simp [releaseEntry, untrackInflight, settledLedger, releaseCancellationHold, updateEntry,
        hrun, hold, Heap.update_update]
    all_goals exact hcongr (by simp [settled, hrun, hold])

theorem settled_keeps (owner : Owner) (h : d'.entries = d.entries.update e (settled owner)) :
    Keeps d d' := by
  refine Keeps.of_update h ?_ ?_ ?_ ?_ <;> intro E <;> cases owner <;> rfl

/-! ### What each operation moves -/

/-- Entries leave the index of their key, and nothing else moves. -/
theorem Flows.untrack (hkeeps : Keeps d d') (hwaiting : d'.waiting = d.waiting)
    (hbuckets : d'.buckets = d.buckets) (hchains : d'.chains = d.chains)
    (hcancel : d'.cancellations = d.cancellations) (hflushed : d'.flushed = d.flushed)
    (hactive : ∀ k e, e ∈ d'.activeEntries k → e ∈ d.activeEntries k) :
    Flows key es d d' := by
  have hw (k : String) : d'.waitingEntries k = d.waitingEntries k := by
    rw [waitingEntries, waitingEntries, hwaiting, hbuckets]
  refine ⟨hkeeps, fun hf => ?_, fun k => .inl (hw k), fun k e he => .inl (hactive k e he), ?_, ?_⟩
  · rwa [Filed, hwaiting, hbuckets]
  · rintro k e (he | he | he)
    · exact .inl (.inl (hactive k e he))
    · exact .inl (.inr (.inl (by rwa [InChain, ← hchains])))
    · exact .inl (.inr (.inr (by rwa [InCancellation, ← hcancel])))
  · intro l hl
    left
    simpa only [Handed, hflushed, hw, hchains] using hl

theorem settleEntry_flows (k : String) (owner : Owner) (d : Debouncer Item) (e : Nat) :
    Flows key es d (settleEntry k owner d e) := by
  by_cases h : ∃ E, d.entries.get e = some E ∧ ¬ (owner = .flush ∧ E.cancellationPending = true)
  · obtain ⟨E, hE, hskip⟩ := h
    rw [settleEntry_eq hE hskip]
    refine Flows.untrack ?_ rfl rfl rfl rfl rfl ?_
    · exact settled_keeps owner rfl
    · intro k' e' he'
      have hact := d.activeEntries_untrackInflight k e k'
      rw [activeEntries] at hact
      rw [activeEntries, hact] at he'
      split at he'
      · exact List.mem_of_mem_filter he'
      · exact he'
  · rw [settleEntry_skip (by simpa using h)]
    exact (Still.refl d).flows

theorem forgetGeneration_still (d : Debouncer Item) (key : String) :
    Still d (d.forgetGeneration key) := by
  unfold forgetGeneration
  split
  · exact ⟨.of_eq rfl, rfl, rfl, rfl, rfl, rfl, rfl⟩
  · exact .refl d

theorem foldl_settleEntry_flows (k : String) (owner : Owner) (l : List Nat) (d : Debouncer Item) :
    Flows key es d (l.foldl (settleEntry k owner) d) := by
  induction l generalizing d with
  | nil => exact (Still.refl d).flows
  | cons e l ih => exact (settleEntry_flows k owner d e).trans (ih _)

theorem settleEntries_flows (k : String) (l : List Nat) (owner : Owner) (d : Debouncer Item) :
    Flows key es d (d.settleEntries k l owner) :=
  (foldl_settleEntry_flows k owner l d).trans (forgetGeneration_still _ k).flows

/-- The index of a key takes in entries of `es`, and nothing else moves. -/
theorem Flows.track (hentries : d'.entries = d.entries) (hwaiting : d'.waiting = d.waiting)
    (hbuckets : d'.buckets = d.buckets) (hchains : d'.chains = d.chains)
    (hcancel : d'.cancellations = d.cancellations) (hflushed : d'.flushed = d.flushed)
    (hactive : ∀ k e, e ∈ d'.activeEntries k → e ∈ d.activeEntries k ∨ k = key ∧ e ∈ es) :
    Flows key es d d' := by
  have hw (k : String) : d'.waitingEntries k = d.waitingEntries k := by
    rw [waitingEntries, waitingEntries, hwaiting, hbuckets]
  refine ⟨.of_eq hentries, fun hf => ?_, fun k => .inl (hw k), hactive, ?_, ?_⟩
  · rwa [Filed, hwaiting, hbuckets]
  · rintro k e (he | he | he)
    · exact (hactive k e he).imp_left .inl
    · exact .inl (.inr (.inl (by rwa [InChain, ← hchains])))
    · exact .inl (.inr (.inr (by rwa [InCancellation, ← hcancel])))
  · intro l hl
    left
    simpa only [Handed, hflushed, hw, hchains] using hl

theorem activeEntries_indexInflight {e' : Nat} (h : e' ∈ (d.indexInflight key e).activeEntries k) :
    e' ∈ d.activeEntries k ∨ k = key ∧ e' = e := by
  simp only [activeEntries, indexInflight, OrderedMap.get_set_eq] at h ⊢
  split at h
  · rename_i hk
    subst hk
    rw [Option.map_some, Option.getD_some, OrderedMap.mem_keys, OrderedSet.add,
      OrderedMap.has_set_eq] at h
    cases hget : d.inflightByKey.get k with
    | none => simpa [hget] using h
    | some keyed =>
      simp only [hget, Option.getD_some, Bool.or_eq_true, decide_eq_true_eq] at h
      rcases h with h | h
      · exact .inr ⟨rfl, h⟩
      · exact .inl (OrderedMap.mem_keys.mpr h)
  · exact .inl h

theorem indexInflight_flows (d : Debouncer Item) (he : e ∈ es) :
    Flows key es d (d.indexInflight key e) := by
  refine Flows.track rfl rfl rfl rfl rfl rfl fun k e' he' => ?_
  exact (activeEntries_indexInflight he').imp_right fun ⟨hk, heq⟩ => ⟨hk, heq ▸ he⟩

theorem still_ledger (d : Debouncer Item) (ledger : Ledger) : Still d { d with ledger } :=
  ⟨.of_eq rfl, rfl, rfl, rfl, rfl, rfl, rfl⟩

/-- `trackInflight` takes in the entries it is given, or, when it throws, some of them. -/
theorem trackEntries_flows (key : String) (l : List Nat) (d : Debouncer Item) (hl : ∀ e ∈ l, e ∈ es) :
    Flows key es d (trackEntries key l d).2 := by
  induction l generalizing d with
  | nil => exact (Still.refl d).flows
  | cons e l ih =>
    have hhead : Flows key es d _ := d.indexInflight_flows (hl e List.mem_cons_self)
    have htail (d : Debouncer Item) := ih d fun e he => hl e (.tail _ he)
    unfold trackEntries
    dsimp only
    split
    · exact hhead.trans (htail _)
    · split
      · exact hhead.trans (htail _)
      · split
        · exact hhead
        · rename_i ledger _
          exact (hhead.trans (still_ledger _ ledger).flows).trans (htail _)

theorem activeEntries_indexKey (d : Debouncer Item) (key k : String) :
    (d.indexKey key).activeEntries k = d.activeEntries k := by
  unfold indexKey
  split
  · rfl
  · rename_i hhas
    have hnone : d.inflightByKey.get key = none :=
      OrderedMap.has_eq_false_iff.mp (Bool.not_eq_true _ ▸ hhas)
    simp only [activeEntries, OrderedMap.get_set_eq]
    split
    · rename_i hk
      subst hk
      rw [hnone]
      rfl
    · rfl

theorem indexKey_flows (d : Debouncer Item) (k : String) : Flows key es d (d.indexKey k) := by
  have hactive := d.activeEntries_indexKey k
  unfold indexKey at hactive ⊢
  split
  · exact (Still.refl d).flows
  · rename_i hhas
    rw [if_neg hhas] at hactive
    refine Flows.untrack ?_ rfl rfl rfl rfl rfl ?_
    · exact .of_eq rfl
    · intro k e he
      rwa [hactive k] at he

theorem trackInflight_flows (d : Debouncer Item) (key : String) (es : List Nat) :
    Flows key es d (d.trackInflight key es).2 :=
  (d.indexKey_flows key).trans (trackEntries_flows key es _ fun _ => id)

/-- A chain is replaced by one that holds no other entries. -/
theorem setChain_flows (d : Debouncer Item) {chain : KeyWorker}
    (hqueued : ∀ batch ∈ chain.queued, ∀ e ∈ batch.entries, d.InChain k e ∨ k = key ∧ e ∈ es)
    (hrunning : ∀ running, chain.running = some running → ∀ e ∈ running.entries,
      d.InChain k e ∨ k = key ∧ e ∈ es)
    (hhanded : ∀ batch ∈ chain.queued, d.Handed batch.entries ∨ batch.entries = es) :
    Flows key es d (d.setChain k chain) := by
  refine ⟨.of_eq rfl, id, fun _ => .inl rfl, fun _ _ => .inl, ?_, ?_⟩
  · rintro k' e (he | ⟨chain', hget, he⟩ | he)
    · exact .inl (.inl he)
    · simp only [setChain, OrderedMap.get_set_eq] at hget
      split at hget
      · rename_i hk
        subst hk
        obtain rfl := Option.some.inj hget
        rcases he with ⟨batch, hb, he⟩ | ⟨running, hr, he⟩
        · exact (hqueued batch hb e he).imp_left (.inr ∘ .inl)
        · exact (hrunning running hr e he).imp_left (.inr ∘ .inl)
      · exact .inl (.inr (.inl ⟨chain', hget, he⟩))
    · exact .inl (.inr (.inr he))
  · rintro l (rfl | hl | hl | ⟨k', chain', hget, batch, hb, rfl⟩)
    · exact .inl (.inl rfl)
    · exact .inl (.inr (.inl hl))
    · exact .inl (.inr (.inr (.inl hl)))
    · simp only [setChain, OrderedMap.get_set_eq] at hget
      split at hget
      · obtain rfl := Option.some.inj hget
        exact hhanded batch hb
      · exact .inl (.inr (.inr (.inr ⟨k', chain', hget, batch, hb, rfl⟩)))

theorem handed_queued {chain : KeyWorker} {batch : FlushBatch} (hget : d.chains.get k = some chain)
    (hb : batch ∈ chain.queued) : d.Handed batch.entries :=
  .inr (.inr (.inr ⟨k, chain, hget, batch, hb, rfl⟩))

/-- The worker takes the next batch off the queue. -/
theorem setChain_next_flows {chain : KeyWorker} {batch : FlushBatch} {queued : List FlushBatch}
    (hget : d.chains.get k = some chain) (hq : chain.queued = batch :: queued)
    (holds : List (Nat × Nat)) (tracked : List Nat) (worker : Worker) :
    Flows key es d (d.setChain k ⟨queued, some ⟨batch.entries, holds, tracked⟩, worker⟩) := by
  apply setChain_flows
  · intro b hb e he
    exact .inl ⟨chain, hget, .inl ⟨b, hq ▸ .tail _ hb, he⟩⟩
  · intro running hr e he
    obtain rfl := Option.some.inj hr
    exact .inl ⟨chain, hget, .inl ⟨batch, hq ▸ .head _, he⟩⟩
  · exact fun b hb => .inl (handed_queued hget (hq ▸ .tail _ hb))

theorem startFlush_flows {chain : KeyWorker} {batch : FlushBatch} {queued : List FlushBatch}
    (hget : d.chains.get k = some chain) (hq : chain.queued = batch :: queued) :
    Flows key es d (d.startFlush k queued batch) := by
  unfold startFlush
  dsimp only
  split
  · split
    · rename_i ledger _
      refine (still_ledger d ledger).flows.trans (Flows.trans ?_ (settleEntries_flows ..))
      exact setChain_next_flows (d := { d with ledger }) hget hq [] [] .returning
    · rename_i holds ledger _
      let d₁ : Debouncer Item :=
        { ({ d with ledger } : Debouncer Item).trackRunningCallback k batch.entries with
          flushed := d.flushed ++ [batch.entries] }
      have hhand : Flows key es d d₁ := by
        refine ⟨.of_eq rfl, id, fun _ => .inl rfl, fun _ _ => .inl, fun _ _ => .inl, ?_⟩
        rintro l (rfl | hl | hl | hl)
        · exact .inl (.inl rfl)
        · rcases List.mem_append.mp hl with hl | hl
          · exact .inl (.inr (.inl hl))
          · rw [List.mem_singleton.mp hl]
            exact .inl (handed_queued hget (hq ▸ .head _))
        · exact .inl (.inr (.inr (.inl hl)))
        · exact .inl (.inr (.inr (.inr hl)))
      exact hhand.trans (setChain_next_flows (d := d₁) hget hq holds batch.entries .awaiting)
  · exact Flows.trans (setChain_next_flows hget hq [] [] .returning) (settleEntries_flows ..)

theorem workerNext_flows {chain : KeyWorker} (hget : d.chains.get k = some chain) :
    Flows key es d (d.workerNext k chain) := by
  unfold workerNext
  split
  · apply setChain_flows
    · simp
    · simp
    · simp
  · exact startFlush_flows hget ‹_›

/-- A chain keeps its batches, or loses some. -/
theorem setChain_keep_flows {chain chain' : KeyWorker} (hget : d.chains.get k = some chain)
    (hqueued : ∀ batch ∈ chain'.queued, batch ∈ chain.queued)
    (hrunning : ∀ running', chain'.running = some running' → running'.entries = [] ∨
      ∃ running, chain.running = some running ∧ running.entries = running'.entries) :
    Flows key es d (d.setChain k chain') := by
  apply setChain_flows
  · exact fun b hb e he => .inl ⟨chain, hget, .inl ⟨b, hqueued b hb, he⟩⟩
  · intro running' hr e he
    rcases hrunning running' hr with hnil | ⟨running, hrun, hentries⟩
    · rw [hnil] at he
      cases he
    · exact .inl ⟨chain, hget, .inr ⟨running, hrun, hentries ▸ he⟩⟩
  · exact fun b hb => .inl (handed_queued hget (hqueued b hb))

theorem forgetGeneration_chains (d : Debouncer Item) (key : String) :
    (d.forgetGeneration key).chains = d.chains := (d.forgetGeneration_still key).chains

theorem settleEntry_chains (owner : Owner) (d : Debouncer Item) (e : Nat) :
    (settleEntry key owner d e).chains = d.chains := by
  by_cases h : ∃ E, d.entries.get e = some E ∧ ¬ (owner = .flush ∧ E.cancellationPending = true)
  · obtain ⟨E, hE, hskip⟩ := h
    rw [settleEntry_eq hE hskip]
  · rw [settleEntry_skip (by simpa using h)]

theorem settleEntries_chains (owner : Owner) (l : List Nat) (d : Debouncer Item) :
    (d.settleEntries key l owner).chains = d.chains := by
  rw [settleEntries, forgetGeneration_chains]
  induction l generalizing d with
  | nil => rfl
  | cons e l ih => rw [List.foldl_cons, ih, settleEntry_chains]

theorem workerEnded_flows {chain : KeyWorker} (hget : d.chains.get k = some chain) :
    Flows key es d (d.workerEnded k chain) := by
  unfold workerEnded
  split
  · exact setChain_keep_flows hget (fun _ => id) fun running' hr => .inr ⟨running', hr, rfl⟩
  · have hdelete : Flows key es d { d with chains := d.chains.delete k } := by
      refine ⟨.of_eq rfl, id, fun _ => .inl rfl, fun _ _ => .inl, ?_, ?_⟩
      · rintro k' e (he | ⟨chain', hget', he⟩ | he)
        · exact .inl (.inl he)
        · simp only [OrderedMap.get_delete_eq] at hget'
          split at hget'
          · cases hget'
          · exact .inl (.inr (.inl ⟨chain', hget', he⟩))
        · exact .inl (.inr (.inr he))
      · rintro l (rfl | hl | hl | ⟨k', chain', hget', hb⟩)
        · exact .inl (.inl rfl)
        · exact .inl (.inr (.inl hl))
        · exact .inl (.inr (.inr (.inl hl)))
        · simp only [OrderedMap.get_delete_eq] at hget'
          split at hget'
          · cases hget'
          · exact .inl (.inr (.inr (.inr ⟨k', chain', hget', hb⟩)))
    dsimp only
    split
    · exact hdelete.trans (Still.flows ⟨.of_eq rfl, rfl, rfl, rfl, rfl, rfl, rfl⟩)
    · exact hdelete

theorem enqueueBatch_flows (d : Debouncer Item) (key : String) (es : List Nat) (generation : Nat) :
    Flows key es d (d.enqueueBatch key ⟨es, generation⟩) := by
  unfold enqueueBatch
  dsimp only
  cases hget : d.chains.get key with
  | none =>
    apply setChain_flows
    · intro b hb e he
      obtain rfl : b = ⟨es, generation⟩ := by simpa using hb
      exact .inr ⟨rfl, he⟩
    · simp
    · intro b hb
      obtain rfl : b = ⟨es, generation⟩ := by simpa using hb
      exact .inr rfl
  | some chain =>
    rw [Option.getD_some]
    apply setChain_flows
    · intro b hb e he
      rcases List.mem_append.mp hb with hb | hb
      · exact .inl ⟨chain, hget, .inl ⟨b, hb, he⟩⟩
      · obtain rfl := List.mem_singleton.mp hb
        exact .inr ⟨rfl, he⟩
    · exact fun running hr e he => .inl ⟨chain, hget, .inr ⟨running, hr, he⟩⟩
    · intro b hb
      rcases List.mem_append.mp hb with hb | hb
      · exact .inl (handed_queued hget hb)
      · obtain rfl := List.mem_singleton.mp hb
        exact .inr rfl

/-! ### Buckets -/

/-- A bucket is taken off its key. -/
theorem waitingEntries_drop (hf : d.Filed) {b : Nat} (hb : d.waiting.get key = some b) (k : String) :
    waitingEntries { d with
      waiting := d.waiting.delete key
      buckets := d.buckets.update b ({ · with entries := [] }) } k =
      if k = key then [] else d.waitingEntries k := by
  simp only [waitingEntries, OrderedMap.get_delete_eq]
  split
  · rfl
  · rename_i hk
    cases hget : d.waiting.get k with
    | none => rfl
    | some b' =>
      obtain ⟨bucket, hbucket, hkey⟩ := hf key b hb
      obtain ⟨bucket', hbucket', hkey'⟩ := hf k b' hget
      have hne : b' ≠ b := by
        rintro rfl
        obtain rfl := Option.some.inj (hbucket.symm.trans hbucket')
        exact hk (hkey'.symm.trans hkey)
      simp only [Option.bind_some, Heap.get_update_of_ne hne]

variable (key es) in
theorem drop_flows (hf : d.Filed) {b : Nat} (hb : d.waiting.get k = some b) :
    Flows key es d { d with
      waiting := d.waiting.delete k
      buckets := d.buckets.update b ({ · with entries := [] }) } := by
  have hw := waitingEntries_drop hf hb
  refine ⟨.of_eq rfl, fun _ => ?_, fun k => ?_, fun _ _ => .inl, fun _ _ => .inl, ?_⟩
  · intro k b' hget
    simp only [OrderedMap.get_delete_eq] at hget
    split at hget
    · cases hget
    · obtain ⟨bucket, hbucket, hkey⟩ := hf k b' hget
      simp only [Heap.get_update, hbucket]
      split
      · exact ⟨_, rfl, hkey⟩
      · exact ⟨bucket, rfl, hkey⟩
  · rw [hw k]
    split
    · exact .inr rfl
    · exact .inl rfl
  · rintro l (rfl | hl | ⟨k, rfl⟩ | hl)
    · exact .inl (.inl rfl)
    · exact .inl (.inr (.inl hl))
    · rw [hw k]
      split
      · exact .inl (.inl rfl)
      · exact .inl (.inr (.inr (.inl ⟨k, rfl⟩)))
    · exact .inl (.inr (.inr (.inr hl)))

theorem dropBucket_flows (hf : d.Filed) (k : String) : Flows key es d (d.dropBucket k) := by
  unfold dropBucket
  split
  · exact (Still.refl d).flows
  · exact drop_flows _ _ hf ‹_›

theorem waitingEntries_dropBucket (hf : d.Filed) (key k : String) :
    (d.dropBucket key).waitingEntries k = if k = key then [] else d.waitingEntries k := by
  unfold dropBucket
  split
  · rename_i hget
    split
    · rename_i hk
      subst hk
      simp [waitingEntries, hget]
    · rfl
  · exact waitingEntries_drop hf ‹_› k

/-- The entries of a bucket become a batch and are tracked in flight. -/
theorem detachAndQueue_flows (hf : d.Filed) {b : Nat} {bucket : Waiting}
    (hbucket : d.buckets.get b = some bucket) (hb : d.waiting.get bucket.key = some b) :
    d.waitingEntries bucket.key = bucket.entries ∧
    (d.detachAndQueue b bucket).2.waitingEntries bucket.key = [] ∧
    Flows bucket.key bucket.entries d (d.detachAndQueue b bucket).2 := by
  have hentries : d.waitingEntries bucket.key = bucket.entries := by
    simp [waitingEntries, hb, hbucket]
  have hdrop : Flows bucket.key bucket.entries d _ := drop_flows _ _ hf hb
  have hnil := (waitingEntries_drop hf hb bucket.key).trans (if_pos rfl)
  have hflows : Flows bucket.key bucket.entries { d with
      waiting := d.waiting.delete bucket.key
      buckets := d.buckets.update b ({ · with entries := [] }) } (d.detachAndQueue b bucket).2 := by
    unfold detachAndQueue
    rw [if_neg (not_not.mpr hb)]
    dsimp only
    have htrack := trackInflight_flows { d with
      waiting := d.waiting.delete bucket.key
      buckets := d.buckets.update b ({ · with entries := [] }) } bucket.key bucket.entries
    split
    · rename_i fault d₁ heq
      rw [heq] at htrack
      exact htrack
    · rename_i d₁ heq
      rw [heq] at htrack
      exact htrack.trans (enqueueBatch_flows d₁ bucket.key bucket.entries _)
  refine ⟨hentries, ?_, hdrop.trans hflows⟩
  rcases hflows.waiting bucket.key with h | h
  · rw [h, hnil]
  · exact h

/-! ### Cancellation -/

theorem updateEntry_still (d : Debouncer Item) (e : Nat) {f : Entry Item → Entry Item}
    (hid : ∀ E, (f E).id = E.id) (hkey : ∀ E, (f E).key = E.key)
    (hitem : ∀ E, (f E).item = E.item) (hres : ∀ E, (f E).reservation = E.reservation) :
    Still d (d.updateEntry e f) :=
  ⟨.of_update rfl hid hkey hitem hres, rfl, rfl, rfl, rfl, rfl, rfl⟩

theorem pin_still (d : Debouncer Item) (e : Nat) : Still d (d.pin e).2 := by
  have hupd (d : Debouncer Item) {f : Entry Item → Entry Item} (hid : ∀ E, (f E).id = E.id)
      (hkey : ∀ E, (f E).key = E.key) (hitem : ∀ E, (f E).item = E.item)
      (hres : ∀ E, (f E).reservation = E.reservation) : Still d (d.updateEntry e f) :=
    d.updateEntry_still e hid hkey hitem hres
  unfold pin
  split
  · exact .refl d
  · dsimp only
    have hflags := hupd d (f := ({ · with cancellationRequested := true, cancellationPending := true }))
      (fun _ => rfl) (fun _ => rfl) (fun _ => rfl) fun _ => rfl
    split
    · exact hflags.trans (hupd _ (fun _ => rfl) (fun _ => rfl) (fun _ => rfl) fun _ => rfl)
    · split
      · exact hflags
      · exact (hflags.trans (still_ledger _ _)).trans
          (hupd _ (fun _ => rfl) (fun _ => rfl) (fun _ => rfl) fun _ => rfl)

theorem pinAll_still (l : List Nat) (d : Debouncer Item) : Still d (pinAll l d).2 := by
  induction l generalizing d with
  | nil => exact .refl d
  | cons e l ih =>
    have hpin := d.pin_still e
    unfold pinAll
    split
    · rename_i fault d₁ heq
      rw [heq] at hpin
      exact hpin
    · rename_i d₁ heq
      rw [heq] at hpin
      exact hpin.trans (ih d₁)

/-- A cancellation batch is made of entries that were known before. -/
theorem Flows.schedule (h : Flows key es d d') {l : List Nat}
    (hl : ∀ e ∈ l, d.Detached k e ∨ k = key ∧ e ∈ es) :
    Flows key es d (d'.scheduleCancellation k l) := by
  refine ⟨h.keeps, h.filed, h.waiting, h.active, ?_, h.handed⟩
  rintro k' e (he | he | ⟨c, batch, hget, hkey, he⟩)
  · exact h.detached k' e (.inl he)
  · exact h.detached k' e (.inr (.inl he))
  · rcases Heap.get_alloc_cases hget with ⟨-, rfl⟩ | hget
    · obtain rfl : k = k' := hkey
      rcases he with he | he
      · exact hl e he
      · cases he
    · exact h.detached k' e (.inr (.inr ⟨c, batch, hget, hkey, he⟩))

/-- Cancellation batches change their entries into callback entries, or lose them. -/
theorem Flows.cancellations (hkeeps : Keeps d d') (hwaiting : d'.waiting = d.waiting)
    (hbuckets : d'.buckets = d.buckets) (hchains : d'.chains = d.chains)
    (hactive : d'.inflightByKey = d.inflightByKey) (hflushed : d'.flushed = d.flushed)
    (hcancel : ∀ c batch', d'.cancellations.get c = some batch' →
      ∃ batch, d.cancellations.get c = some batch ∧ batch'.key = batch.key ∧
        ∀ e, e ∈ batch'.entries ∨ e ∈ batch'.callbackEntries →
          e ∈ batch.entries ∨ e ∈ batch.callbackEntries) :
    Flows key es d d' := by
  have hw (k : String) : d'.waitingEntries k = d.waitingEntries k := by
    rw [waitingEntries, waitingEntries, hwaiting, hbuckets]
  have ha (k : String) : d'.activeEntries k = d.activeEntries k := by
    rw [activeEntries, activeEntries, hactive]
  refine ⟨hkeeps, fun hf => ?_, fun k => .inl (hw k), fun k e he => .inl (ha k ▸ he), ?_, ?_⟩
  · rwa [Filed, hwaiting, hbuckets]
  · rintro k e (he | he | ⟨c, batch', hget, hkey, he⟩)
    · exact .inl (.inl (ha k ▸ he))
    · exact .inl (.inr (.inl (by rwa [InChain, ← hchains])))
    · obtain ⟨batch, hbatch, hk, hsub⟩ := hcancel c batch' hget
      exact .inl (.inr (.inr ⟨c, batch, hbatch, hk.symm.trans hkey, hsub e he⟩))
  · intro l hl
    left
    simpa only [Handed, hflushed, hw, hchains] using hl

theorem clearCapturedBatches_flows (d : Debouncer Item) (k : String) :
    Flows key es d (d.clearCapturedBatches k) := by
  unfold clearCapturedBatches
  split
  · exact (Still.refl d).flows
  · rename_i chain hget
    refine setChain_keep_flows hget (fun _ hb => by cases hb) ?_
    intro running' hr
    obtain ⟨running, -, rfl⟩ := Option.map_eq_some_iff.mp hr
    exact .inl rfl

theorem clearQueuedCancellationBatches_flows (d : Debouncer Item) (k : String) :
    Flows key es d (d.clearQueuedCancellationBatches k) := by
  unfold clearQueuedCancellationBatches
  split
  · exact (Still.refl d).flows
  · refine Flows.cancellations (.of_eq rfl) rfl rfl rfl rfl rfl ?_
    intro c batch' hget
    dsimp only at hget
    rw [Heap.get_updateAll] at hget
    · split at hget
      · obtain ⟨batch, hbatch, rfl⟩ := Option.map_eq_some_iff.mp hget
        refine ⟨batch, hbatch, ?_, fun e he => ?_⟩
        · split <;> rfl
        · split at he
          · exact he
          · exact he.elim (fun he => by cases he) .inr
      · exact ⟨batch', hget, rfl, fun _ => id⟩
    · intro batch
      by_cases hs : batch.started = true <;> simp [hs]

theorem mem_exactUnion : e ∈ d.exactUnion key ↔ e ∈ d.activeEntries key ∨ e ∈ d.waitingEntries key := by
  rw [exactUnion, OrderedSet.mem_keys_ofList, List.mem_append]

theorem newlyCancelled_subset {notify : Option Bool} (h : e ∈ d.newlyCancelled key notify) :
    e ∈ d.activeEntries key ∨ e ∈ d.waitingEntries key := by
  unfold newlyCancelled at h
  split at h
  · exact mem_exactUnion.mp (List.mem_of_mem_filter h)
  · exact mem_exactUnion.mp h

theorem notifyCancelled_flows (h : Flows key es d d') {l : List Nat}
    (hl : ∀ e ∈ l, d.Detached key e ∨ e ∈ es) :
    Flows key es d (d'.notifyCancelled key es l).2 := by
  have hpin : Flows key es d (pinAll l d').2 := h.trans (pinAll_still l d').flows
  unfold notifyCancelled
  split
  · rename_i fault d₁ heq
    rw [heq] at hpin
    exact hpin
  · rename_i d₁ heq
    rw [heq] at hpin
    have htrack := hpin.trans (d₁.trackInflight_flows key es)
    split
    · rename_i fault d₂ heq₂
      rw [heq₂] at htrack
      exact htrack
    · rename_i d₂ heq₂
      rw [heq₂] at htrack
      exact (htrack.schedule fun e he => (hl e he).imp_right (⟨rfl, ·⟩)).trans
        (forgetGeneration_still _ key).flows

theorem settleCancelled_flows (d : Debouncer Item) (k : String) (l : List Nat) (retire : Bool) :
    Flows key es d (d.settleCancelled k l retire) := by
  unfold settleCancelled
  split
  · refine (settleEntries_flows k l .retire d).trans (Flows.trans ?_ (forgetGeneration_still _ k).flows)
    exact (clearCapturedBatches_flows _ k).trans (clearQueuedCancellationBatches_flows _ k)
  · exact (settleEntries_flows k l .cancel d).trans (forgetGeneration_still _ k).flows

/-- `cancelKey` takes the bucket of the key away, or does nothing. -/
theorem cancelKey_flows (hf : d.Filed) (options : Options Item) (key : String)
    (notify : Option Bool) : (d.cancelKey options key notify).2 = d ∨
    Flows key (d.waitingEntries key) d (d.cancelKey options key notify).2 ∧
    (d.cancelKey options key notify).2.waitingEntries key = [] := by
  unfold cancelKey
  dsimp only
  split
  · exact .inl rfl
  · right
    have hdrop : Flows key (d.waitingEntries key) d ((d.dropBucket key).bumpGeneration key) :=
      (dropBucket_flows hf key).trans (Still.flows ⟨.of_eq rfl, rfl, rfl, rfl, rfl, rfl, rfl⟩)
    have hnil : ((d.dropBucket key).bumpGeneration key).waitingEntries key = [] :=
      (waitingEntries_dropBucket hf key key).trans (if_pos rfl)
    have hgone : ∀ {d'}, Flows key (d.waitingEntries key)
        ((d.dropBucket key).bumpGeneration key) d' → d'.waitingEntries key = [] := by
      intro d' h
      rcases h.waiting key with hw | hw
      · rw [hw, hnil]
      · exact hw
    have hactive : ((d.dropBucket key).bumpGeneration key).activeEntries key =
        d.activeEntries key := by
      unfold dropBucket
      split <;> rfl
    split
    · refine ⟨notifyCancelled_flows hdrop fun e he => ?_,
        hgone (notifyCancelled_flows (Still.refl _).flows fun e he => ?_)⟩
      · exact (newlyCancelled_subset he).imp_left .inl
      · rw [Detached, hactive]
        exact (newlyCancelled_subset he).imp_left .inl
    · have hsettle : Flows key (d.waitingEntries key) _ _ := settleCancelled_flows
        ((d.dropBucket key).bumpGeneration key) key (d.newlyCancelled key notify) (notify = some false)
      exact ⟨hdrop.trans hsettle, hgone hsettle⟩

theorem cancelStart_flows {c : Nat} {batch : CancellationBatch}
    (hget : d.cancellations.get c = some batch) : Flows key es d (d.cancelStart c batch) := by
  have hstart (phase : CancelPhase) : ∀ c' batch', (d.cancellations.update c fun batch =>
      { batch with started := true, entries := [], callbackEntries := batch.entries, phase }).get c' =
        some batch' → ∃ batch, d.cancellations.get c' = some batch ∧ batch'.key = batch.key ∧
          ∀ e, e ∈ batch'.entries ∨ e ∈ batch'.callbackEntries →
            e ∈ batch.entries ∨ e ∈ batch.callbackEntries := by
    intro c' batch' h
    rcases Heap.get_update_cases h with ⟨rfl, b, hb, rfl⟩ | ⟨-, h⟩
    · exact ⟨b, hb, rfl, fun e he => he.elim (fun he => by cases he) .inl⟩
    · exact ⟨batch', h, rfl, fun _ => id⟩
  unfold cancelStart
  dsimp only
  split
  · exact Flows.cancellations (.of_eq rfl) rfl rfl rfl rfl rfl (hstart .done)
  · refine Flows.cancellations ?_ rfl rfl rfl rfl rfl (hstart .awaiting)
    exact Keeps.of_updateAll rfl (fun _ => rfl) (fun _ => rfl) (fun _ => rfl) (fun _ => rfl)
      fun _ => rfl

theorem cancelSettled_flows {c : Nat} {batch : CancellationBatch} :
    Flows key es d (d.cancelSettled c batch) := by
  unfold cancelSettled
  refine Flows.trans ?_ (settleEntries_flows ..)
  refine Flows.cancellations ?_ rfl rfl rfl rfl rfl ?_
  · exact Keeps.of_updateAll rfl (fun _ => rfl) (fun _ => rfl) (fun _ => rfl) (fun _ => rfl)
      fun _ => rfl
  · intro c' batch' h
    rcases Heap.get_update_cases h with ⟨rfl, b, hb, rfl⟩ | ⟨-, h⟩
    · exact ⟨b, hb, rfl, fun _ => id⟩
    · exact ⟨batch', h, rfl, fun _ => id⟩

/-! ### Disposal -/

theorem foldl_flows {α : Type} {f : Debouncer Item → α → Debouncer Item}
    (hf : ∀ d a, Flows key es d (f d a)) (l : List α) (d : Debouncer Item) :
    Flows key es d (l.foldl f d) := by
  induction l generalizing d with
  | nil => exact (Still.refl d).flows
  | cons a l ih => exact (hf d a).trans (ih _)

theorem disposeBuckets_flows (l : List (String × Nat)) (n : Nat) (d : Debouncer Item) :
    Flows key es d (l.foldl disposeBucket (n, d)).2 := by
  induction l generalizing n d with
  | nil => exact (Still.refl d).flows
  | cons bucket l ih =>
    have hbump : Still d (d.bumpGeneration bucket.1) := ⟨.of_eq rfl, rfl, rfl, rfl, rfl, rfl, rfl⟩
    exact (hbump.flows.trans (settleEntries_flows ..)).trans (ih _ _)

theorem clearWaiting_flows (d : Debouncer Item) : Flows key es d { d with waiting := .empty } := by
  refine ⟨.of_eq rfl, fun _ => ?_, fun k => .inr rfl, fun _ _ => .inl, fun _ _ => .inl, ?_⟩
  · intro k b hget
    cases hget
  · rintro l (rfl | hl | ⟨k, rfl⟩ | hl)
    · exact .inl (.inl rfl)
    · exact .inl (.inr (.inl hl))
    · exact .inl (.inl rfl)
    · exact .inl (.inr (.inr (.inr hl)))

theorem retireActive_flows (d : Debouncer Item) (active : String × Nat) :
    Flows key es d (retireActive d active) := settleEntries_flows active.1 [active.2] .retire d

/-- What `dispose` does after everything in flight has been retired. -/
theorem clearAll_flows (d : Debouncer Item) :
    Flows key es d ((d.chains.keys.foldl clearCapturedBatches d).cancellationBatches.keys.foldl
      clearQueuedCancellationBatches (d.chains.keys.foldl clearCapturedBatches d)) :=
  (foldl_flows clearCapturedBatches_flows _ d).trans
    (foldl_flows clearQueuedCancellationBatches_flows _ _)

theorem retireAll_flows (d : Debouncer Item) : Flows key es d d.retireAll :=
  (foldl_flows retireActive_flows d.activeAll d).trans (clearAll_flows _)

theorem dispose_flows (d : Debouncer Item) : Flows key es d d.dispose.2 := by
  have hstart : Still d { d with disposed := true } := ⟨.of_eq rfl, rfl, rfl, rfl, rfl, rfl, rfl⟩
  have hids (d : Debouncer Item) : Still d { d with inflightIds := .empty } :=
    ⟨.of_eq rfl, rfl, rfl, rfl, rfl, rfl, rfl⟩
  have hwaiting : Flows key es d _ := hstart.flows.trans (disposeBuckets_flows d.waiting.entries 0 _)
  unfold dispose
  split
  · exact (Still.refl d).flows
  · exact (hwaiting.trans (clearWaiting_flows _)).trans ((retireAll_flows _).trans (hids _).flows)

end Debouncer

end Webchannel.Debounce
