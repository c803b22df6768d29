import Webchannel.Debounce.Uniqueness
import Webchannel.Lib.Runs

/-!
# Activity during a flush

An entry is active while its generation is the current one of its key. The counter of a key is dropped when nothing of
the key is left, and starts again from zero; but while an entry waits, is queued or is being flushed it only grows, so an
entry that is no longer active stays so until its flush has settled.
-/

namespace Webchannel.Debounce

open Webchannel.Retention Webchannel.Runs

namespace Debouncer

variable {Item : Type} {d d' d'' : Debouncer Item} {key k : String} {e : Nat} {es : List Nat}

/-! ### Operations that only let time pass -/

/-- An entry keeps its key and generation, and a cancellation is not taken back. -/
def Ageing (h h' : Heap (Entry Item)) : Prop :=
  ∀ e E, h.get e = some E → ∃ E', h'.get e = some E' ∧ E'.key = E.key ∧ E'.generation = E.generation ∧
    (E.cancellationRequested = true → E'.cancellationRequested = true)

/-- A chain stays where it is; batches may leave its queue. -/
structure SameChain (chain chain' : KeyWorker) : Prop where
  worker : chain'.worker = chain.worker
  running : chain'.running.map Running.tracked = chain.running.map Running.tracked
  queued : ∀ batch ∈ chain'.queued, batch ∈ chain.queued

/-- Nothing is taken in and no worker moves; a counter that goes down is one of a key that holds nothing. -/
structure Ages (d d' : Debouncer Item) : Prop where
  entries : Ageing d.entries d'.entries
  disposed : d.disposed = true → d'.disposed = true
  waiting : ∀ k, d'.waiting.has k = true → d.waiting.has k = true
  waitingEntries : ∀ k, ∀ e ∈ d'.waitingEntries k, e ∈ d.waitingEntries k
  noChain : ∀ k, d.chains.get k = none → d'.chains.get k = none
  chain : ∀ k chain, d.chains.get k = some chain → ∃ chain', d'.chains.get k = some chain' ∧ SameChain chain chain'
  generation : ∀ k, d.generation k ≤ d'.generation k ∨ d'.chains.has k = false ∧ d'.waiting.has k = false

theorem Ageing.refl (h : Heap (Entry Item)) : Ageing h h := fun _ E hE => ⟨E, hE, rfl, rfl, id⟩

theorem Ageing.trans {h h' h'' : Heap (Entry Item)} (a : Ageing h h') (a' : Ageing h' h'') : Ageing h h'' := by
  intro e E hE
  obtain ⟨E', hE', hkey, hgen, hcancel⟩ := a e E hE
  obtain ⟨E'', hE'', hkey', hgen', hcancel'⟩ := a' e E' hE'
  exact ⟨E'', hE'', hkey'.trans hkey, hgen'.trans hgen, hcancel' ∘ hcancel⟩

theorem Ageing.update {f : Entry Item → Entry Item} (h : Heap (Entry Item)) (e : Nat) (hkey : ∀ E, (f E).key = E.key)
    (hgen : ∀ E, (f E).generation = E.generation)
    (hcancel : ∀ E, E.cancellationRequested = true → (f E).cancellationRequested = true) : Ageing h (h.update e f) := by
  intro e' E hE
  by_cases he : e' = e
  · subst he
    exact ⟨f E, Heap.get_update_self hE, hkey E, hgen E, hcancel E⟩
  · exact ⟨E, (Heap.get_update_of_ne he).trans hE, rfl, rfl, id⟩

theorem SameChain.refl (chain : KeyWorker) : SameChain chain chain := ⟨rfl, rfl, fun _ => id⟩

theorem SameChain.trans {chain chain' chain'' : KeyWorker} (h : SameChain chain chain') (h' : SameChain chain' chain'') :
    SameChain chain chain'' :=
  ⟨h'.worker.trans h.worker, h'.running.trans h.running, fun batch hb => h.queued batch (h'.queued batch hb)⟩

theorem Ages.trans (h : Ages d d') (h' : Ages d' d'') : Ages d d'' where
  entries := h.entries.trans h'.entries
  disposed := h'.disposed ∘ h.disposed
  waiting k := h.waiting k ∘ h'.waiting k
  waitingEntries k e he := h.waitingEntries k e (h'.waitingEntries k e he)
  noChain k := h'.noChain k ∘ h.noChain k
  chain k chain hc := by
    obtain ⟨chain', hc', hsame⟩ := h.chain k chain hc
    obtain ⟨chain'', hc'', hsame'⟩ := h'.chain k chain' hc'
    exact ⟨chain'', hc'', hsame.trans hsame'⟩
  generation k := by
    obtain hle' | hgone' := h'.generation k
    · obtain hle | ⟨hchain, hwaiting⟩ := h.generation k
      · exact .inl (Nat.le_trans hle hle')
      -- What held nothing holds nothing.
      · refine .inr ⟨?_, Bool.eq_false_iff.mpr fun hw => Bool.eq_false_iff.mp hwaiting (h'.waiting k hw)⟩
        exact OrderedMap.has_eq_false_iff.mpr (h'.noChain k (OrderedMap.has_eq_false_iff.mp hchain))
    · exact .inr hgone'

/-- The state but for what entries, buckets, chains and counters are. -/
theorem Ages.of_entries (hentries : Ageing d.entries d'.entries) (hdisposed : d.disposed = true → d'.disposed = true)
    (hwaiting : d'.waiting = d.waiting) (hbuckets : d'.buckets = d.buckets) (hchains : d'.chains = d.chains)
    (hgeneration : d'.keyGeneration = d.keyGeneration) : Ages d d' where
  entries := hentries
  disposed := hdisposed
  waiting k hk := hwaiting ▸ hk
  waitingEntries k e he := by
    rw [Debouncer.waitingEntries, hwaiting, hbuckets] at he
    exact he
  noChain k hk := hchains ▸ hk
  chain k chain hc := ⟨chain, hchains ▸ hc, .refl chain⟩
  generation k := by
    left
    rw [Debouncer.generation, Debouncer.generation, hgeneration]

theorem Ages.refl (d : Debouncer Item) : Ages d d := .of_entries (.refl _) id rfl rfl rfl rfl

theorem settled_ageing (owner : Owner) (h : Heap (Entry Item)) (e : Nat) : Ageing h (h.update e (settled owner)) := by
  refine Ageing.update h e ?_ ?_ ?_ <;> intro E <;> cases owner <;> first | rfl | exact id

theorem settleEntry_ages (owner : Owner) (d : Debouncer Item) (e : Nat) : Ages d (settleEntry key owner d e) := by
  by_cases h : ∃ E, d.entries.get e = some E ∧ ¬ (owner = .flush ∧ E.cancellationPending = true)
  · obtain ⟨E, hE, hskip⟩ := h
    rw [settleEntry_eq hE hskip]
    exact .of_entries (settled_ageing owner d.entries e) id rfl rfl rfl rfl
  · rw [settleEntry_skip (by simpa using h)]
    exact .refl d

theorem forgetGeneration_ages (d : Debouncer Item) (key : String) : Ages d (d.forgetGeneration key) := by
  unfold forgetGeneration
  split
  · rename_i hgone
    simp only [Bool.and_eq_true, Bool.not_eq_true'] at hgone
    refine ⟨.refl _, id, fun _ => id, fun _ _ => id, fun _ => id, fun k chain hc => ⟨chain, hc, .refl chain⟩, fun k => ?_⟩
    by_cases hk : k = key
    · subst hk
      exact .inr hgone.1
    · left
      rw [generation, generation, OrderedMap.get_delete_of_ne _ hk]
  · exact .refl d

theorem bumpGeneration_ages (d : Debouncer Item) (key : String) : Ages d (d.bumpGeneration key) := by
  refine ⟨.refl _, id, fun _ => id, fun _ _ => id, fun _ => id, fun k chain hc => ⟨chain, hc, .refl chain⟩, fun k => .inl ?_⟩
  unfold bumpGeneration
  rw [generation, generation, OrderedMap.get_set_eq]
  split
  · rename_i hk
    rw [hk]
    exact Nat.le_succ _
  · exact Nat.le_refl _

theorem foldl_ages {α : Type} {f : Debouncer Item → α → Debouncer Item} (hf : ∀ d a, Ages d (f d a)) (l : List α)
    (d : Debouncer Item) : Ages d (l.foldl f d) := by
  induction l generalizing d with
  | nil => exact .refl d
  | cons a l ih => exact (hf d a).trans (ih _)

theorem settleEntries_ages (key : String) (l : List Nat) (owner : Owner) (d : Debouncer Item) :
    Ages d (d.settleEntries key l owner) :=
  (foldl_ages (settleEntry_ages owner) l d).trans (forgetGeneration_ages _ key)

theorem indexInflight_ages (d : Debouncer Item) (key : String) (e : Nat) : Ages d (d.indexInflight key e) :=
  .of_entries (.refl _) id rfl rfl rfl rfl

theorem ledger_ages (d : Debouncer Item) (ledger : Retention.Ledger) : Ages d { d with ledger } :=
  .of_entries (.refl _) id rfl rfl rfl rfl

theorem trackEntries_ages (key : String) (l : List Nat) (d : Debouncer Item) : Ages d (trackEntries key l d).2 := by
  induction l generalizing d with
  | nil => exact .refl d
  | cons e l ih =>
    have hindex := d.indexInflight_ages key e
    unfold trackEntries
    dsimp only
    split
    · exact hindex.trans (ih _)
    · split
      · exact hindex.trans (ih _)
      · split
        · exact hindex
        · exact (hindex.trans (ledger_ages _ _)).trans (ih _)

theorem trackInflight_ages (d : Debouncer Item) (key : String) (l : List Nat) : Ages d (d.trackInflight key l).2 := by
  have hindex : Ages d (d.indexKey key) := by
    unfold indexKey
    split
    · exact .refl d
    · exact .of_entries (.refl _) id rfl rfl rfl rfl
  exact hindex.trans (trackEntries_ages key l _)

/-- A bucket loses its entries, and perhaps its place. -/
theorem Ages.empty_bucket {b : Nat} {waiting : OrderedMap String Nat}
    (hwaiting : ∀ k b, waiting.get k = some b → d.waiting.get k = some b) :
    Ages d { d with waiting, buckets := d.buckets.update b ({ · with entries := [] }) } where
  entries := .refl _
  disposed := id
  waiting k hk := by
    obtain ⟨b, hb⟩ := Option.isSome_iff_exists.mp hk
    rw [OrderedMap.has, hwaiting k b hb]
    rfl
  waitingEntries k e he := by
    unfold Debouncer.waitingEntries at he ⊢
    cases hb : waiting.get k with
    | none =>
      rw [hb] at he
      cases he
    | some b' =>
      rw [hb] at he
      rw [hwaiting k b' hb]
      dsimp only [Option.bind_some] at he ⊢
      rw [Heap.get_update] at he
      split at he
      · cases hbucket : d.buckets.get b' with
        | none =>
          rw [hbucket] at he
          cases he
        | some bucket =>
          rw [hbucket] at he
          cases he
      · exact he
  noChain _ := id
  chain k chain hc := ⟨chain, hc, .refl chain⟩
  generation k := .inl (Nat.le_refl _)

theorem dropBucket_ages (d : Debouncer Item) (key : String) : Ages d (d.dropBucket key) := by
  unfold dropBucket
  split
  · exact .refl d
  · exact .empty_bucket fun k b hb => OrderedMap.get_of_get_delete hb

theorem clearCapturedBatches_ages (d : Debouncer Item) (key : String) : Ages d (d.clearCapturedBatches key) := by
  unfold clearCapturedBatches
  split
  · exact .refl d
  · rename_i chain hget
    refine ⟨.refl _, id, fun _ => id, fun _ _ => id, fun k hk => ?_, fun k chain' hc => ?_, fun k => .inl (Nat.le_refl _)⟩
    · have hne : k ≠ key := by
        rintro rfl
        cases hget.symm.trans hk
      rw [setChain, OrderedMap.get_set_of_ne _ _ hne]
      exact hk
    · by_cases hk : k = key
      · subst hk
        obtain rfl : chain = chain' := Option.some.inj (hget.symm.trans hc)
        refine ⟨_, OrderedMap.get_set_self _ _ _, rfl, ?_, fun batch hb => by cases hb⟩
        cases chain.running <;> rfl
      · exact ⟨chain', (OrderedMap.get_set_of_ne _ _ hk).trans hc, .refl chain'⟩

theorem clearQueuedCancellationBatches_ages (d : Debouncer Item) (key : String) :
    Ages d (d.clearQueuedCancellationBatches key) := by
  unfold clearQueuedCancellationBatches
  split
  · exact .refl d
  · exact .of_entries (.refl _) id rfl rfl rfl rfl

theorem scheduleCancellation_ages (d : Debouncer Item) (key : String) (l : List Nat) :
    Ages d (d.scheduleCancellation key l) := .of_entries (.refl _) id rfl rfl rfl rfl

theorem updateEntry_ages (d : Debouncer Item) (e : Nat) {f : Entry Item → Entry Item} (hkey : ∀ E, (f E).key = E.key)
    (hgen : ∀ E, (f E).generation = E.generation)
    (hcancel : ∀ E, E.cancellationRequested = true → (f E).cancellationRequested = true) : Ages d (d.updateEntry e f) :=
  .of_entries (Ageing.update _ e hkey hgen hcancel) id rfl rfl rfl rfl

theorem pin_ages (d : Debouncer Item) (e : Nat) : Ages d (d.pin e).2 := by
  unfold pin
  split
  · exact .refl d
  · dsimp only
    have hflags := d.updateEntry_ages e (f := ({ · with cancellationRequested := true, cancellationPending := true }))
      (fun _ => rfl) (fun _ => rfl) fun _ _ => rfl
    split
    · exact hflags.trans (updateEntry_ages _ e (fun _ => rfl) (fun _ => rfl) fun _ => id)
    · split
      · exact hflags
      · exact (hflags.trans (ledger_ages _ _)).trans (updateEntry_ages _ e (fun _ => rfl) (fun _ => rfl) fun _ => id)

theorem pinAll_ages (l : List Nat) (d : Debouncer Item) : Ages d (pinAll l d).2 := by
  induction l generalizing d with
  | nil => exact .refl d
  | cons e l ih =>
    have hpin := d.pin_ages e
    unfold pinAll
    split
    · rename_i fault d₁ heq
      rw [heq] at hpin
      exact hpin
    · rename_i d₁ heq
      rw [heq] at hpin
      exact hpin.trans (ih d₁)

theorem notifyCancelled_ages (d : Debouncer Item) (key : String) (waiting l : List Nat) :
    Ages d (d.notifyCancelled key waiting l).2 := by
  have hpin := pinAll_ages l d
  unfold notifyCancelled
  split
  · rename_i fault d₁ heq
    rw [heq] at hpin
    exact hpin
  · rename_i d₁ heq
    rw [heq] at hpin
    have htrack := hpin.trans (d₁.trackInflight_ages key waiting)
    split
    · rename_i fault d₂ heq₂
      rw [heq₂] at htrack
      exact htrack
    · rename_i d₂ heq₂
      rw [heq₂] at htrack
      exact (htrack.trans (d₂.scheduleCancellation_ages key l)).trans (forgetGeneration_ages _ key)

theorem settleCancelled_ages (d : Debouncer Item) (key : String) (l : List Nat) (retire : Bool) :
    Ages d (d.settleCancelled key l retire) := by
  unfold settleCancelled
  split
  · have hcaptured := (settleEntries_ages key l .retire d).trans (clearCapturedBatches_ages _ key)
    exact (hcaptured.trans (clearQueuedCancellationBatches_ages _ key)).trans (forgetGeneration_ages _ key)
  · exact (settleEntries_ages key l .cancel d).trans (forgetGeneration_ages _ key)

theorem cancelKey_ages (d : Debouncer Item) (options : Options Item) (key : String) (notify : Option Bool) :
    Ages d (d.cancelKey options key notify).2 := by
  unfold cancelKey
  dsimp only
  split
  · exact .refl d
  · have hbump := (d.dropBucket_ages key).trans (bumpGeneration_ages _ key)
    split
    · exact hbump.trans (notifyCancelled_ages _ key _ _)
    · exact hbump.trans (settleCancelled_ages _ key _ _)

theorem Ageing.updateAll {f : Entry Item → Entry Item} (h : Heap (Entry Item)) (l : List Nat)
    (hkey : ∀ E, (f E).key = E.key) (hgen : ∀ E, (f E).generation = E.generation)
    (hcancel : ∀ E, E.cancellationRequested = true → (f E).cancellationRequested = true) : Ageing h (h.updateAll l f) := by
  induction l generalizing h with
  | nil => exact .refl h
  | cons e l ih => exact (Ageing.update h e hkey hgen hcancel).trans (ih _)

theorem cancelStart_ages (d : Debouncer Item) (c : Nat) (batch : CancellationBatch) : Ages d (d.cancelStart c batch) := by
  unfold cancelStart
  dsimp only
  split
  · exact .of_entries (.refl _) id rfl rfl rfl rfl
  · exact .of_entries (Ageing.updateAll _ _ (fun _ => rfl) (fun _ => rfl) fun _ => id) id rfl rfl rfl rfl

theorem cancelSettled_ages (d : Debouncer Item) (c : Nat) (batch : CancellationBatch) :
    Ages d (d.cancelSettled c batch) := by
  refine Ages.trans ?_ (settleEntries_ages ..)
  exact .of_entries (Ageing.updateAll _ _ (fun _ => rfl) (fun _ => rfl) fun _ => id) id rfl rfl rfl rfl

theorem disposeBuckets_ages (l : List (String × Nat)) (n : Nat) (d : Debouncer Item) :
    Ages d (l.foldl disposeBucket (n, d)).2 := by
  induction l generalizing n d with
  | nil => exact .refl d
  | cons bucket l ih => exact ((d.bumpGeneration_ages bucket.1).trans (settleEntries_ages ..)).trans (ih _ _)

theorem clearWaiting_ages (d : Debouncer Item) : Ages d { d with waiting := .empty } where
  entries := .refl _
  disposed := id
  waiting _ hk := by cases hk
  waitingEntries _ _ he := by cases he
  noChain _ := id
  chain _ chain hc := ⟨chain, hc, .refl chain⟩
  generation _ := .inl (Nat.le_refl _)

theorem retireActive_ages (d : Debouncer Item) (active : String × Nat) : Ages d (retireActive d active) :=
  settleEntries_ages active.1 [active.2] .retire d

theorem clearAll_ages (d : Debouncer Item) :
    Ages d ((d.chains.keys.foldl clearCapturedBatches d).cancellationBatches.keys.foldl
      clearQueuedCancellationBatches (d.chains.keys.foldl clearCapturedBatches d)) :=
  (foldl_ages clearCapturedBatches_ages _ d).trans (foldl_ages clearQueuedCancellationBatches_ages _ _)

theorem retireAll_ages (d : Debouncer Item) : Ages d d.retireAll :=
  (foldl_ages retireActive_ages d.activeAll d).trans (clearAll_ages _)

theorem dispose_ages (d : Debouncer Item) : Ages d d.dispose.2 := by
  have hstart : Ages d { d with disposed := true } := .of_entries (.refl _) (fun _ => rfl) rfl rfl rfl rfl
  have hwaiting := hstart.trans (disposeBuckets_ages d.waiting.entries 0 _)
  unfold dispose
  split
  · exact .refl d
  · have hretire := (hwaiting.trans (clearWaiting_ages _)).trans (retireAll_ages _)
    exact hretire.trans (.of_entries (.refl _) id rfl rfl rfl rfl)

/-! ### No entry is ahead of its key -/

/-- The generation of the entry is at most the current one of its key. -/
def Behind (d : Debouncer Item) (k : String) (e : Nat) : Prop :=
  ∃ E, d.entries.get e = some E ∧ E.key = k ∧ E.generation ≤ d.generation k

/-- What waits, is queued or is being flushed is not ahead of its key. -/
structure Dated (d : Debouncer Item) : Prop where
  filed : d.Filed
  waiting : ∀ k, ∀ e ∈ d.waitingEntries k, Behind d k e
  queued : ∀ k chain, d.chains.get k = some chain → ∀ batch ∈ chain.queued, ∀ e ∈ batch.entries, Behind d k e
  tracked : ∀ k chain running, d.chains.get k = some chain → chain.worker = .awaiting →
    chain.running = some running → ∀ e ∈ running.tracked, Behind d k e

theorem Behind.ages (h : Behind d k e) (hages : Ageing d.entries d'.entries) (hle : d.generation k ≤ d'.generation k) :
    Behind d' k e := by
  obtain ⟨E, hE, hkey, hgen⟩ := h
  obtain ⟨E', hE', hkey', hgen', -⟩ := hages e E hE
  exact ⟨E', hE', hkey'.trans hkey, hgen' ▸ Nat.le_trans hgen hle⟩

theorem has_of_waitingEntries (h : e ∈ d.waitingEntries k) : d.waiting.has k = true := by
  unfold waitingEntries at h
  cases hget : d.waiting.get k with
  | none =>
    rw [hget] at h
    cases h
  | some b => rw [OrderedMap.has, hget, Option.isSome_some]

/-- While the key has a chain its counter does not go down. -/
theorem Ages.generation_le_of_chain (h : Ages d d') {chain : KeyWorker} (hc : d'.chains.get k = some chain) :
    d.generation k ≤ d'.generation k := by
  obtain hle | ⟨hchain, -⟩ := h.generation k
  · exact hle
  · rw [OrderedMap.has, hc] at hchain
    cases hchain

/-- A chain after the step was there before it. -/
theorem Ages.chain_before (h : Ages d d') {chain' : KeyWorker} (hc : d'.chains.get k = some chain') :
    ∃ chain, d.chains.get k = some chain ∧ SameChain chain chain' := by
  cases hget : d.chains.get k with
  | none => cases (h.noChain k hget).symm.trans hc
  | some chain =>
    obtain ⟨chain₁, hc₁, hsame⟩ := h.chain k chain hget
    obtain rfl := Option.some.inj (hc₁.symm.trans hc)
    exact ⟨chain, rfl, hsame⟩

/-- A batch that is being flushed was being flushed before. -/
theorem SameChain.running_before {chain chain' : KeyWorker} (h : SameChain chain chain') {running' : Running}
    (hr : chain'.running = some running') : ∃ running, chain.running = some running ∧ running.tracked = running'.tracked := by
  have heq := h.running
  rw [hr, Option.map_some] at heq
  exact Option.map_eq_some_iff.mp heq.symm

theorem Dated.ages (h : d.Dated) (hages : Ages d d') (hfiled : d'.Filed) : d'.Dated := by
  refine ⟨hfiled, fun k e he => ?_, fun k chain' hc batch hb e he => ?_, fun k chain' running' hc hw hr e he => ?_⟩
  · refine (h.waiting k e (hages.waitingEntries k e he)).ages hages.entries ?_
    obtain hle | ⟨-, hwaiting⟩ := hages.generation k
    · exact hle
    · cases hwaiting.symm.trans (has_of_waitingEntries he)
  · obtain ⟨chain, hget, hsame⟩ := hages.chain_before hc
    exact (h.queued k chain hget batch (hsame.queued batch hb) e he).ages hages.entries (hages.generation_le_of_chain hc)
  · obtain ⟨chain, hget, hsame⟩ := hages.chain_before hc
    obtain ⟨running, hrun, htracked⟩ := hsame.running_before hr
    have hbehind := h.tracked k chain running hget (hsame.worker ▸ hw) hrun e (htracked ▸ he)
    exact hbehind.ages hages.entries (hages.generation_le_of_chain hc)

/-- A chain is put in its place with what it held, or with a batch that has just been taken up. -/
theorem Dated.setChain (h : d.Dated) (key : String) (chain' : KeyWorker)
    (hqueued : ∀ batch ∈ chain'.queued, ∀ e ∈ batch.entries, Behind d key e)
    (htracked : chain'.worker = .awaiting → ∀ running, chain'.running = some running →
      ∀ e ∈ running.tracked, Behind d key e) : (d.setChain key chain').Dated := by
  refine ⟨h.filed, h.waiting, fun k chain hc => ?_, fun k chain running hc hw hr => ?_⟩
  · by_cases hk : k = key
    · subst hk
      obtain rfl : chain' = chain := Option.some.inj ((OrderedMap.get_set_self _ _ _).symm.trans hc)
      exact hqueued
    · exact h.queued k chain ((OrderedMap.get_set_of_ne _ _ hk).symm.trans hc)
  · by_cases hk : k = key
    · subst hk
      obtain rfl : chain' = chain := Option.some.inj ((OrderedMap.get_set_self _ _ _).symm.trans hc)
      exact htracked hw running hr
    · exact h.tracked k chain running ((OrderedMap.get_set_of_ne _ _ hk).symm.trans hc) hw hr

theorem settleEntries_filed (key : String) (l : List Nat) (owner : Owner) (hf : d.Filed) :
    (d.settleEntries key l owner).Filed := by
  have hflows : Flows key [] d (d.settleEntries key l owner) := settleEntries_flows key l owner d
  exact hflows.filed hf

theorem Dated.settleEntries (h : d.Dated) (key : String) (l : List Nat) (owner : Owner) :
    (d.settleEntries key l owner).Dated :=
  h.ages (settleEntries_ages key l owner d) (settleEntries_filed key l owner h.filed)

/-- The worker takes up a batch, whose entries the key's counter has not left behind. -/
theorem Dated.startFlush (h : d.Dated) {queued : List FlushBatch} {batch : FlushBatch}
    (hbatch : ∀ e ∈ batch.entries, Behind d key e)
    (hqueued : ∀ batch ∈ queued, ∀ e ∈ batch.entries, Behind d key e) : (d.startFlush key queued batch).Dated := by
  have hledger (ledger : Retention.Ledger) : ({ d with ledger } : Debouncer Item).Dated :=
    ⟨h.filed, h.waiting, h.queued, h.tracked⟩
  unfold Debouncer.startFlush
  dsimp only
  split
  · split
    · exact ((hledger _).setChain _ _ hqueued fun hw => by cases hw).settleEntries key batch.entries .flush
    · rename_i holds ledger _
      have htracked := (hledger ledger).setChain key ⟨queued, some ⟨batch.entries, holds, batch.entries⟩, .awaiting⟩
        hqueued (by
          rintro - running hr
          obtain rfl := Option.some.inj hr
          exact hbatch)
      exact ⟨htracked.filed, htracked.waiting, htracked.queued, htracked.tracked⟩
  · exact (h.setChain _ _ hqueued fun hw => by cases hw).settleEntries key batch.entries .flush

theorem Dated.workerNext (h : d.Dated) {chain : KeyWorker} (hget : d.chains.get key = some chain) :
    (d.workerNext key chain).Dated := by
  unfold Debouncer.workerNext
  split
  · exact h.setChain _ _ (fun _ hb => by cases hb) fun hw => by cases hw
  · rename_i batch queued heq
    have hqueued := h.queued key chain hget
    rw [heq] at hqueued
    exact h.startFlush (hqueued batch List.mem_cons_self) fun batch' hb => hqueued batch' (.tail _ hb)

theorem Dated.flushSettled (h : d.Dated) {chain : KeyWorker} (running : Running) (hget : d.chains.get key = some chain) :
    (d.flushSettled key chain running).Dated := by
  have hsettled := h.settleEntries key running.entries .flush
  have hget' : (d.settleEntries key running.entries .flush).chains.get key = some chain := by
    rw [settleEntries_chains, hget]
  have hset := hsettled.setChain key { chain with worker := .returning }
    (hsettled.queued key chain hget') fun hw => by cases hw
  exact ⟨hset.filed, hset.waiting, hset.queued, hset.tracked⟩

/-- The chain leaves its place, and its counter with it unless entries wait. -/
theorem Dated.workerEnded (h : d.Dated) {chain : KeyWorker} (hget : d.chains.get key = some chain) :
    (d.workerEnded key chain).Dated := by
  unfold Debouncer.workerEnded
  split
  · exact h.setChain _ _ (h.queued key chain hget) fun hw => by cases hw
  · have hgone : ({ d with chains := d.chains.delete key } : Debouncer Item).Dated := by
      refine ⟨h.filed, h.waiting, fun k chain hc => ?_, fun k chain running hc => ?_⟩
      · exact h.queued k chain (OrderedMap.get_of_get_delete hc)
      · exact h.tracked k chain running (OrderedMap.get_of_get_delete hc)
    dsimp only
    split
    · rename_i hidle
      refine hgone.ages ?_ hgone.filed
      refine ⟨.refl _, id, fun _ => id, fun _ _ => id, fun _ => id, fun k chain hc => ⟨chain, hc, .refl chain⟩, fun k => ?_⟩
      by_cases hk : k = key
      · subst hk
        simp only [Bool.and_eq_true, Bool.not_eq_true'] at hidle
        exact .inr ⟨OrderedMap.has_eq_false_iff.mpr (OrderedMap.get_delete_self _ _), hidle.1⟩
      · left
        rw [generation, generation, OrderedMap.get_delete_of_ne _ hk]
    · exact hgone

theorem Dated.enqueueBatch (h : d.Dated) (batch : FlushBatch) (hbatch : ∀ e ∈ batch.entries, Behind d key e) :
    (d.enqueueBatch key batch).Dated := by
  unfold Debouncer.enqueueBatch
  cases hget : d.chains.get key with
  | none =>
    refine h.setChain _ _ (fun batch' hb => ?_) fun hw => by cases hw
    obtain rfl := List.mem_singleton.mp hb
    exact hbatch
  | some chain =>
    refine h.setChain _ _ (fun batch' hb => ?_) fun hw running hr => ?_
    · rcases List.mem_append.mp hb with hb | hb
      · exact h.queued key chain hget batch' hb
      · obtain rfl := List.mem_singleton.mp hb
        exact hbatch
    · refine h.tracked key chain running hget ?_ hr
      dsimp only [Option.getD_some] at hw
      split at hw
      · cases hw
      · exact hw

theorem trackEntries_keyGeneration (key : String) (l : List Nat) (d : Debouncer Item) :
    (trackEntries key l d).2.keyGeneration = d.keyGeneration := by
  induction l generalizing d with
  | nil => rfl
  | cons e l ih =>
    unfold trackEntries
    dsimp only
    split
    · exact ih _
    · split
      · exact ih _
      · split
        · rfl
        · exact ih _

theorem trackInflight_keyGeneration (d : Debouncer Item) (key : String) (l : List Nat) :
    (d.trackInflight key l).2.keyGeneration = d.keyGeneration := by
  rw [trackInflight, trackEntries_keyGeneration, indexKey]
  split <;> rfl

theorem Dated.detachAndQueue (h : d.Dated) {b : Nat} {bucket : Waiting} (hbucket : d.buckets.get b = some bucket) :
    (d.detachAndQueue b bucket).2.Dated := by
  by_cases hb : d.waiting.get bucket.key = some b
  · obtain ⟨hentries, -, hflows⟩ := detachAndQueue_flows h.filed hbucket hb
    have hbehind : ∀ e ∈ bucket.entries, Behind d bucket.key e := fun e he => h.waiting _ e (hentries ▸ he)
    have hfiled := hflows.filed h.filed
    have hdrop : Ages d { d with
        waiting := d.waiting.delete bucket.key
        buckets := d.buckets.update b ({ · with entries := [] }) } := .empty_bucket fun k b hb => OrderedMap.get_of_get_delete hb
    have hdropped := h.ages hdrop ((drop_flows "" [] h.filed hb).filed h.filed)
    have htrack := hdrop.trans (trackInflight_ages _ bucket.key bucket.entries)
    have htracked := hdropped.ages (trackInflight_ages _ bucket.key bucket.entries)
      ((trackInflight_flows _ bucket.key bucket.entries).filed hdropped.filed)
    have hgen := trackInflight_keyGeneration { d with
        waiting := d.waiting.delete bucket.key
        buckets := d.buckets.update b ({ · with entries := [] }) } bucket.key bucket.entries
    unfold Debouncer.detachAndQueue
    rw [if_neg (not_not.mpr hb)]
    dsimp only
    split
    · rename_i fault d₁ heq
      rw [heq] at htracked
      exact htracked
    · rename_i d₁ heq
      rw [heq] at htrack htracked hgen
      refine htracked.enqueueBatch _ fun e he => (hbehind e he).ages htrack.entries ?_
      rw [generation, generation, hgen]
  · rw [Debouncer.detachAndQueue, if_pos hb]
    exact h

theorem retain_entries (d : Debouncer Item) (item : Item) (key : String) (id : Option String) (r : Nat) :
    ∃ E, (d.retain item key id r).entries = d.entries.alloc E ∧ E.key = key ∧ E.generation = d.generation key ∧
      (d.retain item key id r).keyGeneration = d.keyGeneration ∧ (d.retain item key id r).disposed = d.disposed ∧
      (d.retain item key id r).chains = d.chains := by
  unfold retain
  dsimp only
  split <;> exact ⟨_, rfl, rfl, rfl, rfl, rfl, rfl⟩

theorem alloc_ageing (h : Heap (Entry Item)) (E : Entry Item) : Ageing h (h.alloc E) :=
  fun _ E hE => ⟨E, Heap.get_alloc_of_some hE, rfl, rfl, id⟩

/-- A new entry is of the current generation. -/
theorem Dated.retain (h : d.Dated) (item : Item) (key : String) (id : Option String) (r : Nat) :
    (d.retain item key id r).Dated := by
  have hw := waitingEntries_retain h.filed item key id r
  obtain ⟨E, hentries, hkey, hgen, hcounter, -, hchains⟩ := d.retain_entries item key id r
  have hold {k : String} {e : Nat} (hb : Behind d k e) : Behind (d.retain item key id r) k e := by
    refine hb.ages (hentries ▸ alloc_ageing _ E) ?_
    rw [generation, generation, hcounter]
  refine ⟨filed_retain h.filed item key id r, fun k e he => ?_, ?_, ?_⟩
  · rw [hw] at he
    split at he
    · rename_i hk
      subst hk
      rcases List.mem_append.mp he with he | he
      · exact hold (h.waiting k e he)
      · obtain rfl := List.mem_singleton.mp he
        refine ⟨E, hentries ▸ Heap.get_alloc_next _ _, hkey, ?_⟩
        rw [generation, hcounter, hgen, generation]
    · exact hold (h.waiting k e he)
  · intro k chain hc batch hb e he
    exact hold (h.queued k chain (hchains ▸ hc) batch hb e he)
  · intro k chain running hc hawait hr e he
    exact hold (h.tracked k chain running (hchains ▸ hc) hawait hr e he)

/-- `push` leaves the debouncer as it is, or retains an entry under a new reservation. -/
theorem push_cases (d : Debouncer Item) (options : Options Item) (item : Item) (answers : PushAnswers) :
    (d.push options item answers).2 = d ∨
      ∃ (ledger : Retention.Ledger) (id : Option String) (r : Nat), (d.push options item answers).2 =
        ({ d with ledger } : Debouncer Item).retain item (options.buildKey item) id r := by
  have hadmission (id : Option String) : (d.admission options item (options.buildKey item) id answers).2 = d ∨
      ∃ (ledger : Retention.Ledger) (id' : Option String) (r : Nat),
        (d.admission options item (options.buildKey item) id answers).2 =
          ({ d with ledger } : Debouncer Item).retain item (options.buildKey item) id' r := by
    unfold admission
    split
    · exact .inl rfl
    · split
      · exact .inr ⟨_, _, _, rfl⟩
      · exact .inl rfl
      · exact .inl rfl
  unfold push
  split
  · exact .inl rfl
  · dsimp only
    split
    · exact hadmission none
    · split
      · exact .inl rfl
      · split
        · exact .inl rfl
        · split
          · exact .inl rfl
          · exact hadmission _

theorem Dated.push (h : d.Dated) (options : Options Item) (item : Item) (answers : PushAnswers) :
    (d.push options item answers).2.Dated := by
  obtain heq | ⟨ledger, id, r, heq⟩ := d.push_cases options item answers
  · rw [heq]
    exact h
  · rw [heq]
    exact Dated.retain (d := { d with ledger }) ⟨h.filed, h.waiting, h.queued, h.tracked⟩ item _ id r

theorem dated_create (limits : BusyTurnLimits) : (create limits : Debouncer Item).Dated where
  filed _ _ hget := by cases hget
  waiting _ _ he := by cases he
  queued _ _ hc := by cases hc
  tracked _ _ _ hc := by cases hc

/-! ### What a running flush sees -/

/-- A step in which the flush of the key goes on: it stays the same flush, and time passes for its entries. -/
structure Watches (key : String) (d d' : Debouncer Item) : Prop where
  entries : Ageing d.entries d'.entries
  disposed : d.disposed = true → d'.disposed = true
  flush : ∀ chain, d.chains.get key = some chain → chain.worker = .awaiting → ∃ chain',
    d'.chains.get key = some chain' ∧ chain'.worker = .awaiting ∧
      chain'.running.map Running.tracked = chain.running.map Running.tracked
  generation : ∀ chain, d.chains.get key = some chain → chain.worker = .awaiting →
    d.generation key ≤ d'.generation key

theorem Ages.watches (h : Ages d d') : Watches key d d' where
  entries := h.entries
  disposed := h.disposed
  flush chain hget hw := by
    obtain ⟨chain', hget', hsame⟩ := h.chain key chain hget
    exact ⟨chain', hget', hsame.worker.trans hw, hsame.running⟩
  generation chain hget _ := by
    obtain ⟨chain', hget', -⟩ := h.chain key chain hget
    exact h.generation_le_of_chain hget'

theorem Watches.refl (d : Debouncer Item) : Watches key d d := (Ages.refl d).watches

theorem Watches.trans (h : Watches key d d') (h' : Watches key d' d'') : Watches key d d'' where
  entries := h.entries.trans h'.entries
  disposed := h'.disposed ∘ h.disposed
  flush chain hget hw := by
    obtain ⟨chain', hget', hw', htracked⟩ := h.flush chain hget hw
    obtain ⟨chain'', hget'', hw'', htracked'⟩ := h'.flush chain' hget' hw'
    exact ⟨chain'', hget'', hw'', htracked'.trans htracked⟩
  generation chain hget hw := by
    obtain ⟨chain', hget', hw', -⟩ := h.flush chain hget hw
    exact Nat.le_trans (h.generation chain hget hw) (h'.generation chain' hget' hw')

/-- Only the chain of a key that is not being flushed changes. -/
theorem Watches.of_chains (hentries : d'.entries = d.entries) (hdisposed : d'.disposed = d.disposed)
    (hgeneration : d'.keyGeneration = d.keyGeneration)
    (hchains : ∀ chain, d.chains.get key = some chain → chain.worker = .awaiting → d'.chains.get key = some chain) :
    Watches key d d' where
  entries := hentries ▸ .refl _
  disposed h := hdisposed ▸ h
  flush chain hget hw := ⟨chain, hchains chain hget hw, hw, rfl⟩
  generation _ _ _ := by rw [Debouncer.generation, Debouncer.generation, hgeneration]

/-- The key is not the one being flushed. -/
def NotFlushing (d : Debouncer Item) (key k : String) : Prop :=
  ∀ chain, d.chains.get key = some chain → chain.worker = .awaiting → key ≠ k

theorem NotFlushing.of_worker {chain : KeyWorker} (hget : d.chains.get k = some chain) (hidle : chain.worker ≠ .awaiting) :
    NotFlushing d key k := by
  rintro chain' hget' hw rfl
  obtain rfl := Option.some.inj (hget.symm.trans hget')
  exact hidle hw

theorem NotFlushing.setChain (h : NotFlushing d key k) (chain' : KeyWorker) : Watches key d (d.setChain k chain') :=
  .of_chains rfl rfl rfl fun chain hget hw => (OrderedMap.get_set_of_ne _ _ (h chain hget hw)).trans hget

theorem startFlush_watches (h : NotFlushing d key k) (queued : List FlushBatch) (batch : FlushBatch) :
    Watches key d (d.startFlush k queued batch) := by
  have hledger (ledger : Retention.Ledger) : NotFlushing ({ d with ledger } : Debouncer Item) key k := h
  have hstart (ledger : Retention.Ledger) : Watches key d { d with ledger } := (ledger_ages d ledger).watches
  unfold startFlush
  dsimp only
  split
  · split
    · exact ((hstart _).trans ((hledger _).setChain _)).trans (settleEntries_ages ..).watches
    · exact .of_chains rfl rfl rfl fun chain hget hw => (OrderedMap.get_set_of_ne _ _ (h chain hget hw)).trans hget
  · exact (h.setChain _).trans (settleEntries_ages ..).watches

theorem workerNext_watches (h : NotFlushing d key k) (chain : KeyWorker) : Watches key d (d.workerNext k chain) := by
  unfold workerNext
  split
  · exact h.setChain _
  · exact startFlush_watches h _ _

theorem flushSettled_watches (hne : key ≠ k) (chain : KeyWorker) (running : Running) :
    Watches key d (d.flushSettled k chain running) := by
  have hsettled : Watches key d _ := (settleEntries_ages k running.entries .flush d).watches
  refine hsettled.trans (.of_chains rfl rfl rfl fun chain hget _ => ?_)
  exact (OrderedMap.get_set_of_ne _ _ hne).trans hget

theorem workerEnded_watches (h : NotFlushing d key k) (chain : KeyWorker) : Watches key d (d.workerEnded k chain) := by
  unfold workerEnded
  split
  · exact h.setChain _
  · have hgone : Watches key d { d with chains := d.chains.delete k } :=
      .of_chains rfl rfl rfl fun chain hget hw => (OrderedMap.get_delete_of_ne _ (h chain hget hw)).trans hget
    dsimp only
    split
    · refine ⟨.refl _, id, hgone.flush, fun chain hget hw => ?_⟩
      rw [generation, generation, OrderedMap.get_delete_of_ne _ (h chain hget hw)]
    · exact hgone

theorem enqueueBatch_watches (d : Debouncer Item) (k : String) (batch : FlushBatch) :
    Watches key d (d.enqueueBatch k batch) := by
  refine ⟨.refl _, id, fun chain hget hw => ?_, fun _ _ _ => Nat.le_refl _⟩
  unfold enqueueBatch
  by_cases hk : key = k
  · subst hk
    refine ⟨_, OrderedMap.get_set_self _ _ _, ?_, ?_⟩
    · rw [hget, Option.getD_some, hw]
      rfl
    · rw [hget, Option.getD_some]
  · exact ⟨chain, (OrderedMap.get_set_of_ne _ _ hk).trans hget, hw, rfl⟩

theorem detachAndQueue_watches (d : Debouncer Item) (b : Nat) (bucket : Waiting) :
    Watches key d (d.detachAndQueue b bucket).2 := by
  unfold detachAndQueue
  split
  · exact .refl d
  · have hdrop : Ages d { d with
        waiting := d.waiting.delete bucket.key
        buckets := d.buckets.update b ({ · with entries := [] }) } := .empty_bucket fun k b hb => OrderedMap.get_of_get_delete hb
    have htrack := hdrop.trans (trackInflight_ages _ bucket.key bucket.entries)
    dsimp only
    split
    · rename_i fault d₁ heq
      rw [heq] at htrack
      exact htrack.watches
    · rename_i d₁ heq
      rw [heq] at htrack
      exact htrack.watches.trans (d₁.enqueueBatch_watches _ _)

theorem retain_watches (d : Debouncer Item) (item : Item) (k : String) (id : Option String) (r : Nat) :
    Watches key d (d.retain item k id r) := by
  obtain ⟨E, hentries, -, -, hcounter, hdisposed, hchains⟩ := d.retain_entries item k id r
  refine ⟨hentries ▸ alloc_ageing _ E, fun h => hdisposed ▸ h, fun chain hget hw => ?_, fun chain _ _ => ?_⟩
  · exact ⟨chain, hchains ▸ hget, hw, rfl⟩
  · rw [generation, generation, hcounter]

theorem push_watches (d : Debouncer Item) (options : Options Item) (item : Item) (answers : PushAnswers) :
    Watches key d (d.push options item answers).2 := by
  obtain heq | ⟨ledger, id, r, heq⟩ := d.push_cases options item answers
  · rw [heq]
    exact .refl d
  · rw [heq]
    exact (d.ledger_ages ledger).watches.trans (retain_watches _ item _ id r)

/-- The entry is one that the running flush of the key was given, and it is no longer active. -/
def SeenInactive (d : Debouncer Item) (key : String) (tracked : List Nat) (e : Nat) : Prop :=
  (∃ chain, d.chains.get key = some chain ∧ chain.worker = .awaiting ∧
    chain.running.map Running.tracked = some tracked) ∧ d.isActive e = false

/-- A counter that has passed an entry does not come back to it. -/
theorem Watches.inactive (h : Watches key d d') (hd : d.Dated) {tracked : List Nat} (he : e ∈ tracked)
    (hseen : SeenInactive d key tracked e) : SeenInactive d' key tracked e := by
  obtain ⟨⟨chain, hget, hw, htracked⟩, hinactive⟩ := hseen
  obtain ⟨chain', hget', hw', htracked'⟩ := h.flush chain hget hw
  refine ⟨⟨chain', hget', hw', htracked'.trans htracked⟩, ?_⟩
  obtain ⟨running, hr, rfl⟩ := Option.map_eq_some_iff.mp htracked
  obtain ⟨E, hE, hkey, hgen⟩ := hd.tracked key chain running hget hw hr e he
  obtain ⟨E', hE', hkey', hgen', hcancel⟩ := h.entries e E hE
  have hle := h.generation chain hget hw
  rw [isActive, hE, Option.any_some, hkey] at hinactive
  rw [isActive, hE', Option.any_some, hkey', hkey, hgen']
  by_cases hdisposed : d.disposed = true
  · rw [h.disposed hdisposed]
    rfl
  · by_cases hrequested : E.cancellationRequested = true
    · rw [hcancel hrequested, Bool.not_true, Bool.and_false, Bool.false_and]
    · have hpassed : d.generation key ≠ E.generation := by simpa [hdisposed, hrequested] using hinactive
      have hne : d'.generation key ≠ E.generation := by omega
      rw [beq_false_of_ne hne, Bool.and_false]

end Debouncer

open Debouncer

variable {options : Options Item} {d d' : Debouncer Item} {key : String} {e : Nat}

theorem Debouncer.Dated.step {a : Action Item} (h : d.Dated) (hs : step options d a = some d') : d'.Dated := by
  cases a with
  | push item answers =>
    obtain rfl := Option.some.inj hs
    exact h.push options item answers
  | detach b =>
    obtain ⟨bucket, hb, hs⟩ := Option.bind_eq_some_iff.mp hs
    obtain rfl := Option.some.inj hs
    exact h.detachAndQueue hb
  | workerNext k =>
    obtain ⟨chain, hget, hs⟩ := Option.bind_eq_some_iff.mp hs
    split at hs
    · obtain rfl := Option.some.inj hs
      exact h.workerNext hget
    · cases hs
  | flushSettled k =>
    obtain ⟨chain, hget, hs⟩ := Option.bind_eq_some_iff.mp hs
    obtain ⟨running, -, hs⟩ := Option.bind_eq_some_iff.mp hs
    split at hs
    · obtain rfl := Option.some.inj hs
      exact h.flushSettled running hget
    · cases hs
  | workerEnded k =>
    obtain ⟨chain, hget, hs⟩ := Option.bind_eq_some_iff.mp hs
    split at hs
    · obtain rfl := Option.some.inj hs
      exact h.workerEnded hget
    · cases hs
  | cancelKey k notify =>
    obtain rfl := Option.some.inj hs
    refine h.ages (d.cancelKey_ages options k notify) ?_
    obtain heq | ⟨hflows, -⟩ := cancelKey_flows h.filed options k notify
    · rw [heq]
      exact h.filed
    · exact hflows.filed h.filed
  | cancelStart c =>
    obtain ⟨batch, hget, hs⟩ := Option.bind_eq_some_iff.mp hs
    split at hs
    · obtain rfl := Option.some.inj hs
      have hflows : Flows batch.key [] d (d.cancelStart c batch) := cancelStart_flows hget
      exact h.ages (d.cancelStart_ages c batch) (hflows.filed h.filed)
    · cases hs
  | cancelSettled c =>
    obtain ⟨batch, -, hs⟩ := Option.bind_eq_some_iff.mp hs
    split at hs
    · obtain rfl := Option.some.inj hs
      have hflows : Flows batch.key [] d (d.cancelSettled c batch) := cancelSettled_flows
      exact h.ages (d.cancelSettled_ages c batch) (hflows.filed h.filed)
    · cases hs
  | dispose =>
    obtain rfl := Option.some.inj hs
    have hflows : Flows "" [] d d.dispose.2 := dispose_flows d
    exact h.ages d.dispose_ages (hflows.filed h.filed)
  | ledger call =>
    obtain rfl := Option.some.inj hs
    exact h.ages (d.ledger_ages _) h.filed

theorem Debouncer.Watches.step {a : Action Item} (ha : a ≠ .flushSettled key) (hs : step options d a = some d') :
    Watches key d d' := by
  cases a with
  | push item answers =>
    obtain rfl := Option.some.inj hs
    exact d.push_watches options item answers
  | detach b =>
    obtain ⟨bucket, -, hs⟩ := Option.bind_eq_some_iff.mp hs
    obtain rfl := Option.some.inj hs
    exact d.detachAndQueue_watches b bucket
  | workerNext k =>
    obtain ⟨chain, hget, hs⟩ := Option.bind_eq_some_iff.mp hs
    split at hs
    · rename_i hw
      obtain rfl := Option.some.inj hs
      refine workerNext_watches (.of_worker hget fun hawait => ?_) chain
      rw [hawait] at hw
      exact hw.elim nofun nofun
    · cases hs
  | flushSettled k =>
    obtain ⟨chain, -, hs⟩ := Option.bind_eq_some_iff.mp hs
    obtain ⟨running, -, hs⟩ := Option.bind_eq_some_iff.mp hs
    split at hs
    · obtain rfl := Option.some.inj hs
      refine flushSettled_watches ?_ chain running
      rintro rfl
      exact ha rfl
    · cases hs
  | workerEnded k =>
    obtain ⟨chain, hget, hs⟩ := Option.bind_eq_some_iff.mp hs
    split at hs
    · rename_i hw
      obtain rfl := Option.some.inj hs
      refine workerEnded_watches (.of_worker hget fun hawait => ?_) chain
      cases hw.symm.trans hawait
    · cases hs
  | cancelKey k notify =>
    obtain rfl := Option.some.inj hs
    exact (d.cancelKey_ages options k notify).watches
  | cancelStart c =>
    obtain ⟨batch, -, hs⟩ := Option.bind_eq_some_iff.mp hs
    split at hs
    · obtain rfl := Option.some.inj hs
      exact (d.cancelStart_ages c batch).watches
    · cases hs
  | cancelSettled c =>
    obtain ⟨batch, -, hs⟩ := Option.bind_eq_some_iff.mp hs
    split at hs
    · obtain rfl := Option.some.inj hs
      exact (d.cancelSettled_ages c batch).watches
    · cases hs
  | dispose =>
    obtain rfl := Option.some.inj hs
    exact d.dispose_ages.watches
  | ledger call =>
    obtain rfl := Option.some.inj hs
    exact (d.ledger_ages _).watches

/-- An entry that `onFlush` was given and that is found inactive stays so until that call has settled. -/
theorem inactive_until_settled (options : Options Item) (limits : BusyTurnLimits) (key : String)
    (d d' : Debouncer Item) (chain : KeyWorker) (running : Running) (e : Nat)
    (h : Reached (step options) (create limits) d) (hget : d.chains.get key = some chain)
    (hawait : chain.worker = .awaiting) (hrunning : chain.running = some running) (he : e ∈ running.tracked)
    (hinactive : d.isActive e = false) (hrun : ReachedBy (step options) (fun _ a => a ≠ .flushSettled key) d d') :
    (∃ chain', d'.chains.get key = some chain' ∧ chain'.worker = .awaiting ∧
      chain'.running.map Running.tracked = some running.tracked) ∧ d'.isActive e = false := by
  have hdated : d.Dated := h.invariant (dated_create limits) fun _ _ _ hi _ hs => hi.step hs
  have hseen : SeenInactive d key running.tracked e :=
    ⟨⟨chain, hget, hawait, by rw [hrunning, Option.map_some]⟩, hinactive⟩
  have hboth := hrun.invariant (I := fun d => d.Dated ∧ SeenInactive d key running.tracked e) ⟨hdated, hseen⟩
    fun s a t hs hok hst => by
      have hwatches : Watches key s t := .step hok hst
      exact ⟨hs.1.step hst, hwatches.inactive hs.1 he hs.2⟩
  exact hboth.2

/-- The peer is retired while its first message is being flushed, and a second message comes in. -/
theorem inactive_until_settled_retired : ∃ d : Debouncer String, d.isActive 0 = false ∧ d.isActive 1 = true := by
  have hrun : ((exec (step oneByteEach) (create defaultBusyTurnLimits)
      [.push "m" noAnswer, .detach 0, .workerNext "peer", .cancelKey "peer" (some false)]).bind fun d =>
        (step oneByteEach d (.push "n" noAnswer)).map fun d' =>
          decide (d.chains.get "peer" = some ⟨[], some ⟨[], [(0, 0)], [0]⟩, .awaiting⟩ ∧ d.isActive 0 = false ∧
            d'.isActive 1 = true)) = some true := by decide +kernel
  obtain ⟨d, hd, hrun⟩ := Option.bind_eq_some_iff.mp hrun
  obtain ⟨d', hstep, hp⟩ := Option.map_eq_some_iff.mp hrun
  obtain ⟨hget, hinactive, hactive⟩ := of_decide_eq_true hp
  have hpush : ReachedBy (step oneByteEach) (fun _ a => a ≠ .flushSettled "peer") d d' :=
    .step (a := .push "n" noAnswer) .start (fun h => by cases h) hstep
  refine ⟨d', ?_, hactive⟩
  exact (inactive_until_settled oneByteEach defaultBusyTurnLimits "peer" d d' _ _ 0 (reached_of_exec hd) hget rfl rfl
    List.mem_cons_self hinactive hpush).2

end Webchannel.Debounce
