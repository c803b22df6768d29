import Mathlib.Data.List.Dedup
import Webchannel.Activity.Sink
import Webchannel.Lib.Groups

/-!
# Hidden invocations as groups of ids

The table of aliases holds a group for each hidden invocation, as long as different ids of the runs
have different keys. An event goes on exactly where it meets no group.
-/

namespace Webchannel.Activity

open Groups

namespace HiddenToolActivityTracker

variable {t : HiddenToolActivityTracker} {marker other : Nat} {keys : List JsString} {k : JsString}

/-- Every alias is known to its marker, and a marker has a number. -/
structure Covers (t : HiddenToolActivityTracker) : Prop where
  known : ∀ k m, t.byAlias k = some m → k ∈ t.aliases m
  numbered : ∀ k m, t.byAlias k = some m → m < t.count

theorem Covers.initial : Covers {} where
  known k m h := by cases h
  numbered k m h := by cases h

/-! ## Merging -/

theorem mergeAlias_byAlias (key : JsString) : (mergeAlias marker other t key).byAlias k =
    if k = key ∧ t.byAlias k = some other then some marker else t.byAlias k := by
  unfold mergeAlias
  dsimp only
  by_cases hk : k = key
  · subst hk
    by_cases ho : t.byAlias k = some other
    · rw [if_pos ho, if_pos ⟨rfl, ho⟩, Function.update_self]
    · rw [if_neg ho, if_neg fun h : k = k ∧ t.byAlias k = some other => ho h.2]
  · rw [if_neg fun h : k = key ∧ t.byAlias k = some other => hk h.1]
    split
    · rw [Function.update_of_ne hk]
    · rfl

theorem Covers.mergeAlias (h : Covers t) (hm : marker < t.count) (key : JsString) : Covers (mergeAlias marker other t key) := by
  have haliases : ∀ m, ∀ k ∈ t.aliases m, k ∈ (HiddenToolActivityTracker.mergeAlias marker other t key).aliases m := by
    intro m k hk
    unfold HiddenToolActivityTracker.mergeAlias
    dsimp only
    by_cases hmm : m = marker
    · subst hmm
      rw [Function.update_self]
      exact List.mem_append_left _ hk
    · rw [Function.update_of_ne hmm]
      exact hk
  constructor
  · intro k m hk
    rw [mergeAlias_byAlias] at hk
    split at hk
    · rename_i hkey
      cases hk
      rw [hkey.1]
      unfold HiddenToolActivityTracker.mergeAlias
      dsimp only
      rw [Function.update_self]
      exact List.mem_append_right _ List.mem_cons_self
    · exact haliases m k (h.known k m hk)
  · intro k m hk
    rw [mergeAlias_byAlias] at hk
    split at hk
    · cases hk
      exact hm
    · exact h.numbered k m hk

theorem foldl_mergeAlias (h : Covers t) (hm : marker < t.count) (l : List JsString) :
    Covers (l.foldl (mergeAlias marker other) t) ∧ (l.foldl (mergeAlias marker other) t).count = t.count ∧
      ∀ k, (l.foldl (mergeAlias marker other) t).byAlias k =
        if k ∈ l ∧ t.byAlias k = some other then some marker else t.byAlias k := by
  induction l generalizing t with
  | nil => exact ⟨h, rfl, fun k => (if_neg fun hk => absurd hk.1 List.not_mem_nil).symm⟩
  | cons key l ih =>
    obtain ⟨hcovers, hcount, hbyAlias⟩ := ih (h.mergeAlias hm key) hm
    refine ⟨hcovers, hcount, fun k => ?_⟩
    rw [List.foldl_cons, hbyAlias k, mergeAlias_byAlias]
    by_cases hk : k = key ∧ t.byAlias k = some other
    · rw [if_pos hk, ite_self]
      exact (if_pos ⟨hk.1 ▸ List.mem_cons_self, hk.2⟩).symm
    · rw [if_neg hk]
      refine if_congr ⟨fun hkl => ⟨List.mem_cons_of_mem _ hkl.1, hkl.2⟩, fun hkl => ⟨?_, hkl.2⟩⟩ rfl rfl
      exact (List.mem_cons.mp hkl.1).resolve_left fun hkey => hk ⟨hkey, hkl.2⟩

/-- The aliases of one marker become those of another. -/
theorem mergeMarker_spec (h : Covers t) (hm : marker < t.count) (other : Nat) :
    Covers (mergeMarker marker t other) ∧ (mergeMarker marker t other).count = t.count ∧
      ∀ k, (mergeMarker marker t other).byAlias k = if t.byAlias k = some other then some marker else t.byAlias k := by
  unfold mergeMarker
  by_cases hsame : other = marker
  · subst hsame
    rw [if_pos rfl]
    refine ⟨h, rfl, fun k => ?_⟩
    split
    · assumption
    · rfl
  rw [if_neg hsame]
  obtain ⟨hcovers, hcount, hbyAlias⟩ := foldl_mergeAlias h hm (t.aliases other)
  refine ⟨hcovers, hcount, fun k => (hbyAlias k).trans ?_⟩
  exact if_congr ⟨And.right, fun hk => ⟨h.known k other hk, hk⟩⟩ rfl rfl

theorem foldl_mergeMarker (h : Covers t) (hm : marker < t.count) (found : List Nat) :
    Covers (found.foldl (mergeMarker marker) t) ∧ (found.foldl (mergeMarker marker) t).count = t.count ∧
      ∀ k, (found.foldl (mergeMarker marker) t).byAlias k =
        if ∃ o ∈ found, t.byAlias k = some o then some marker else t.byAlias k := by
  induction found generalizing t with
  | nil => exact ⟨h, rfl, fun k => (if_neg fun ⟨_, ho, _⟩ => absurd ho List.not_mem_nil).symm⟩
  | cons other found ih =>
    obtain ⟨hcovers, hcount, hbyAlias⟩ := mergeMarker_spec h hm other
    obtain ⟨hcovers', hcount', hbyAlias'⟩ := ih hcovers (by rw [hcount]; exact hm)
    refine ⟨hcovers', hcount'.trans hcount, fun k => ?_⟩
    rw [List.foldl_cons, hbyAlias' k, hbyAlias k]
    by_cases hk : t.byAlias k = some other
    · rw [if_pos hk, ite_self]
      exact (if_pos ⟨other, List.mem_cons_self, hk⟩).symm
    · rw [if_neg hk]
      refine if_congr ⟨fun ⟨o, ho, hko⟩ => ⟨o, List.mem_cons_of_mem _ ho, hko⟩, fun ⟨o, ho, hko⟩ => ⟨o, ?_, hko⟩⟩ rfl rfl
      exact (List.mem_cons.mp ho).resolve_left fun hoo => hk (hoo ▸ hko)

/-! ## Binding -/

theorem Covers.bindKey (h : Covers t) (hm : marker < t.count) (key : JsString) : Covers (bindKey marker t key) := by
  constructor
  · intro k m hk
    unfold HiddenToolActivityTracker.bindKey at hk ⊢
    dsimp only at hk ⊢
    by_cases hkey : k = key
    · subst hkey
      rw [Function.update_self] at hk
      cases hk
      rw [Function.update_self]
      exact List.mem_append_right _ List.mem_cons_self
    · rw [Function.update_of_ne hkey] at hk
      by_cases hmm : m = marker
      · subst hmm
        rw [Function.update_self]
        exact List.mem_append_left _ (h.known k m hk)
      · rw [Function.update_of_ne hmm]
        exact h.known k m hk
  · intro k m hk
    unfold HiddenToolActivityTracker.bindKey at hk ⊢
    dsimp only at hk ⊢
    by_cases hkey : k = key
    · rw [hkey, Function.update_self] at hk
      cases hk
      exact hm
    · rw [Function.update_of_ne hkey] at hk
      exact h.numbered k m hk

theorem foldl_bindKey (h : Covers t) (hm : marker < t.count) (keys : List JsString) :
    Covers (keys.foldl (bindKey marker) t) ∧
      ∀ k, (keys.foldl (bindKey marker) t).byAlias k = if k ∈ keys then some marker else t.byAlias k := by
  induction keys generalizing t with
  | nil => exact ⟨h, fun k => (if_neg List.not_mem_nil).symm⟩
  | cons key keys ih =>
    obtain ⟨hcovers, hbyAlias⟩ := ih (h.bindKey hm key) hm
    refine ⟨hcovers, fun k => ?_⟩
    rw [List.foldl_cons, hbyAlias k]
    by_cases hk : k ∈ keys
    · rw [if_pos hk, if_pos (List.mem_cons_of_mem _ hk)]
    rw [if_neg hk]
    unfold bindKey
    dsimp only
    by_cases hkey : k = key
    · rw [hkey, Function.update_self, if_pos List.mem_cons_self]
    · rw [Function.update_of_ne hkey, if_neg fun hmem => (List.mem_cons.mp hmem).elim hkey hk]

theorem mem_matching {input : ToolActivityCorrelationInput} {m : Nat} :
    m ∈ t.matching input ↔ ∃ k ∈ toolActivityAliasKeys input, t.byAlias k = some m := by
  unfold matching
  rw [List.mem_dedup, List.mem_filterMap]

/-- The keys of an input, and all that share a marker with one of them. -/
def Met (t : HiddenToolActivityTracker) (input : ToolActivityCorrelationInput) (k : JsString) : Prop :=
  k ∈ toolActivityAliasKeys input ∨ ∃ m ∈ t.matching input, t.byAlias k = some m

/-- A marker that is found, or made, takes all that an input meets. -/
theorem bind_spec (h : Covers t) (input : ToolActivityCorrelationInput) (create : Bool)
    (hkeys : toolActivityAliasKeys input ≠ []) (hbinds : t.matching input ≠ [] ∨ create = true) :
    (t.bind input create).1 = true ∧ Covers (t.bind input create).2 ∧
      ∃ m, (m ∈ t.matching input ∨ ∀ k, t.byAlias k ≠ some m) ∧
        (∀ k, t.Met input k → (t.bind input create).2.byAlias k = some m) ∧
        ∀ k, ¬ t.Met input k → (t.bind input create).2.byAlias k = t.byAlias k := by
  have hbound : ∀ (t' : HiddenToolActivityTracker) (m : Nat), Covers t' → m < t'.count → t'.byAlias = t.byAlias →
      Covers ((toolActivityAliasKeys input).foldl (bindKey m) ((t.matching input).foldl (mergeMarker m) t')) ∧
      (∀ k, t.Met input k → ((toolActivityAliasKeys input).foldl (bindKey m)
        ((t.matching input).foldl (mergeMarker m) t')).byAlias k = some m) ∧
      ∀ k, ¬ t.Met input k → ((toolActivityAliasKeys input).foldl (bindKey m)
        ((t.matching input).foldl (mergeMarker m) t')).byAlias k = t.byAlias k := by
    intro t' m ht' hm hsame
    obtain ⟨hcovers, hcount, hmerged⟩ := foldl_mergeMarker ht' hm (t.matching input)
    obtain ⟨hcovers', hbound⟩ := foldl_bindKey hcovers (by rw [hcount]; exact hm) (toolActivityAliasKeys input)
    rw [hsame] at hmerged
    refine ⟨hcovers', fun k hk => ?_, fun k hk => ?_⟩
    · rw [hbound k]
      by_cases hkey : k ∈ toolActivityAliasKeys input
      · rw [if_pos hkey]
      · rw [if_neg hkey, hmerged k, if_pos (hk.resolve_left hkey)]
    · rw [hbound k, if_neg fun hkey => hk (.inl hkey), hmerged k, if_neg fun hm => hk (.inr hm)]
  unfold bind
  dsimp only
  rw [if_neg hkeys]
  cases hfound : (t.matching input).head? with
  | some m =>
    have hm : m ∈ t.matching input := List.mem_of_head? hfound
    obtain ⟨k, -, hk⟩ := mem_matching.mp hm
    rw [Option.some_or]
    dsimp only
    rw [if_neg (List.ne_nil_of_mem hm)]
    obtain ⟨hcovers, hmet, hother⟩ := hbound t m h (h.numbered k m hk) rfl
    exact ⟨rfl, hcovers, m, .inl hm, hmet, hother⟩
  | none =>
    have hempty : t.matching input = [] := List.head?_eq_none_iff.mp hfound
    have hcreate : create = true := hbinds.resolve_left fun hne => hne hempty
    rw [Option.none_or, hcreate, if_pos rfl]
    dsimp only
    rw [if_pos hempty]
    have hnew : ∀ k, t.byAlias k ≠ some t.count := fun k hk => Nat.lt_irrefl _ (h.numbered k t.count hk)
    have hfresh : Covers { t with aliases := Function.update t.aliases t.count [], count := t.count + 1 } := by
      refine ⟨fun k m hk => ?_, fun k m hk => Nat.lt_succ_of_lt (h.numbered k m hk)⟩
      have hne : m ≠ t.count := fun hm => hnew k (hm ▸ hk)
      dsimp only
      rw [Function.update_of_ne hne]
      exact h.known k m hk
    obtain ⟨hcovers, hmet, hother⟩ := hbound _ t.count hfresh (Nat.lt_succ_self _) rfl
    exact ⟨rfl, hcovers, t.count, .inr hnew, hmet, hother⟩

theorem bind_none {input : ToolActivityCorrelationInput} (hnone : t.matching input = []) :
    t.bind input false = (false, t) := by
  unfold bind
  dsimp only
  split
  · rfl
  · rw [hnone]
    rfl

/-! ## Retiring -/

theorem unbindAlias_byAlias (key : JsString) : (unbindAlias marker t key).byAlias k =
    if k = key ∧ t.byAlias k = some marker then none else t.byAlias k := by
  unfold unbindAlias
  by_cases hk : k = key
  · subst hk
    by_cases hm : t.byAlias k = some marker
    · rw [if_pos hm, if_pos ⟨rfl, hm⟩]
      exact Function.update_self _ _ _
    · rw [if_neg hm, if_neg fun h : k = k ∧ t.byAlias k = some marker => hm h.2]
  · rw [if_neg fun h : k = key ∧ t.byAlias k = some marker => hk h.1]
    split
    · exact Function.update_of_ne hk _ _
    · rfl

theorem Covers.unbindAlias (h : Covers t) (key : JsString) : Covers (unbindAlias marker t key) := by
  have hold : ∀ k m, (HiddenToolActivityTracker.unbindAlias marker t key).byAlias k = some m → t.byAlias k = some m := by
    intro k m hk
    rw [unbindAlias_byAlias] at hk
    split at hk
    · cases hk
    · exact hk
  have hrest : (HiddenToolActivityTracker.unbindAlias marker t key).aliases = t.aliases ∧
      (HiddenToolActivityTracker.unbindAlias marker t key).count = t.count := by
    unfold HiddenToolActivityTracker.unbindAlias
    split <;> exact ⟨rfl, rfl⟩
  constructor
  · intro k m hk
    rw [hrest.1]
    exact h.known k m (hold k m hk)
  · intro k m hk
    rw [hrest.2]
    exact h.numbered k m (hold k m hk)

theorem foldl_unbindAlias (h : Covers t) (l : List JsString) :
    Covers (l.foldl (unbindAlias marker) t) ∧ ∀ k, (l.foldl (unbindAlias marker) t).byAlias k =
      if k ∈ l ∧ t.byAlias k = some marker then none else t.byAlias k := by
  induction l generalizing t with
  | nil => exact ⟨h, fun k => (if_neg fun hk => absurd hk.1 List.not_mem_nil).symm⟩
  | cons key l ih =>
    obtain ⟨hcovers, hbyAlias⟩ := ih (h.unbindAlias key)
    refine ⟨hcovers, fun k => ?_⟩
    rw [List.foldl_cons, hbyAlias k, unbindAlias_byAlias]
    by_cases hk : k = key ∧ t.byAlias k = some marker
    · rw [if_pos hk, ite_self]
      exact (if_pos ⟨hk.1 ▸ List.mem_cons_self, hk.2⟩).symm
    · rw [if_neg hk]
      refine if_congr ⟨fun hkl => ⟨List.mem_cons_of_mem _ hkl.1, hkl.2⟩, fun hkl => ⟨?_, hkl.2⟩⟩ rfl rfl
      exact (List.mem_cons.mp hkl.1).resolve_left fun hkey => hk ⟨hkey, hkl.2⟩

theorem foldl_retireMarker (h : Covers t) (found : List Nat) :
    Covers (found.foldl retireMarker t) ∧ ∀ k, (found.foldl retireMarker t).byAlias k =
      if ∃ m ∈ found, t.byAlias k = some m then none else t.byAlias k := by
  induction found generalizing t with
  | nil => exact ⟨h, fun k => (if_neg fun ⟨_, hm, _⟩ => absurd hm List.not_mem_nil).symm⟩
  | cons marker found ih =>
    obtain ⟨hcovers, hbyAlias⟩ := foldl_unbindAlias h (t.aliases marker)
    have hcovers₁ : Covers (retireMarker t marker) := hcovers
    obtain ⟨hcovers', hbyAlias'⟩ := ih hcovers₁
    refine ⟨hcovers', fun k => ?_⟩
    rw [List.foldl_cons, hbyAlias' k]
    have hretired : (retireMarker t marker).byAlias k = if t.byAlias k = some marker then none else t.byAlias k :=
      (hbyAlias k).trans (if_congr ⟨And.right, fun hk => ⟨h.known k marker hk, hk⟩⟩ rfl rfl)
    rw [hretired]
    by_cases hk : t.byAlias k = some marker
    · rw [if_pos hk, ite_self]
      exact (if_pos ⟨marker, List.mem_cons_self, hk⟩).symm
    · rw [if_neg hk]
      refine if_congr ⟨fun ⟨m, hm, hkm⟩ => ⟨m, List.mem_cons_of_mem _ hm, hkm⟩, fun ⟨m, hm, hkm⟩ => ⟨m, ?_, hkm⟩⟩ rfl rfl
      exact (List.mem_cons.mp hm).resolve_left fun hmm => hk (hmm ▸ hkm)

end HiddenToolActivityTracker

/-! ## Groups of ids -/

section

variable {ν : Type}

/-- The ids of an event within its run. -/
def eventIds (event : AgentEventLike ν) : Set (JsString × JsString) :=
  {p | event.runId = some p.1 ∧ p.1 ≠ [] ∧ p.2 ∈ toolActivityUpstreamIds (identity p.1 event.data)}

def isHidden (event : AgentEventLike ν) : Bool := readsBool event.data "hideFromChannelProgress" true

/-- A visible start of a tool begins a new invocation. -/
def reopened (G : Set (Set (JsString × JsString))) (event : AgentEventLike ν) : Set (Set (JsString × JsString)) :=
  if canonicalStart event ∧ isHidden event = false then dissolve (eventIds event) G else G

/-- The event belongs to a hidden invocation. -/
def Withheld (G : Set (Set (JsString × JsString))) (event : AgentEventLike ν) : Prop :=
  tracksInvocation event = true ∧ ∃ g ∈ reopened G event, Meets (eventIds event) g

open Classical in
/-- The groups after an event. -/
noncomputable def nextGroups (G : Set (Set (JsString × JsString))) (event : AgentEventLike ν) :
    Set (Set (JsString × JsString)) :=
  if tracksInvocation event = true ∧ (eventIds event).Nonempty ∧ (isHidden event = true ∨ Withheld G event) then
    merge (eventIds event) (reopened G event)
  else reopened G event

noncomputable def hiddenGroups (events : List (AgentEventLike ν)) : Set (Set (JsString × JsString)) :=
  events.foldl nextGroups ∅

end

def pairKey (p : JsString × JsString) : JsString := aliasKey p.1 p.2

/-- The table holds these groups of ids. -/
structure Represents (P : Set (JsString × JsString)) (t : HiddenToolActivityTracker)
    (G : Set (Set (JsString × JsString))) : Prop where
  covers : t.Covers
  groups : classes P (t.byAlias ∘ pairKey) = G

section

variable {ν : Type} {P : Set (JsString × JsString)} {t : HiddenToolActivityTracker}
  {G : Set (Set (JsString × JsString))} {event : AgentEventLike ν} {runId : JsString}

theorem mem_eventIds (hrun : event.runId = some runId) (hne : runId ≠ []) {p : JsString × JsString} :
    p ∈ eventIds event ↔ p.1 = runId ∧ p.2 ∈ toolActivityUpstreamIds (identity runId event.data) := by
  constructor
  · rintro ⟨hp, -, hid⟩
    have heq : p.1 = runId := Option.some.inj (hp.symm.trans hrun)
    rw [heq] at hid
    exact ⟨heq, hid⟩
  · rintro ⟨rfl, hid⟩
    exact ⟨hrun, hne, hid⟩

theorem mem_aliasKeys {k : JsString} (hrun : event.runId = some runId) (hne : runId ≠ []) :
    k ∈ toolActivityAliasKeys (identity runId event.data) ↔ ∃ p ∈ eventIds event, pairKey p = k := by
  unfold toolActivityAliasKeys
  rw [List.mem_map]
  constructor
  · rintro ⟨id, hid, rfl⟩
    exact ⟨(runId, id), (mem_eventIds hrun hne).mpr ⟨rfl, hid⟩, rfl⟩
  · rintro ⟨p, hp, rfl⟩
    obtain ⟨rfl, hid⟩ := (mem_eventIds hrun hne).mp hp
    exact ⟨p.2, hid, rfl⟩

theorem mem_matching_iff (hrun : event.runId = some runId) (hne : runId ≠ []) {m : Nat} :
    m ∈ t.matching (identity runId event.data) ↔ Touched (eventIds event) (t.byAlias ∘ pairKey) m := by
  rw [HiddenToolActivityTracker.mem_matching]
  constructor
  · rintro ⟨k, hk, hm⟩
    obtain ⟨p, hp, rfl⟩ := (mem_aliasKeys hrun hne).mp hk
    exact ⟨p, hp, hm⟩
  · rintro ⟨p, hp, hm⟩
    exact ⟨pairKey p, (mem_aliasKeys hrun hne).mpr ⟨p, hp, rfl⟩, hm⟩

/-- What an event meets, among ids whose keys differ. -/
theorem met_iff (hP : Set.InjOn pairKey P) (hids : eventIds event ⊆ P) (hrun : event.runId = some runId)
    (hne : runId ≠ []) {p : JsString × JsString} (hp : p ∈ P) :
    t.Met (identity runId event.data) (pairKey p) ↔ p ∈ eventIds event ∨
      ∃ m, (t.byAlias ∘ pairKey) p = some m ∧ Touched (eventIds event) (t.byAlias ∘ pairKey) m := by
  refine or_congr ?_ ?_
  · rw [mem_aliasKeys hrun hne]
    constructor
    · rintro ⟨q, hq, hkey⟩
      rw [← hP (hids hq) hp hkey]
      exact hq
    · exact fun hp => ⟨p, hp, rfl⟩
  · exact exists_congr fun m => and_comm.trans (and_congr_right fun _ => mem_matching_iff hrun hne)

theorem matching_ne_nil (h : Represents P t G) (hids : eventIds event ⊆ P) (hrun : event.runId = some runId)
    (hne : runId ≠ []) : t.matching (identity runId event.data) ≠ [] ↔ ∃ g ∈ G, Meets (eventIds event) g := by
  rw [← h.groups]
  constructor
  · intro hmatch
    obtain ⟨m, hm⟩ := List.exists_mem_of_ne_nil _ hmatch
    have ht := (mem_matching_iff hrun hne).mp hm
    obtain ⟨p, hp, hlabel⟩ := ht
    exact ⟨_, mem_classes_of (hids hp) hlabel, (meets_class hids).mpr ⟨p, hp, hlabel⟩⟩
  · rintro ⟨_, ⟨-, m, rfl⟩, hmeets⟩
    exact List.ne_nil_of_mem ((mem_matching_iff hrun hne).mpr ((meets_class hids).mp hmeets))

theorem Represents.bind (h : Represents P t G) (hP : Set.InjOn pairKey P) (hids : eventIds event ⊆ P)
    (hrun : event.runId = some runId) (hne : runId ≠ []) (create : Bool) (hsome : (eventIds event).Nonempty)
    (hbinds : (∃ g ∈ G, Meets (eventIds event) g) ∨ create = true) :
    (t.bind (identity runId event.data) create).1 = true ∧
      Represents P (t.bind (identity runId event.data) create).2 (merge (eventIds event) G) := by
  obtain ⟨p, hp⟩ := hsome
  have hkeys : toolActivityAliasKeys (identity runId event.data) ≠ [] :=
    List.ne_nil_of_mem ((mem_aliasKeys hrun hne).mpr ⟨p, hp, rfl⟩)
  obtain ⟨hbound, hcovers, m, hm, hmet, hother⟩ := HiddenToolActivityTracker.bind_spec h.covers
    (identity runId event.data) create hkeys (hbinds.imp_left (matching_ne_nil h hids hrun hne).mpr)
  refine ⟨hbound, hcovers, ?_⟩
  rw [← h.groups]
  refine classes_merge hids ⟨p, hp⟩ (fun q hq hin => ?_) (fun q hq hout => ?_)
    (hm.imp (mem_matching_iff hrun hne).mp fun hnew q _ => hnew (pairKey q))
  · exact hmet (pairKey q) ((met_iff hP hids hrun hne hq).mpr hin)
  · exact hother (pairKey q) fun hin => hout ((met_iff hP hids hrun hne hq).mp hin)

theorem Represents.retire (h : Represents P t G) (hids : eventIds event ⊆ P) (hrun : event.runId = some runId)
    (hne : runId ≠ []) : Represents P (t.retire (identity runId event.data)) (dissolve (eventIds event) G) := by
  obtain ⟨hcovers, hbyAlias⟩ := HiddenToolActivityTracker.foldl_retireMarker h.covers (t.matching (identity runId event.data))
  refine ⟨hcovers, ?_⟩
  rw [← h.groups]
  refine classes_dissolve hids (fun q _ m hlabel ht => ?_) (fun q _ hno => ?_)
  · exact (hbyAlias (pairKey q)).trans (if_pos ⟨m, (mem_matching_iff hrun hne).mpr ht, hlabel⟩)
  · refine (hbyAlias (pairKey q)).trans (if_neg ?_)
    rintro ⟨m, hm, hlabel⟩
    exact hno m hlabel ((mem_matching_iff hrun hne).mp hm)

theorem tracks_of_canonicalStart (h : canonicalStart event = true) : tracksInvocation event = true := by
  obtain ⟨-, htool | ⟨hitem, hkind⟩⟩ := of_decide_eq_true h
  · exact decide_eq_true (.inl htool)
  · refine decide_eq_true (.inr (.inr (.inr ⟨hitem, ?_⟩)))
    rw [hkind]
    rfl

theorem meets_nonempty {s g : Set (JsString × JsString)} (h : Meets s g) : s.Nonempty := h.left

theorem no_keys (hrun : event.runId = some runId) (hne : runId ≠ []) (hnone : ¬ (eventIds event).Nonempty) :
    toolActivityAliasKeys (identity runId event.data) = [] := by
  refine List.eq_nil_iff_forall_not_mem.mpr fun k hk => ?_
  obtain ⟨p, hp, -⟩ := (mem_aliasKeys hrun hne).mp hk
  exact hnone ⟨p, hp⟩

namespace AgentToolActivitySink

/-- An event goes on where it is visible and meets no group. -/
theorem screen_spec (h : Represents P t G) (hP : Set.InjOn pairKey P) (hids : eventIds event ⊆ P)
    (hrun : event.runId = some runId) (hne : runId ≠ []) :
    ((screen runId event t).1 = true ↔ isHidden event = false ∧ ¬ Withheld G event) ∧
      Represents P (screen runId event t).2 (nextGroups G event) := by
  -- First the start of a new invocation.
  have hreopened : Represents P (if tracksInvocation event ∧ canonicalStart event ∧ isHidden event = false
      then t.retire (identity runId event.data) else t) (reopened G event) := by
    unfold reopened
    by_cases hstart : canonicalStart event = true ∧ isHidden event = false
    · rw [if_pos hstart, if_pos ⟨tracks_of_canonicalStart hstart.1, hstart⟩]
      exact h.retire hids hrun hne
    · rw [if_neg hstart, if_neg fun hc => hstart hc.2]
      exact h
  unfold screen
  dsimp only
  rw [show readsBool event.data "hideFromChannelProgress" true = isHidden event from rfl]
  generalize (if tracksInvocation event ∧ canonicalStart event ∧ isHidden event = false
      then t.retire (identity runId event.data) else t) = t₁ at hreopened ⊢
  unfold nextGroups
  by_cases htracks : tracksInvocation event = true
  · cases hhidden : isHidden event with
    | true =>
      rw [if_pos rfl, if_pos htracks]
      refine ⟨iff_of_false Bool.false_ne_true fun hc => Bool.noConfusion hc.1, ?_⟩
      by_cases hsome : (eventIds event).Nonempty
      · rw [if_pos ⟨htracks, hsome, .inl rfl⟩]
        exact (hreopened.bind hP hids hrun hne true hsome (.inr rfl)).2
      · rw [if_neg fun hc => hsome hc.2.1]
        have hkeys := no_keys hrun hne hsome
        have hkept : t₁.hide (identity runId event.data) = t₁ := by
          unfold HiddenToolActivityTracker.hide HiddenToolActivityTracker.bind
          dsimp only
          rw [if_pos hkeys]
        rw [hkept]
        exact hreopened
    | false =>
      rw [if_neg Bool.false_ne_true, if_pos htracks]
      by_cases hmeets : ∃ g ∈ reopened G event, Meets (eventIds event) g
      · obtain ⟨g, hg, hgm⟩ := hmeets
        have hwithheld : Withheld G event := ⟨htracks, g, hg, hgm⟩
        rw [if_pos ⟨htracks, hgm.left, .inr hwithheld⟩]
        obtain ⟨hbound, hmerged⟩ := hreopened.bind hP hids hrun hne false hgm.left (.inl ⟨g, hg, hgm⟩)
        refine ⟨iff_of_false ?_ fun hc => hc.2 hwithheld, hmerged⟩
        rw [show (t₁.suppresses (identity runId event.data)).1 = true from hbound]
        exact Bool.false_ne_true
      · have hnotheld : ¬ Withheld G event := fun hw => hmeets hw.2
        rw [if_neg fun hc => hc.2.2.elim Bool.false_ne_true hnotheld]
        have hnone : t₁.matching (identity runId event.data) = [] := by
          by_contra hmatch
          exact hmeets ((matching_ne_nil hreopened hids hrun hne).mp hmatch)
        rw [show t₁.suppresses (identity runId event.data) = (false, t₁) from HiddenToolActivityTracker.bind_none hnone]
        exact ⟨iff_of_true rfl ⟨rfl, hnotheld⟩, hreopened⟩
  · have hnotheld : ¬ Withheld G event := fun hw => htracks hw.1
    have hunmerged : ¬ (tracksInvocation event = true ∧ (eventIds event).Nonempty ∧
        (isHidden event = true ∨ Withheld G event)) := fun hc => htracks hc.1
    rw [if_neg hunmerged, if_neg htracks, if_neg htracks]
    cases hhidden : isHidden event with
    | true => exact ⟨iff_of_false Bool.false_ne_true fun hc => Bool.noConfusion hc.1, hreopened⟩
    | false => exact ⟨iff_of_true rfl ⟨rfl, hnotheld⟩, hreopened⟩

/-- What is sent was tracked. -/
theorem tracks_of_project (h : (project event).isSome = true) : tracksInvocation event = true := by
  unfold project at h
  dsimp only at h
  split at h
  · rename_i htool
    exact decide_eq_true (.inl htool)
  split at h
  · rename_i hitem
    split at h
    · cases h
    · split at h
      · rename_i hkind
        exact decide_eq_true (.inr (.inr (.inr ⟨hitem, hkind.1⟩)))
      · cases h
  · split at h
    · rename_i hspecial
      exact decide_eq_true (.inr (hspecial.imp_right .inl))
    · cases h

theorem eventIds_of_malformed (h : ¬ ∃ runId l, event.runId = some runId ∧ runId ≠ [] ∧ event.data = .obj l) :
    eventIds event = ∅ := by
  refine Set.eq_empty_of_forall_notMem fun p hp => ?_
  obtain ⟨hrun, hne, hid⟩ := hp
  refine h ⟨p.1, ?_⟩
  cases hdata : event.data with
  | obj l => exact ⟨l, hrun, hne, rfl⟩
  | _ =>
    rw [hdata] at hid
    cases hid

theorem handle_malformed {turnId : JsString} {s : AgentToolActivitySink}
    (h : ¬ ∃ runId l, event.runId = some runId ∧ runId ≠ [] ∧ event.data = .obj l) :
    handle turnId s event = (none, s) := by
  unfold handle
  split
  · rename_i runId l hrun hdata
    by_cases hne : runId = []
    · rw [if_pos hne]
    · exact absurd ⟨runId, l, hrun, hne, hdata⟩ h
  · rfl

theorem handle_wellFormed {turnId : JsString} {s : AgentToolActivitySink} {l : List (JsString × Json ν)}
    (hrun : event.runId = some runId) (hne : runId ≠ []) (hdata : event.data = .obj l) :
    handle turnId s event =
      if (screen runId event s.hiddenInvocations).1 then
        emit turnId runId event { s with hiddenInvocations := (screen runId event s.hiddenInvocations).2 }
      else (none, { s with hiddenInvocations := (screen runId event s.hiddenInvocations).2 }) := by
  unfold handle
  rw [hrun, hdata]
  dsimp only
  rw [if_neg hne]

theorem emit_hidden (turnId : JsString) (s : AgentToolActivitySink) :
    (emit turnId runId event s).2.hiddenInvocations = s.hiddenInvocations := by
  unfold emit
  split <;> rfl

/-- What is sent does not depend on the hidden invocations any further. -/
theorem emit_payload (turnId : JsString) (s : AgentToolActivitySink) (t : HiddenToolActivityTracker) :
    (emit turnId runId event { s with hiddenInvocations := t }).1 = (emit turnId runId event s).1 := by
  unfold emit
  split <;> rfl

/-- One event, over groups that the table represents. -/
theorem handle_spec {s : AgentToolActivitySink} (turnId : JsString) (h : Represents P s.hiddenInvocations G)
    (hP : Set.InjOn pairKey P) (hids : eventIds event ⊆ P) :
    Represents P (handle turnId s event).2.hiddenInvocations (nextGroups G event) := by
  by_cases hwell : ∃ runId l, event.runId = some runId ∧ runId ≠ [] ∧ event.data = .obj l
  · obtain ⟨runId, l, hrun, hne, hdata⟩ := hwell
    have hscreen := (screen_spec h hP hids hrun hne).2
    rw [handle_wellFormed hrun hne hdata]
    split
    · rw [emit_hidden]
      exact hscreen
    · exact hscreen
  · rw [handle_malformed hwell]
    have hempty := eventIds_of_malformed hwell
    have hsame : nextGroups G event = G := by
      have hreopened : reopened G event = G := by
        unfold reopened dissolve
        rw [hempty]
        split
        · exact Set.ext fun g => and_iff_left fun hm => Set.not_nonempty_empty (meets_nonempty hm)
        · rfl
      unfold nextGroups
      rw [if_neg (fun hc => Set.not_nonempty_empty (hempty ▸ hc.2.1)), hreopened]
    rw [hsame]
    exact h

/-- The table holds the groups of the events so far. -/
theorem run_represents (turnId : JsString) (hP : Set.InjOn pairKey P) {s : AgentToolActivitySink}
    (h : Represents P s.hiddenInvocations G) {es : List (AgentEventLike ν)} (hes : ∀ e ∈ es, eventIds e ⊆ P) :
    Represents P (run turnId s es).2.hiddenInvocations (es.foldl nextGroups G) := by
  induction es generalizing s G with
  | nil => exact h
  | cons e es ih =>
    exact ih (handle_spec turnId h hP (hes e List.mem_cons_self)) fun e' he' => hes e' (List.mem_cons_of_mem _ he')

theorem represents_initial : Represents P (({} : AgentToolActivitySink).hiddenInvocations) ∅ := by
  refine ⟨.initial, Set.eq_empty_of_forall_notMem ?_⟩
  rintro _ ⟨⟨p, hp⟩, m, rfl⟩
  cases hp.2

/-- The ids of all events. -/
def allIds (events : List (AgentEventLike ν)) : Set (JsString × JsString) := {p | ∃ e ∈ events, p ∈ eventIds e}

/-- As long as the ids of a sequence have different keys, the table holds exactly the groups of ids, and an
event goes on exactly where it is visible and meets none of them. -/
theorem hidden_stays_hidden (turnId : JsString) {events : List (AgentEventLike ν)}
    (hkeys : Set.InjOn pairKey (allIds events)) {front rest : List (AgentEventLike ν)} {event : AgentEventLike ν}
    (hsplit : events = front ++ event :: rest) :
    let s := (run turnId {} front).2
    let G := hiddenGroups front
    classes (allIds events) (s.hiddenInvocations.byAlias ∘ pairKey) = G ∧
      ((handle turnId s event).1.isSome = true →
        isHidden event = false ∧ ∀ g ∈ reopened G event, ¬ Meets (eventIds event) g) ∧
      ∀ runId l, event.runId = some runId → runId ≠ [] → event.data = .obj l → isHidden event = false →
        (∀ g ∈ reopened G event, ¬ Meets (eventIds event) g) →
        (handle turnId s event).1 = (emit turnId runId event s).1 := by
  intro s G
  have hmem : ∀ e ∈ events, eventIds e ⊆ allIds events := fun e he p hp => ⟨e, he, hp⟩
  have hfront : ∀ e ∈ front, eventIds e ⊆ allIds events := fun e he =>
    hmem e (hsplit ▸ List.mem_append_left _ he)
  have hevent : eventIds event ⊆ allIds events := hmem event (hsplit ▸ List.mem_append_right _ List.mem_cons_self)
  have hs : Represents (allIds events) s.hiddenInvocations G := run_represents turnId hkeys represents_initial hfront
  refine ⟨hs.groups, fun hsent => ?_, ?_⟩
  · by_cases hwell : ∃ runId l, event.runId = some runId ∧ runId ≠ [] ∧ event.data = .obj l
    · obtain ⟨runId, l, hrun, hne, hdata⟩ := hwell
      rw [handle_wellFormed hrun hne hdata] at hsent
      split at hsent
      · rename_i hpass
        obtain ⟨hvisible, hnotheld⟩ := (screen_spec hs hkeys hevent hrun hne).1.mp hpass
        refine ⟨hvisible, fun g hg hmeets => hnotheld ⟨tracks_of_project ?_, g, hg, hmeets⟩⟩
        unfold emit at hsent
        split at hsent
        · cases hsent
        · rename_i p hp
          rw [hp]
          rfl
      · cases hsent
    · rw [handle_malformed hwell] at hsent
      cases hsent
  · intro runId l hrun hne hdata hvisible hmeets
    have hpass := (screen_spec hs hkeys hevent hrun hne).1.mpr ⟨hvisible, fun hw => by
      obtain ⟨-, g, hg, hgm⟩ := hw
      exact hmeets g hg hgm⟩
    rw [handle_wellFormed hrun hne hdata, if_pos hpass, emit_payload]

/-- Keys of runs without a NUL in their names differ. -/
theorem pairKey_injOn (h : ∀ p ∈ P, (0 : UInt16) ∉ p.1) : Set.InjOn pairKey P := by
  have hscope : ∀ p ∈ P, (pairKey p).takeWhile (· ≠ 0) = p.1 := by
    intro p hp
    have hall : ∀ u ∈ p.1, decide (u ≠ 0) = true := fun u hu => decide_eq_true fun hz => h p hp (hz ▸ hu)
    unfold pairKey aliasKey
    rw [List.takeWhile_append_of_pos hall]
    exact List.append_nil _
  intro p hp q hq hkey
  have hrun : p.1 = q.1 := (hscope p hp).symm.trans ((congrArg (List.takeWhile (· ≠ 0)) hkey).trans (hscope q hq))
  have hid : (0 : UInt16) :: p.2 = 0 :: q.2 := by
    unfold pairKey aliasKey at hkey
    rw [hrun] at hkey
    exact List.append_cancel_left hkey
  exact Prod.ext hrun (List.cons.inj hid).2

/-- An event of a tool that has only an id. -/
def toolEvent (runId : JsString) (phase : String) (toolCallId : JsString) (hidden : Bool) : AgentEventLike Nat where
  runId := some runId
  stream := some (js "tool")
  data := .obj [(js "phase", .str (js phase)), (js "toolCallId", .str toolCallId),
    (js "hideFromChannelProgress", .bool hidden)]

theorem hidden_stays_hidden_call :
    (run (js "turn") {} [toolEvent (js "run") "start" (js "call") true]).1 = [none] ∧
    ((handle (js "turn") (run (js "turn") {} [toolEvent (js "run") "start" (js "call") true]).2
      (toolEvent (js "run") "update" (js "call") false)).1.isSome = true →
    isHidden (toolEvent (js "run") "update" (js "call") false) = false ∧
      ∀ g ∈ reopened (hiddenGroups [toolEvent (js "run") "start" (js "call") true])
        (toolEvent (js "run") "update" (js "call") false),
        ¬ Meets (eventIds (toolEvent (js "run") "update" (js "call") false)) g) := by
  have hkeys : Set.InjOn pairKey (allIds [toolEvent (js "run") "start" (js "call") true,
      toolEvent (js "run") "update" (js "call") false]) := by
    refine pairKey_injOn fun p hp => ?_
    obtain ⟨e, he, hrun, -, -⟩ := hp
    have hname : some p.1 = some (js "run") := by
      obtain rfl | he := List.mem_cons.mp he
      · exact hrun.symm
      · rw [List.mem_singleton.mp he] at hrun
        exact hrun.symm
    rw [Option.some.inj hname]
    decide
  refine ⟨rfl, ?_⟩
  exact (hidden_stays_hidden (js "turn") hkeys (show _ = [toolEvent (js "run") "start" (js "call") true] ++ _ :: [] from rfl)).2.1

/-- An update of one run is withheld for a hidden call of another, whose name ends before a NUL. -/
theorem hidden_across_runs :
    let hidden := toolEvent (js "a") "start" (js "b" ++ 0 :: js "c") true
    let other := toolEvent (js "a" ++ 0 :: js "b") "update" (js "c") false
    isHidden other = false ∧ (∀ g ∈ reopened (hiddenGroups [hidden]) other, ¬ Meets (eventIds other) g) ∧
      (handle (js "turn") (run (js "turn") {} [hidden]).2 other).1 = none ∧
      (emit (js "turn") (js "a" ++ 0 :: js "b") other (run (js "turn") {} [hidden]).2).1 ≠ none := by
  intro hidden other
  refine ⟨rfl, ?_, ?_, ?_⟩
  · -- Every group there is has ids of the first run only.
    intro g hg hmeets
    have hG : g ∈ nextGroups ∅ hidden := by
      unfold reopened at hg
      split at hg
      · exact hg.1
      · exact hg
    have hempty : reopened ∅ hidden = ∅ := by
      unfold reopened
      split
      · exact Set.eq_empty_of_forall_notMem fun g hg => hg.1
      · rfl
    have hsub : ∀ p ∈ g, p ∈ eventIds hidden := by
      unfold nextGroups at hG
      rw [hempty] at hG
      split at hG
      · intro p hp
        obtain rfl | hG := hG
        · obtain hp | ⟨g', hg', -⟩ := hp
          · exact hp
          · exact absurd hg'.1 (Set.notMem_empty g')
        · exact absurd hG.1 (Set.notMem_empty g)
      · exact absurd hG (Set.notMem_empty g)
    obtain ⟨p, hp, hpg⟩ := hmeets
    have hrun : some (js "a" ++ 0 :: js "b") = some p.1 := hp.1
    have hrun' : some (js "a") = some p.1 := (hsub p hpg).1
    have hne : js "a" ++ 0 :: js "b" ≠ js "a" := by decide
    exact hne (Option.some.inj (hrun.trans hrun'.symm))
  · decide +kernel
  · decide +kernel

end AgentToolActivitySink

end

end Webchannel.Activity
