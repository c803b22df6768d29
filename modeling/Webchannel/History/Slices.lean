import Mathlib.Data.List.DropRight
import Mathlib.Data.List.Forall2
import Mathlib.Data.List.Nodup
import Webchannel.History.Paging

/-!
# Every page is a slice of the wide window

A fetched window shows the displayable rows of a tail of the transcript. Where a small tail is
trusted, the slice before the cursor lies inside it, so it is the slice of the widest tail.
-/

namespace Webchannel.History

variable {platform : Platform} {row : Raw} {rows transcript : List Raw} {cursor : JsString} {limit n : Nat}

/-! ### Rows -/

/-- Whether a row is shown depends neither on the clock nor on where it stands. -/
def displayable (platform : Platform) (raw : Raw) : Bool :=
  match raw with
  | .obj l => (project platform (.obj l)).isSome
  | _ => false

/-- The message is the row, read at some time and place. -/
def Shows (platform : Platform) (m : HistoryMessage) (row : Raw) : Prop := ∃ now idx, normalize platform now idx row = some m

/-- Every row has an identity of its own, and no two have the same. -/
structure Identified (rows : List Raw) : Prop where
  own : ∀ row ∈ rows, (ownId row).isSome = true
  distinct : (rows.map ownId).Nodup

theorem Identified.sublist (h : Identified rows) {rows' : List Raw} (hsub : rows'.Sublist rows) : Identified rows' :=
  ⟨fun row hrow => h.own row (hsub.subset hrow), h.distinct.sublist (hsub.map ownId)⟩

theorem ownId_ne_nil (raw : Raw) : ownId raw ≠ some [] := by
  unfold ownId
  split
  · split
    · split
      · exact nofun
      · rename_i hid
        exact fun hown => hid (Option.some.inj hown)
    · exact nofun
  · exact nofun

theorem normalize_isSome (platform : Platform) (now : Rat) (idx : Nat) (raw : Raw) :
    (normalize platform now idx raw).isSome = displayable platform raw := by
  cases raw with
  | obj l => exact Option.isSome_map
  | _ => rfl

/-- A shown row with an identity keeps it. -/
theorem Shows.id_eq {m : HistoryMessage} (h : Shows platform m row) (hown : (ownId row).isSome = true) :
    ownId row = some m.id := by
  obtain ⟨now, idx, hnormal⟩ := h
  obtain ⟨id, hid⟩ := Option.isSome_iff_exists.mp hown
  cases row with
  | obj l =>
    obtain ⟨shown, -, rfl⟩ := Option.map_eq_some_iff.mp hnormal
    simp only [extractId, hid]
  | _ => cases hnormal

theorem shows_normalizeAll (platform : Platform) (now : Nat → Rat) (rows : List Raw) :
    List.Forall₂ (Shows platform) (normalizeAll platform now rows) (rows.filter (displayable platform)) := by
  unfold normalizeAll
  generalize 0 = k
  induction rows generalizing k with
  | nil => exact .nil
  | cons row rows ih =>
    rw [List.zipIdx_cons]
    have hshown := normalize_isSome platform (now k) k row
    cases hnormal : normalize platform (now k) k row with
    | none =>
      rw [hnormal] at hshown
      rw [List.filterMap_cons, List.filter_cons_of_neg (by rw [← hshown]; exact nofun)]
      simp only [hnormal]
      exact ih (k + 1)
    | some m =>
      rw [hnormal] at hshown
      rw [List.filterMap_cons, List.filter_cons_of_pos (by rw [← hshown]; rfl)]
      simp only [hnormal]
      exact .cons ⟨now k, k, hnormal⟩ (ih (k + 1))

/-! ### Slices -/

section Slices

variable {α β : Type} {R : α → β → Prop} {l : List α} {m : List β}

theorem findIdx_eq_of_forall₂ (h : List.Forall₂ R l m) {p : α → Bool} {q : β → Bool} (hpq : ∀ a b, b ∈ m → R a b → p a = q b) :
    l.findIdx? p = m.findIdx? q := by
  induction h with
  | nil => rfl
  | cons hab _ ih =>
    rw [List.findIdx?_cons, List.findIdx?_cons, hpq _ _ List.mem_cons_self hab,
      ih fun a b hb hr => hpq a b (List.mem_cons_of_mem _ hb) hr]

theorem olderSlice_forall₂ (h : List.Forall₂ R l m) (idx limit : Nat) :
    List.Forall₂ R (olderSlice l idx limit) (olderSlice m idx limit) :=
  List.forall₂_drop _ (List.forall₂_take _ h)

/-- A slice that lies inside a tail is a slice of the whole. -/
theorem olderSlice_append (a : List α) {idx : Nat} (h : limit ≤ idx) :
    olderSlice (a ++ l) (idx + a.length) limit = olderSlice l idx limit := by
  unfold olderSlice
  have hdrop : idx + a.length - limit = a.length + (idx - limit) := by omega
  rw [Nat.add_comm idx, List.take_length_add_append, Nat.add_comm a.length idx, hdrop, List.drop_length_add_append]

theorem olderSlice_eq_rtake {idx : Nat} (h : idx ≤ l.length) : olderSlice l idx limit = (l.take idx).rtake limit := by
  rw [olderSlice, List.rtake, List.length_take, Nat.min_eq_left h]

end Slices

/-- The rows that are shown of the last `n` of a transcript. -/
def shownOf (platform : Platform) (transcript : List Raw) (n : Nat) : List Raw :=
  (transcript.rtake n).filter (displayable platform)

/-- The displayable rows of the widest window that can be fetched. -/
def wideRows (platform : Platform) (transcript : List Raw) : List Raw := shownOf platform transcript MAX_FETCH_WINDOW

/-- The rows in front of the cursor, where the cursor is one of the rows. -/
def olderThan (cursor : JsString) (rows : List Raw) : List Raw :=
  if rows.any (fun row => decide (ownId row = some cursor)) then rows.takeWhile fun row => decide (ownId row ≠ some cursor) else []

/-- A store that serves the last rows of a transcript, up to the cap. -/
def serves (transcript : List Raw) : Store := fun n => some (transcript.rtake (min n MAX_FETCH_WINDOW))

theorem rtake_sublist {α : Type} (n : Nat) (l : List α) : (l.rtake n).Sublist l := List.drop_sublist _ l

/-- A smaller window is a tail of a larger one. -/
theorem shownOf_suffix (platform : Platform) (transcript : List Raw) {n n' : Nat} (h : n ≤ n') :
    shownOf platform transcript n <:+ shownOf platform transcript n' := by
  refine List.IsSuffix.filter _ ?_
  have hdrop : transcript.rtake n = (transcript.rtake n').drop (transcript.length - n - (transcript.length - n')) := by
    rw [List.rtake, List.rtake, List.drop_drop]
    congr 1
    omega
  rw [hdrop]
  exact List.drop_suffix _ _

theorem Identified.shownOf (h : Identified transcript) (platform : Platform) (n : Nat) : Identified (shownOf platform transcript n) :=
  h.sublist (List.filter_sublist.trans (rtake_sublist n transcript))

theorem window_shows (platform : Platform) (transcript : List Raw) (now : Nat → Rat) (n : Nat) :
    ∃ window, readFromStore platform (serves transcript) now n = some window ∧
      List.Forall₂ (Shows platform) window (shownOf platform transcript (min n MAX_FETCH_WINDOW)) :=
  ⟨_, rfl, shows_normalizeAll platform now _⟩

/-- The cursor is looked up among the messages as it would be among the rows. -/
theorem findIdx_window {window : List HistoryMessage} (h : List.Forall₂ (Shows platform) window rows) (hrows : Identified rows) :
    window.findIdx? (·.id = cursor) = rows.findIdx? fun row => decide (ownId row = some cursor) := by
  refine findIdx_eq_of_forall₂ h fun m row hrow hshows => ?_
  rw [hshows.id_eq (hrows.own row hrow), decide_eq_decide, Option.some.injEq]

theorem olderThan_of_findIdx {idx : Nat} (h : rows.findIdx? (fun row => decide (ownId row = some cursor)) = some idx) :
    olderThan cursor rows = rows.take idx ∧ idx < rows.length := by
  obtain ⟨hlt, hmatch, hbefore⟩ := List.findIdx?_eq_some_iff_getElem.mp h
  have hany : rows.any (fun row => decide (ownId row = some cursor)) = true :=
    List.any_eq_true.mpr ⟨_, List.getElem_mem hlt, hmatch⟩
  refine ⟨?_, hlt⟩
  rw [olderThan, if_pos hany]
  have hsplit : rows = rows.take idx ++ rows[idx] :: rows.drop (idx + 1) := by simp
  have hall : ∀ row ∈ rows.take idx, (fun row => decide (ownId row ≠ some cursor)) row = true := by
    intro row hrow
    obtain ⟨j, hj, rfl⟩ := List.mem_iff_getElem.mp hrow
    rw [List.length_take] at hj
    have hno := hbefore j (by omega)
    rw [List.getElem_take]
    simpa using hno
  conv_lhs => rw [hsplit]
  rw [List.takeWhile_append_of_pos hall, List.takeWhile_cons_of_neg (by simpa using hmatch), List.append_nil]

theorem olderThan_of_none (h : rows.findIdx? (fun row => decide (ownId row = some cursor)) = none) :
    olderThan cursor rows = [] := by
  rw [olderThan, if_neg]
  intro hany
  obtain ⟨row, hrow, hmatch⟩ := List.any_eq_true.mp hany
  have hno := List.findIdx?_eq_none_iff.mp h row hrow
  rw [hno] at hmatch
  cases hmatch

/-- The slice of a tail that holds the cursor far enough from its left edge. -/
theorem findIdx_suffix (hrows : Identified rows) {tail : List Raw} (hsuffix : tail <:+ rows) {idx : Nat}
    (h : tail.findIdx? (fun row => decide (ownId row = some cursor)) = some idx) :
    ∃ front, rows = front ++ tail ∧
      rows.findIdx? (fun row => decide (ownId row = some cursor)) = some (idx + front.length) := by
  obtain ⟨front, rfl⟩ := hsuffix
  refine ⟨front, rfl, ?_⟩
  have hfront : front.findIdx? (fun row => decide (ownId row = some cursor)) = none := by
    refine List.findIdx?_eq_none_iff.mpr fun row hrow => decide_eq_false fun hrowId => ?_
    obtain ⟨hlt, hmatch, -⟩ := List.findIdx?_eq_some_iff_getElem.mp h
    have hdisjoint := List.disjoint_of_nodup_append (List.map_append ▸ hrows.distinct)
    refine hdisjoint (List.mem_map.mpr ⟨row, hrow, hrowId⟩) (List.mem_map.mpr ⟨_, List.getElem_mem hlt, ?_⟩)
    exact of_decide_eq_true hmatch
  rw [List.findIdx?_append, hfront, h]
  rfl

/-! ### One page -/

variable {now : Bool → Nat → Rat} {sessionKey : JsString}

/-- What the wide window answers is the slice. -/
theorem wide_slice (cursor : JsString) (limit : Nat) {wide : List HistoryMessage} (h : List.Forall₂ (Shows platform) wide rows) (hrows : Identified rows) :
    List.Forall₂ (Shows platform)
      (match wide.findIdx? (·.id = cursor) with
        | some wideIdx => olderSlice wide wideIdx limit
        | none => [])
      ((olderThan cursor rows).rtake limit) := by
  rw [findIdx_window h hrows]
  cases hfind : rows.findIdx? (fun row => decide (ownId row = some cursor)) with
  | none =>
    rw [olderThan_of_none hfind, List.rtake_nil]
    exact .nil
  | some idx =>
    obtain ⟨holder, hlt⟩ := olderThan_of_findIdx hfind
    rw [holder, ← olderSlice_eq_rtake (Nat.le_of_lt hlt)]
    exact olderSlice_forall₂ h idx limit

/-- A page is the slice of the wide window, whichever window it was taken from. -/
theorem pageBefore_slice (htranscript : Identified transcript) (hsession : sessionKey ≠ []) (hlimit : 1 ≤ limit) :
    List.Forall₂ (Shows platform) (pageBefore platform (serves transcript) now sessionKey cursor limit)
      ((olderThan cursor (wideRows platform transcript)).rtake limit) := by
  have hwideRows : Identified (wideRows platform transcript) := htranscript.shownOf platform _
  by_cases hcursor : cursor = []
  · -- No row has the empty identity.
    have hnone : (wideRows platform transcript).findIdx? (fun row => decide (ownId row = some cursor)) = none := by
      refine List.findIdx?_eq_none_iff.mpr fun row _ => decide_eq_false fun hown => ?_
      exact ownId_ne_nil row (hcursor ▸ hown)
    rw [pageBefore, if_pos (.inr (.inl hcursor)), olderThan_of_none hnone, List.rtake_nil]
    exact .nil
  rw [pageBefore, if_neg (by simp [hsession, hcursor]; omega)]
  dsimp only
  obtain ⟨window, hread, hwindow⟩ := window_shows platform transcript (now false) (min (limit * 2) MAX_FETCH_WINDOW)
  obtain ⟨wide, hreadWide, hwide⟩ := window_shows platform transcript (now true) MAX_FETCH_WINDOW
  rw [hread]
  rw [Nat.min_eq_left (Nat.min_le_right _ _)] at hwindow
  rw [Nat.min_self] at hwide
  dsimp only
  have hsmall := htranscript.shownOf platform (min (limit * 2) MAX_FETCH_WINDOW)
  have hidx : window.findIdx? (·.id = cursor) = _ := findIdx_window hwindow hsmall
  by_cases hmax : MAX_FETCH_WINDOW ≤ min (limit * 2) MAX_FETCH_WINDOW
  · -- The first window is the widest one.
    have hsame : min (limit * 2) MAX_FETCH_WINDOW = MAX_FETCH_WINDOW := Nat.le_antisymm (Nat.min_le_right _ _) hmax
    have hslice := wide_slice cursor limit hwindow hsmall
    rw [hsame] at hslice
    cases hfind : window.findIdx? (·.id = cursor) with
    | none =>
      rw [hfind] at hslice
      simp only [Option.filter_none, if_pos hmax]
      exact hslice
    | some idx =>
      rw [hfind] at hslice
      rw [Option.filter_some, if_pos (by simp [hmax])]
      exact hslice
  · rw [if_neg hmax, hreadWide]
    have hwideSlice := wide_slice cursor limit hwide hwideRows
    cases hfind : window.findIdx? (·.id = cursor) with
    | none =>
      rw [Option.filter_none]
      exact hwideSlice
    | some idx =>
      by_cases hfull : limit ≤ idx
      · -- A full page stands in front of the cursor.
        rw [Option.filter_some, if_pos (by simp [hfull])]
        rw [hfind] at hidx
        obtain ⟨front, hrows, hwideIdx⟩ := findIdx_suffix hwideRows (shownOf_suffix platform transcript (Nat.min_le_right _ _)) hidx.symm
        obtain ⟨holder, hlt⟩ := olderThan_of_findIdx hwideIdx
        rw [holder, ← olderSlice_eq_rtake (Nat.le_of_lt hlt), hrows, olderSlice_append front hfull]
        exact olderSlice_forall₂ hwindow idx limit
      · rw [Option.filter_some, if_neg (by simp [hfull]; omega)]
        exact hwideSlice

end Webchannel.History
