import Mathlib.Tactic.Linarith
import Webchannel.History.Slices

/-!
# Paging through the window, and requests

Paging from the oldest message received walks the window to its left edge. A request whose limit
is floored to zero, or one without a cursor whose last rows are all hidden, is answered with an
empty page although the window has more to show.
-/

namespace Webchannel.History

variable {platform : Platform} {row : Raw} {rows transcript : List Raw} {cursor : JsString} {limit n fuel : Nat}
  {sessionKey : JsString}

/-! ### Paging -/

/-- The pages that are received, each from the oldest message of the one before, until one is
empty. `clocks` gives every request clocks of its own. -/
def pagesFrom (platform : Platform) (store : Store) (clocks : Nat → Bool → Nat → Rat) (sessionKey : JsString) (limit : Nat) :
    Nat → JsString → Option (List (List HistoryMessage))
  | 0, _ => none
  | n + 1, cursor =>
    match pageBefore platform store (clocks n) sessionKey cursor limit with
    | [] => some []
    | oldest :: page => (pagesFrom platform store clocks sessionKey limit n oldest.id).map ((oldest :: page) :: ·)

/-- Nothing in front of a cursor is the cursor itself. -/
theorem ne_cursor_of_olderThan (h : row ∈ olderThan cursor rows) : ownId row ≠ some cursor := by
  unfold olderThan at h
  split at h
  · simpa using List.mem_takeWhile_imp h
  · cases h

theorem olderThan_sublist (cursor : JsString) (rows : List Raw) : (olderThan cursor rows).Sublist rows := by
  unfold olderThan
  split
  · exact List.takeWhile_sublist _
  · exact List.nil_sublist _

/-- In front of the row at `idx` stand the rows before it. -/
theorem olderThan_getElem (hrows : Identified rows) {idx : Nat} (hlt : idx < rows.length) (h : ownId rows[idx] = some cursor) :
    olderThan cursor rows = rows.take idx := by
  have hfind : rows.findIdx? (fun row => decide (ownId row = some cursor)) = some idx := by
    refine List.findIdx?_eq_some_iff_getElem.mpr ⟨hlt, decide_eq_true h, fun j hj hmatch => ?_⟩
    have hother : j < (rows.map ownId).length := by
      rw [List.length_map]
      omega
    have hself : idx < (rows.map ownId).length := by rwa [List.length_map]
    have hsame : (rows.map ownId)[j] = (rows.map ownId)[idx] := by
      rw [List.getElem_map, List.getElem_map, of_decide_eq_true hmatch, h]
    exact Nat.ne_of_lt hj ((hrows.distinct.getElem_inj_iff).mp hsame)
  exact (olderThan_of_findIdx hfind).1

/-- Paging from the row at `idx` receives all rows before it, in their order. -/
theorem pagesFrom_getElem {store : Store} (hrows : Identified rows) (hlimit : 1 ≤ limit)
    (hslice : ∀ now cursor, List.Forall₂ (Shows platform) (pageBefore platform store now sessionKey cursor limit)
      ((olderThan cursor rows).rtake limit))
    (clocks : Nat → Bool → Nat → Rat) {idx : Nat} (hlt : idx < rows.length) (h : ownId rows[idx] = some cursor)
    (hfuel : idx < fuel) :
    ∃ pages, pagesFrom platform store clocks sessionKey limit fuel cursor = some pages ∧
      List.Forall₂ (Shows platform) pages.reverse.flatten (rows.take idx) := by
  induction fuel generalizing idx cursor with
  | zero => exact absurd hfuel (Nat.not_lt_zero _)
  | succ fuel ih =>
    have hpage := hslice (clocks fuel) cursor
    rw [olderThan_getElem hrows hlt h, ← olderSlice_eq_rtake (Nat.le_of_lt hlt), olderSlice] at hpage
    rw [pagesFrom]
    split
    · -- The page is empty: nothing stands before the row.
      rename_i hempty
      rw [hempty] at hpage
      refine ⟨[], rfl, ?_⟩
      have hnil := List.drop_eq_nil_iff.mp (List.forall₂_nil_left_iff.mp hpage)
      rw [List.length_take, Nat.min_eq_left (Nat.le_of_lt hlt)] at hnil
      obtain rfl : idx = 0 := by omega
      rw [List.take_zero]
      exact .nil
    · rename_i oldest page hcons
      rw [hcons] at hpage
      obtain ⟨row, rest, holdest, hrest, htail⟩ := List.forall₂_cons_left_iff.mp hpage
      have hstart : idx - limit < idx := by
        have hlen := congrArg List.length htail
        rw [List.length_drop, List.length_take, List.length_cons, Nat.min_eq_left (Nat.le_of_lt hlt)] at hlen
        omega
      have hbound : idx - limit < rows.length := hstart.trans hlt
      have hrow : rows[idx - limit] = row := by
        have hget := congrArg (·[0]?) htail
        simp only [List.getElem?_drop, Nat.add_zero, List.getElem?_cons_zero, List.getElem?_take_of_lt hstart] at hget
        exact (List.getElem?_eq_some_iff.mp hget).2
      have hown : ownId rows[idx - limit] = some oldest.id := by
        rw [hrow]
        exact holdest.id_eq (hrows.own row (hrow ▸ List.getElem_mem _))
      obtain ⟨pages, hpages, hshown⟩ := ih hbound hown (by omega)
      refine ⟨(oldest :: page) :: pages, by rw [hpages]; rfl, ?_⟩
      rw [List.reverse_cons, List.flatten_append, List.flatten_singleton]
      have hsplit : rows.take idx =
          rows.take (idx - limit) ++ (rows.take idx).drop (idx - limit) := by
        conv_lhs => rw [← List.take_append_drop (idx - limit) (rows.take idx)]
        rw [List.take_take, Nat.min_eq_left (Nat.sub_le _ _)]
      rw [hsplit]
      exact List.rel_append hshown hpage

/-- A page is the last `limit` displayable rows in front of the cursor among the last 1000 rows;
it never shows the cursor, and paging on from the oldest message receives every older row once. -/
theorem paging_is_slicing (platform : Platform) (htranscript : Identified transcript) (hsession : sessionKey ≠ [])
    (hlimit : 1 ≤ limit) :
    (∀ (now : Bool → Nat → Rat) (cursor : JsString),
      List.Forall₂ (Shows platform) (pageBefore platform (serves transcript) now sessionKey cursor limit)
        ((olderThan cursor (wideRows platform transcript)).rtake limit) ∧
      ∀ m ∈ pageBefore platform (serves transcript) now sessionKey cursor limit, m.id ≠ cursor) ∧
    ∀ (clocks : Nat → Bool → Nat → Rat) (cursor : JsString) (fuel : Nat),
      (∃ row ∈ wideRows platform transcript, ownId row = some cursor) → (wideRows platform transcript).length < fuel →
        ∃ pages, pagesFrom platform (serves transcript) clocks sessionKey limit fuel cursor = some pages ∧
          List.Forall₂ (Shows platform) pages.reverse.flatten (olderThan cursor (wideRows platform transcript)) := by
  have hrows : Identified (wideRows platform transcript) := htranscript.shownOf platform _
  have hslice (now : Bool → Nat → Rat) (cursor : JsString) :
      List.Forall₂ (Shows platform) (pageBefore platform (serves transcript) now sessionKey cursor limit)
        ((olderThan cursor (wideRows platform transcript)).rtake limit) := pageBefore_slice htranscript hsession hlimit
  refine ⟨fun now cursor => ?_, fun clocks cursor fuel hcursor hfuel => ?_⟩
  · have hpage := hslice now cursor
    refine ⟨hpage, fun m hm heq => ?_⟩
    obtain ⟨row, hrow, hshows⟩ : ∃ row ∈ (olderThan cursor (wideRows platform transcript)).rtake limit, Shows platform m row := by
      obtain ⟨i, hi, rfl⟩ := List.mem_iff_getElem.mp hm
      have hi' := hpage.length_eq ▸ hi
      exact ⟨_, List.getElem_mem hi', hpage.get hi hi'⟩
    have hmem := (rtake_sublist limit _).subset hrow
    have hown := hshows.id_eq (hrows.own row ((olderThan_sublist _ _).subset hmem))
    rw [heq] at hown
    exact ne_cursor_of_olderThan hmem hown
  · obtain ⟨row, hrow, hown⟩ := hcursor
    obtain ⟨idx, hlt, rfl⟩ := List.mem_iff_getElem.mp hrow
    rw [olderThan_getElem hrows hlt hown]
    exact pagesFrom_getElem hrows hlimit hslice clocks hlt hown (Nat.lt_trans hlt hfuel)

def storedRow (id role text : String) : Raw :=
  .obj [(js "role", .str (js role)), (js "content", .str (js text)), (js "__openclaw", .obj [(js "id", .str (js id))])]

/-- Dates are not parsed, and texts are clean. -/
def plain : Platform := ⟨fun _ => none, fun _ => [], fun _ text => text⟩

/-- A question, the call of a tool, and an answer. -/
def exchange : List Raw := [storedRow "q" "user" "hi", storedRow "t" "tool" "42", storedRow "a" "assistant" "hello"]

theorem exchange_identified : Identified exchange := ⟨by decide, by decide⟩

/-- The answer's page is the question; the call of the tool between them is passed over. -/
theorem paging_exchange : List.Forall₂ (Shows plain)
    (pageBefore plain (serves exchange) (fun _ _ => 0) (js "s") (js "a") 1) [storedRow "q" "user" "hi"] := by
  have hsession : js "s" ≠ [] := by decide
  have hslice := ((paging_is_slicing plain exchange_identified hsession (Nat.le_refl 1)).1 (fun _ _ => 0) (js "a")).1
  have hrows : (olderThan (js "a") (wideRows plain exchange)).rtake 1 = [storedRow "q" "user" "hi"] := by rfl
  rwa [hrows] at hslice

/-! ### Empty pages -/

variable {before : Option JsString} {requested : Option Raw} {fallbackLimit : Nat} {now : Bool → Nat → Rat}

/-- What a request asks for: the rows before its cursor, or all. -/
def asksFor (before : Option JsString) (rows : List Raw) : List Raw :=
  match before with
  | none => rows
  | some cursor => olderThan cursor rows

/-- A number that is accepted as positive and then floored to zero. -/
def FloorsToZero (requested : Option Raw) : Prop := ∃ q : Rat, requested = some (.num (.finite q)) ∧ 0 < q ∧ q < 1

theorem planLimit_eq_zero_iff (h : 1 ≤ fallbackLimit) : planLimit requested fallbackLimit = 0 ↔ FloorsToZero requested := by
  unfold planLimit
  split
  · rename_i q
    by_cases hq : 0 < q
    · rw [if_pos hq, Int.toNat_eq_zero, FloorsToZero]
      constructor
      · intro hfloor
        refine ⟨q, rfl, hq, ?_⟩
        have hlt : q < (⌊q⌋ : Rat) + 1 := Int.lt_floor_add_one q
        have hcast : (⌊q⌋ : Rat) ≤ 0 := by exact_mod_cast hfloor
        linarith
      · rintro ⟨q', heq, -, hlt⟩
        obtain rfl : q = q' := by simpa using heq
        have hfloor : ⌊q⌋ < 1 := Int.floor_lt.mpr (by simpa using hlt)
        omega
    · rw [if_neg hq]
      constructor
      · intro hzero
        omega
      · rintro ⟨q', heq, hpos, -⟩
        obtain rfl : q = q' := by simpa using heq
        exact absurd hpos hq
  · rename_i hno
    constructor
    · intro hzero
      omega
    · rintro ⟨q, heq, -⟩
      exact absurd heq (hno q)

theorem forall₂_eq_nil_iff {α β : Type} {R : α → β → Prop} {l : List α} {m : List β} (h : List.Forall₂ R l m) :
    l = [] ↔ m = [] := by
  cases h with
  | nil => exact ⟨fun _ => rfl, fun _ => rfl⟩
  | cons _ _ => exact ⟨nofun, nofun⟩

/-- The tail that is fetched without a cursor is empty once all of its rows are hidden. -/
theorem recent_eq_nil_iff (hsession : sessionKey ≠ []) (clock : Nat → Rat) :
    recent platform (serves transcript) clock sessionKey limit = [] ↔
      ¬ ∃ row ∈ transcript.rtake (min limit MAX_FETCH_WINDOW), displayable platform row = true := by
  have hhidden (n : Nat) : shownOf platform transcript n = [] ↔ ¬ ∃ row ∈ transcript.rtake n, displayable platform row = true := by
    rw [shownOf, List.filter_eq_nil_iff]
    push Not
    rfl
  by_cases hlimit : limit = 0
  · rw [recent, if_pos (.inr hlimit), hlimit, Nat.zero_min, List.rtake_zero]
    simp
  · obtain ⟨window, hread, hwindow⟩ := window_shows platform transcript clock limit
    rw [recent, if_neg (by simp [hsession, hlimit]), hread, Option.getD_some, forall₂_eq_nil_iff hwindow]
    exact hhidden _

theorem pageBefore_eq_nil_iff (htranscript : Identified transcript) (hsession : sessionKey ≠ []) (hlimit : 1 ≤ limit) :
    pageBefore platform (serves transcript) now sessionKey cursor limit = [] ↔
      olderThan cursor (wideRows platform transcript) = [] := by
  rw [forall₂_eq_nil_iff (pageBefore_slice htranscript hsession hlimit)]
  constructor
  · intro hnil
    rw [List.rtake, List.drop_eq_nil_iff] at hnil
    exact List.length_eq_zero_iff.mp (by omega)
  · intro hnil
    rw [hnil, List.rtake_nil]

/-- When an empty page means that nothing older is there: a tail fetch has a displayable row among
the raw rows it asks for, a page has a limit that is not floored to zero, or there is nothing. -/
def HonestlyEmpty (platform : Platform) (transcript : List Raw) (before : Option JsString) (requested : Option Raw)
    (fallbackLimit : Nat) : Prop :=
  match before with
  | none =>
    (∃ row ∈ transcript.rtake (min (planLimit requested fallbackLimit) MAX_FETCH_WINDOW), displayable platform row = true) ∨
      wideRows platform transcript = []
  | some cursor => ¬ FloorsToZero requested ∨ olderThan cursor (wideRows platform transcript) = []

/-- A request is answered with an empty page only where nothing is left, exactly under `HonestlyEmpty`. -/
theorem empty_page_honest_iff (htranscript : Identified transcript) (hsession : sessionKey ≠ []) (hfallback : 1 ≤ fallbackLimit)
    (hbefore : ∀ cursor, before = some cursor → ∃ row ∈ wideRows platform transcript, ownId row = some cursor) :
    (fetchHistory platform (serves transcript) now sessionKey (planHistoryFetch before requested fallbackLimit) = [] →
        asksFor before (wideRows platform transcript) = []) ↔
      HonestlyEmpty platform transcript before requested fallbackLimit := by
  cases before with
  | none =>
    rw [planHistoryFetch, fetchHistory, recent_eq_nil_iff hsession, HonestlyEmpty, asksFor]
    exact or_iff_not_imp_left.symm
  | some cursor =>
    obtain ⟨row, -, hown⟩ := hbefore cursor rfl
    have hcursor : cursor ≠ [] := fun hnil => ownId_ne_nil row (hnil ▸ hown)
    simp only [planHistoryFetch, if_neg hcursor, fetchHistory, HonestlyEmpty, asksFor]
    by_cases hzero : planLimit requested fallbackLimit = 0
    · have hempty : pageBefore platform (serves transcript) now sessionKey cursor (planLimit requested fallbackLimit) = [] := by
        rw [pageBefore, if_pos (.inr (.inr hzero))]
      have hfloors := (planLimit_eq_zero_iff hfallback).mp hzero
      exact ⟨fun h => .inr (h hempty), fun h _ => h.resolve_left fun hno => hno hfloors⟩
    · have hfloors : ¬ FloorsToZero requested := fun h => hzero ((planLimit_eq_zero_iff hfallback).mpr h)
      exact ⟨fun _ => .inl hfloors, fun _ => (pageBefore_eq_nil_iff htranscript hsession (Nat.one_le_iff_ne_zero.mpr hzero)).mp⟩

/-- A question whose answer is still the call of a tool. -/
def working : List Raw := [storedRow "q" "user" "hi", storedRow "t" "tool" "42"]

theorem working_identified : Identified working := ⟨by decide, by decide⟩

/-- A request for two rows is answered: the question is among them. -/
theorem working_honest :
    ¬ (fetchHistory plain (serves working) (fun _ _ => 0) (js "s") (planHistoryFetch none (some (.num (.finite 2))) 50) = [] ∧
      asksFor none (wideRows plain working) ≠ []) := by
  have hsession : js "s" ≠ [] := by decide
  have hbefore (cursor : JsString) (h : none = some cursor) : ∃ row ∈ wideRows plain working, ownId row = some cursor := by
    cases h
  have htwo : planLimit (some (.num (.finite 2))) 50 = 2 := by decide
  have hhonest : HonestlyEmpty plain working none (some (.num (.finite 2))) 50 := by
    refine .inl ⟨storedRow "q" "user" "hi", ?_, rfl⟩
    rw [htwo]
    exact List.mem_cons_self
  rintro ⟨hempty, hsome⟩
  exact hsome ((empty_page_honest_iff working_identified hsession (by decide) hbefore).mpr hhonest hempty)

/-- A request for one row finds only the hidden one, and one for half a row finds none: both pages
are empty although the question can be shown. -/
theorem empty_page_hides_history : ∃ now : Bool → Nat → Rat,
    (fetchHistory plain (serves working) now (js "s") (planHistoryFetch none (some (.num (.finite 1))) 50) = [] ∧
      asksFor none (wideRows plain working) ≠ []) ∧
    (fetchHistory plain (serves exchange) now (js "s") (planHistoryFetch (some (js "a")) (some (.num (.finite (1 / 2)))) 50) = [] ∧
      asksFor (some (js "a")) (wideRows plain exchange) ≠ []) := by
  refine ⟨fun _ _ => 0, ⟨?_, List.cons_ne_nil _ _⟩, ?_, List.cons_ne_nil _ _⟩
  · have hplan : planHistoryFetch none (some (.num (.finite 1))) 50 = .recent 1 := by decide
    rw [hplan]
    rfl
  · have hzero : planLimit (some (.num (.finite (1 / 2)))) 50 = 0 :=
      (planLimit_eq_zero_iff (by decide)).mpr ⟨1 / 2, rfl, by norm_num, by norm_num⟩
    have hcursor : js "a" ≠ [] := by decide
    rw [planHistoryFetch, hzero]
    simp only [if_neg hcursor]
    rfl

end Webchannel.History
