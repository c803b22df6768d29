import Mathlib.Data.List.Forall2
import Mathlib.Data.List.TakeWhile
import Webchannel.Draft.Markers

/-!
# Holding markers back does not depend on chunking

How a position is read changes with the text behind it only as long as the reading runs into the
end of the text. A position that is no candidate stays none, one that is exact stays exact, and
one that is cut by the next `<` stays what it is. So the state that is carried from one prefix to
the next is that of a single call on the longer prefix.
-/

namespace Webchannel.Draft

variable {p q r text : Text} {start : Nat} {clean : Text → Text}

/-! ### One position -/

/-- Where the name starts, behind blanks and a slash. -/
def skipToName (rest : Text) : Text :=
  let cursor := rest.dropWhile isSpace
  if cursor.head? = some 47 then (cursor.drop 1).dropWhile isSpace else cursor

/-- What the list says about a whole name and what follows it. -/
def classifyFragment (fragment rest : Text) : Option MarkerKind :=
  (CORE_ANGLE_MARKER_NAMES.findSome? (classifyName fragment rest)).getD none

def classifyCursor (cursor : Text) : Option MarkerKind :=
  if cursor = [] then some .incomplete
  else if cursor.takeWhile isNameUnit = [] then none
  else classifyFragment ((cursor.takeWhile isNameUnit).map toLower) (cursor.dropWhile isNameUnit)

theorem classify_angle {rest : Text} (h : text.drop start = 60 :: rest) :
    classifyAngleMarkerAt text start = classifyCursor (skipToName rest) := by
  rw [classifyAngleMarkerAt, h]
  rfl

theorem classify_isSome (h : (classifyAngleMarkerAt text start).isSome = true) : ∃ rest, text.drop start = 60 :: rest := by
  unfold classifyAngleMarkerAt at h
  split at h
  · cases h
  · rename_i u rest hdrop
    split at h
    · rename_i hu
      exact ⟨rest, by rw [hdrop, hu]⟩
    · cases h

theorem lt_length_of_classify (h : (classifyAngleMarkerAt text start).isSome = true) : start < text.length := by
  obtain ⟨rest, hdrop⟩ := classify_isSome h
  apply Nat.lt_of_not_le
  intro hle
  rw [List.drop_eq_nil_of_le hle] at hdrop
  cases hdrop

/-! ### A reading that ends inside the text -/

theorem dropWhile_append_of_ne {f : UInt16 → Bool} {l : Text} (h : l.dropWhile f ≠ []) (r : Text) :
    (l ++ r).dropWhile f = l.dropWhile f ++ r := by
  rw [List.dropWhile_append, if_neg (by simpa using h)]

theorem takeWhile_append_of_ne {f : UInt16 → Bool} {l : Text} (h : l.dropWhile f ≠ []) (r : Text) :
    (l ++ r).takeWhile f = l.takeWhile f := by
  rw [List.takeWhile_append, if_neg]
  intro hlen
  have hsplit := congrArg List.length (List.takeWhile_append_dropWhile (p := f) (l := l))
  rw [List.length_append, hlen] at hsplit
  exact h (List.length_eq_zero_iff.mp (by omega))

theorem skipToName_append {rest : Text} (h : skipToName rest ≠ []) (r : Text) :
    skipToName (rest ++ r) = skipToName rest ++ r := by
  have hblank : rest.dropWhile isSpace ≠ [] := by
    intro hnil
    apply h
    rw [skipToName, hnil]
    rfl
  unfold skipToName at h ⊢
  dsimp only at h ⊢
  rw [dropWhile_append_of_ne hblank]
  cases hcursor : rest.dropWhile isSpace with
  | nil => exact absurd hcursor hblank
  | cons u cursor =>
    rw [hcursor] at h
    rw [List.cons_append]
    simp only [List.head?_cons, Option.some.injEq, List.drop_succ_cons, List.drop_zero] at h ⊢
    split
    · rw [if_pos ‹_›] at h
      exact dropWhile_append_of_ne h r
    · rfl

/-- The reading of a `<` runs into the end of the text. -/
def OpenAt (text : Text) (start : Nat) : Prop :=
  ∃ rest, text.drop start = 60 :: rest ∧ (skipToName rest).dropWhile isNameUnit = []

theorem drop_append_of_lt (h : start < p.length) (r : Text) : (p ++ r).drop start = p.drop start ++ r :=
  List.drop_append_of_le_length (Nat.le_of_lt h)

/-- A reading that ends inside the text is not changed by more text. -/
theorem classify_append_of_closed (h : start < p.length) (hclosed : ¬ OpenAt p start) (r : Text) :
    classifyAngleMarkerAt (p ++ r) start = classifyAngleMarkerAt p start := by
  cases hdrop : p.drop start with
  | nil => exact absurd (List.drop_eq_nil_iff.mp hdrop) (Nat.not_le_of_lt h)
  | cons u rest =>
    have hdrop' := drop_append_of_lt h r
    rw [hdrop, List.cons_append] at hdrop'
    by_cases hu : u = 60
    · subst hu
      have hne : (skipToName rest).dropWhile isNameUnit ≠ [] := fun hnil => hclosed ⟨rest, hdrop, hnil⟩
      have hcursor : skipToName rest ≠ [] := by
        intro hnil
        rw [hnil] at hne
        exact hne rfl
      rw [classify_angle hdrop, classify_angle hdrop', skipToName_append hcursor, classifyCursor, classifyCursor,
        takeWhile_append_of_ne hne, dropWhile_append_of_ne hne, if_neg hcursor, if_neg (by simp [hcursor])]
      cases hrest : (skipToName rest).dropWhile isNameUnit with
      | nil => exact absurd hrest hne
      | cons v tail => rfl
    · rw [classifyAngleMarkerAt, classifyAngleMarkerAt, hdrop, hdrop']
      simp only [if_neg hu]

/-! ### A reading that runs into the end -/

theorem classifyName_end (fragment name : Text) :
    classifyName fragment [] name = if fragment.isPrefixOf name then some (some .incomplete) else none := by
  unfold classifyName
  by_cases heq : fragment = name
  · subst heq
    simp
  · simp [heq]

/-- At the end of the text a fragment is held back exactly while a name may still come of it. -/
theorem classifyFragment_end (fragment : Text) : classifyFragment fragment [] =
    if CORE_ANGLE_MARKER_NAMES.any (fragment.isPrefixOf ·) then some .incomplete else none := by
  unfold classifyFragment
  generalize CORE_ANGLE_MARKER_NAMES = names
  induction names with
  | nil => rfl
  | cons name names ih =>
    rw [List.findSome?_cons, classifyName_end, List.any_cons]
    by_cases hname : fragment.isPrefixOf name = true
    · simp [hname]
    · rw [if_neg hname, Bool.eq_false_iff.mpr hname, Bool.false_or]
      exact ih

theorem classifyFragment_append {fragment : Text} (h : CORE_ANGLE_MARKER_NAMES.any (fragment.isPrefixOf ·) = false)
    (more rest : Text) : classifyFragment (fragment ++ more) rest = none := by
  have hnone : CORE_ANGLE_MARKER_NAMES.findSome? (classifyName (fragment ++ more) rest) = none := by
    refine List.findSome?_eq_none_iff.mpr fun name hname => ?_
    have hno : ¬ fragment <+: name := by
      have hall := List.any_eq_false.mp h name hname
      rwa [List.isPrefixOf_iff_prefix] at hall
    have hlonger : ¬ fragment ++ more <+: name := fun hpre => hno ((List.prefix_append fragment more).trans hpre)
    have hne : fragment ++ more ≠ name := fun heq => hlonger (heq ▸ List.prefix_rfl)
    unfold classifyName
    dsimp only
    rw [if_neg hne, if_neg]
    rintro ⟨-, hpre⟩
    exact hlonger (List.isPrefixOf_iff_prefix.mp hpre)
  rw [classifyFragment, hnone]
  rfl

theorem takeWhile_eq_self {f : UInt16 → Bool} {l : Text} (h : l.dropWhile f = []) : l.takeWhile f = l := by
  have hsplit := List.takeWhile_append_dropWhile (p := f) (l := l)
  rwa [h, List.append_nil] at hsplit

/-- An open reading holds the position back or rules it out; it never finds a marker. -/
theorem classify_ne_exact_of_open (h : OpenAt text start) : classifyAngleMarkerAt text start ≠ some .exact := by
  obtain ⟨rest, hdrop, hopen⟩ := h
  rw [classify_angle hdrop, classifyCursor, hopen, classifyFragment_end]
  split
  · exact nofun
  split
  · exact nofun
  split
  · exact nofun
  · exact nofun

/-- A position that is ruled out stays so. -/
theorem classify_none_append (h : start < p.length) (hnone : classifyAngleMarkerAt p start = none) (r : Text) :
    classifyAngleMarkerAt (p ++ r) start = none := by
  by_cases hopen : OpenAt p start
  · obtain ⟨rest, hdrop, hend⟩ := hopen
    have hdrop' := drop_append_of_lt h r
    rw [hdrop, List.cons_append] at hdrop'
    rw [classify_angle hdrop, classifyCursor, hend, classifyFragment_end] at hnone
    by_cases hcursor : skipToName rest = []
    · rw [if_pos hcursor] at hnone
      cases hnone
    have htake := takeWhile_eq_self hend
    rw [if_neg hcursor, htake, if_neg hcursor] at hnone
    have hno : CORE_ANGLE_MARKER_NAMES.any (((skipToName rest).map toLower).isPrefixOf ·) = false := by
      apply Bool.eq_false_iff.mpr
      intro hany
      rw [if_pos hany] at hnone
      cases hnone
    have hlonger : (skipToName rest ++ r).takeWhile isNameUnit = skipToName rest ++ r.takeWhile isNameUnit := by
      rw [List.takeWhile_append, if_pos (by rw [htake])]
    rw [classify_angle hdrop', skipToName_append hcursor, classifyCursor, if_neg (by simp [hcursor]), hlonger,
      if_neg (by simp [hcursor]), List.map_append]
    exact classifyFragment_append hno _ _
  · rw [classify_append_of_closed h hopen, hnone]

/-- A marker that was found is found in every longer text. -/
theorem classify_exact_append (h : classifyAngleMarkerAt p start = some .exact) (r : Text) :
    classifyAngleMarkerAt (p ++ r) start = some .exact := by
  have hlt := lt_length_of_classify (by rw [h]; rfl)
  rw [classify_append_of_closed hlt (fun hopen => classify_ne_exact_of_open hopen h), h]

/-- An open reading is the last one of the text: no `<` follows. -/
theorem not_angle_of_open (h : OpenAt text start) {later : Nat} (hlater : start < later) :
    classifyAngleMarkerAt text later = none := by
  obtain ⟨rest, hdrop, hopen⟩ := h
  have hname : ∀ u ∈ (skipToName rest), u ≠ 60 := by
    intro u hu heq
    rw [← takeWhile_eq_self hopen] at hu
    have hunit := List.mem_takeWhile_imp hu
    rw [heq] at hunit
    exact absurd hunit (by decide)
  have hspace (l : Text) : ∀ u ∈ l.takeWhile isSpace, u ≠ 60 := by
    intro u hu heq
    have hunit := List.mem_takeWhile_imp hu
    rw [heq] at hunit
    exact absurd hunit (by decide)
  have hrest : ∀ u ∈ rest, u ≠ 60 := by
    intro u hu
    rw [← List.takeWhile_append_dropWhile (p := isSpace) (l := rest), List.mem_append] at hu
    rcases hu with hu | hu
    · exact hspace rest u hu
    unfold skipToName at hname
    dsimp only at hname
    split at hname
    · rename_i hslash
      cases hcursor : rest.dropWhile isSpace with
      | nil => rw [hcursor] at hu; cases hu
      | cons v cursor =>
        rw [hcursor, List.head?_cons, Option.some.injEq] at hslash
        rw [hcursor] at hu hname
        rcases List.mem_cons.mp hu with rfl | hu
        · rw [hslash]
          decide
        · rw [← List.takeWhile_append_dropWhile (p := isSpace) (l := cursor), List.mem_append] at hu
          rcases hu with hu | hu
          · exact hspace cursor u hu
          · exact hname u hu
    · exact hname u hu
  cases hclass : classifyAngleMarkerAt text later with
  | none => rfl
  | some kind =>
    obtain ⟨tail, htail⟩ := classify_isSome (by rw [hclass]; rfl : (classifyAngleMarkerAt text later).isSome = true)
    have hmem : (60 : UInt16) ∈ rest := by
      have hsuffix : text.drop later = rest.drop (later - (start + 1)) := by
        have hsplit : later = start + 1 + (later - (start + 1)) := by omega
        rw [hsplit, ← List.drop_drop, ← List.drop_drop, hdrop]
        simp
      rw [hsuffix] at htail
      exact List.mem_of_mem_drop (htail ▸ List.mem_cons_self)
    exact absurd rfl (hrest 60 hmem)

/-! ### The scan -/

def candidatesOf (text : Text) : List (Nat × Bool) :=
  (List.range text.length).filterMap fun start =>
    (classifyAngleMarkerAt text start).map fun kind => (start, decide (kind = .exact))

def firstStart (text : Text) : Option Nat := (scanAngleMarkers text).first.map (·.1)

def HasExact (text : Text) : Prop := ∃ start, classifyAngleMarkerAt text start = some .exact

theorem mem_candidatesOf {b : Bool} : (start, b) ∈ candidatesOf text ↔
    ∃ kind, classifyAngleMarkerAt text start = some kind ∧ b = decide (kind = .exact) := by
  unfold candidatesOf
  rw [List.mem_filterMap]
  constructor
  · rintro ⟨start', -, hmap⟩
    obtain ⟨kind, hkind, heq⟩ := Option.map_eq_some_iff.mp hmap
    obtain ⟨rfl, rfl⟩ := Prod.mk.inj heq
    exact ⟨kind, hkind, rfl⟩
  · rintro ⟨kind, hkind, rfl⟩
    refine ⟨start, List.mem_range.mpr (lt_length_of_classify (by rw [hkind]; rfl)), ?_⟩
    rw [hkind]
    rfl

/-- The candidates are found from left to right. -/
theorem candidatesOf_sorted (text : Text) : (candidatesOf text).Pairwise (·.1 < ·.1) := by
  unfold candidatesOf
  rw [List.pairwise_filterMap]
  refine List.pairwise_lt_range.imp fun hlt b hb b' hb' => ?_
  obtain ⟨_, -, rfl⟩ := Option.map_eq_some_iff.mp hb
  obtain ⟨_, -, rfl⟩ := Option.map_eq_some_iff.mp hb'
  exact hlt

theorem firstStart_eq_none : firstStart text = none ↔ ∀ start, classifyAngleMarkerAt text start = none := by
  change ((candidatesOf text).head?.map (·.1)) = none ↔ _
  rw [Option.map_eq_none_iff, List.head?_eq_none_iff]
  constructor
  · intro hnil start
    cases hclass : classifyAngleMarkerAt text start with
    | none => rfl
    | some kind =>
      have hmem := mem_candidatesOf.mpr ⟨kind, hclass, rfl⟩
      rw [hnil] at hmem
      cases hmem
  · intro hall
    apply List.eq_nil_iff_forall_not_mem.mpr
    rintro ⟨start, b⟩ hmem
    obtain ⟨kind, hkind, -⟩ := mem_candidatesOf.mp hmem
    rw [hall start] at hkind
    cases hkind

/-- What comes first in a scan is the least candidate. -/
theorem least_of_first {tail : List (Nat × Bool)} {b : Bool} (h : candidatesOf text = (start, b) :: tail) :
    (classifyAngleMarkerAt text start).isSome = true ∧ ∀ other < start, classifyAngleMarkerAt text other = none := by
  have hsorted := candidatesOf_sorted text
  rw [h] at hsorted
  constructor
  · obtain ⟨kind, hkind, -⟩ := mem_candidatesOf.mp (h ▸ List.mem_cons_self)
    rw [hkind]
    rfl
  · intro other hlt
    cases hclass : classifyAngleMarkerAt text other with
    | none => rfl
    | some kind =>
      have hmem := mem_candidatesOf.mpr ⟨kind, hclass, rfl⟩
      rw [h] at hmem
      rcases List.mem_cons.mp hmem with heq | htail
      · exact absurd (Prod.mk.inj heq).1 (Nat.ne_of_lt hlt)
      · exact absurd ((List.pairwise_cons.mp hsorted).1 _ htail) (Nat.lt_asymm hlt)

theorem firstStart_eq_some : firstStart text = some start ↔
    (classifyAngleMarkerAt text start).isSome = true ∧ ∀ other < start, classifyAngleMarkerAt text other = none := by
  constructor
  · intro h
    obtain ⟨⟨start', b⟩, hhead, rfl⟩ := Option.map_eq_some_iff.mp h
    obtain ⟨tail, htail⟩ := List.head?_eq_some_iff.mp hhead
    exact least_of_first htail
  · rintro ⟨hsome, hleast⟩
    cases hfirst : firstStart text with
    | none => rw [firstStart_eq_none.mp hfirst] at hsome; cases hsome
    | some start' =>
      obtain ⟨⟨start', b⟩, hhead, rfl⟩ := Option.map_eq_some_iff.mp hfirst
      obtain ⟨tail, htail⟩ := List.head?_eq_some_iff.mp hhead
      obtain ⟨hsome', hleast'⟩ := least_of_first htail
      rcases Nat.lt_trichotomy start' start with hlt | rfl | hlt
      · rw [hleast start' hlt] at hsome'
        cases hsome'
      · rfl
      · rw [hleast' start hlt] at hsome
        cases hsome

/-- A hold is exact as soon as any marker behind its start is. -/
theorem exact_iff_hasExact {first : Nat × Bool} (h : (scanAngleMarkers text).first = some first) :
    (first.2 || (scanAngleMarkers text).earliestExactStart.any (first.1 ≤ ·)) = true ↔ HasExact text := by
  obtain ⟨start, b⟩ := first
  obtain ⟨tail, htail⟩ : ∃ tail, candidatesOf text = (start, b) :: tail := List.head?_eq_some_iff.mp h
  have hleast := (least_of_first htail).2
  rw [Bool.or_eq_true]
  constructor
  · rintro (hexact | hany)
    · obtain ⟨kind, hkind, rfl⟩ := mem_candidatesOf.mp (htail ▸ List.mem_cons_self)
      exact ⟨start, by rw [hkind, of_decide_eq_true hexact]⟩
    · obtain ⟨exactStart, hmap, -⟩ := (Option.any_eq_true _ _).mp hany
      obtain ⟨⟨exactStart, b'⟩, hfind, rfl⟩ := Option.map_eq_some_iff.mp hmap
      obtain ⟨kind, hkind, rfl⟩ := mem_candidatesOf.mp (List.mem_of_find?_eq_some hfind)
      have hflag : decide (kind = .exact) = true := List.find?_some (p := fun x : Nat × Bool => x.2) hfind
      exact ⟨exactStart, by rw [hkind, of_decide_eq_true hflag]⟩
  · rintro ⟨exactStart, hexact⟩
    right
    have hmem : (exactStart, true) ∈ candidatesOf text := mem_candidatesOf.mpr ⟨.exact, hexact, rfl⟩
    cases hfind : (candidatesOf text).find? (·.2) with
    | none => exact absurd rfl (List.find?_eq_none.mp hfind _ hmem)
    | some found =>
      obtain ⟨kind, hkind, -⟩ := mem_candidatesOf.mp (List.mem_of_find?_eq_some hfind)
      have hle : start ≤ found.1 := by
        apply Nat.le_of_not_lt
        intro hlt
        rw [hleast found.1 hlt] at hkind
        cases hkind
      refine (Option.any_eq_true _ _).mpr ⟨found.1, ?_, decide_eq_true hle⟩
      exact congrArg (Option.map (·.1)) hfind

/-! ### Longer texts -/

theorem none_of_longer (h : p <+: q) (hlt : start < p.length) (hnone : classifyAngleMarkerAt p start = none) :
    classifyAngleMarkerAt q start = none := by
  obtain ⟨r, rfl⟩ := h
  exact classify_none_append hlt hnone r

theorem HasExact.longer (h : HasExact p) (hpq : p <+: q) : HasExact q := by
  obtain ⟨r, rfl⟩ := hpq
  obtain ⟨start, hstart⟩ := h
  exact ⟨start, classify_exact_append hstart r⟩

/-- Once a marker was found, the first candidate is final. -/
theorem firstStart_of_hasExact (h : HasExact p) (hpq : p <+: q) : firstStart q = firstStart p := by
  obtain ⟨r, rfl⟩ := hpq
  obtain ⟨exactStart, hexact⟩ := h
  cases hfirst : firstStart p with
  | none => rw [firstStart_eq_none.mp hfirst] at hexact; cases hexact
  | some start =>
    obtain ⟨hsome, hleast⟩ := firstStart_eq_some.mp hfirst
    have hlt := lt_length_of_classify hsome
    refine firstStart_eq_some.mpr ⟨?_, fun other hother => classify_none_append (hother.trans hlt) (hleast other hother) r⟩
    rcases Nat.lt_trichotomy exactStart start with hbefore | rfl | hbehind
    · rw [hleast exactStart hbefore] at hexact
      cases hexact
    · rw [classify_exact_append hexact]
      rfl
    · -- A second `<` cuts the reading of the first.
      have hclosed : ¬ OpenAt p start := by
        intro hopen
        rw [not_angle_of_open hopen hbehind] at hexact
        cases hexact
      rwa [classify_append_of_closed hlt hclosed]

/-- What one call on the whole text would show. -/
def visibleOf (text : Text) : Text :=
  match firstStart text with
  | none => text
  | some start => text.take start

theorem visibleOf_isPrefix (h : p <+: q) : visibleOf p <+: visibleOf q := by
  have hle (start start' : Nat) (hfirst : firstStart q = some start') (hnone : ∀ other < start, classifyAngleMarkerAt q other = none) :
      start ≤ start' := by
    apply Nat.le_of_not_lt
    intro hlt
    have hsome := (firstStart_eq_some.mp hfirst).1
    rw [hnone start' hlt] at hsome
    cases hsome
  have hcut (start : Nat) (hstart : start ≤ p.length) (hnone : ∀ other < start, classifyAngleMarkerAt p other = none) :
      p.take start <+: visibleOf q := by
    have hnone' (other : Nat) (hother : other < start) : classifyAngleMarkerAt q other = none :=
      none_of_longer h (Nat.lt_of_lt_of_le hother hstart) (hnone other hother)
    have htake : p.take start = q.take start := by
      obtain ⟨r, rfl⟩ := h
      exact (List.take_append_of_le_length hstart).symm
    rw [htake]
    unfold visibleOf
    split
    · exact List.take_prefix start q
    · rename_i start' hfirst
      exact List.take_prefix_take_left (hle start start' hfirst hnone')
  cases hfirst : firstStart p with
  | none =>
    have hall := hcut p.length (Nat.le_refl _) fun other _ => firstStart_eq_none.mp hfirst other
    rw [List.take_length] at hall
    rwa [visibleOf, hfirst]
  | some start =>
    obtain ⟨hsome, hleast⟩ := firstStart_eq_some.mp hfirst
    rw [visibleOf, hfirst]
    exact hcut start (Nat.le_of_lt (lt_length_of_classify hsome)) hleast

/-- Once a marker was found, a longer text shows no more. -/
theorem visibleOf_of_hasExact (h : HasExact p) (hpq : p <+: q) : visibleOf q = visibleOf p := by
  have hfirst := firstStart_of_hasExact h hpq
  obtain ⟨exactStart, hexact⟩ := h
  cases hstart : firstStart p with
  | none => rw [firstStart_eq_none.mp hstart] at hexact; cases hexact
  | some start =>
    obtain ⟨r, rfl⟩ := hpq
    have hlt := lt_length_of_classify (firstStart_eq_some.mp hstart).1
    rw [visibleOf, visibleOf, hfirst, hstart]
    exact List.take_append_of_le_length (Nat.le_of_lt hlt)

/-- Nothing at or behind the first candidate of a longer text is shown. -/
theorem length_visibleOf_le (h : p <+: q) (hfirst : firstStart q = some start) : (visibleOf p).length ≤ start := by
  refine Nat.le_trans (visibleOf_isPrefix h).length_le ?_
  rw [visibleOf, hfirst]
  exact List.length_take_le start q

/-! ### The carried state -/

/-- The hold that one call on `p` leaves. What a frozen hold remembers besides does not matter. -/
def Held (p : Text) : Option DeferredAngleMarkerTail → Prop
  | none => firstStart p = none
  | some t => (firstStart p).isSome = true ∧ t.sourcePrefix = visibleOf p ∧ (t.exact = true ↔ HasExact p) ∧
    (t.exact = false → t.probeSource = p)

/-- A call shows and holds what a single call on its text would. -/
structure Settles (p : Text) (d : Deferral) : Prop where
  visible : d.visibleText = visibleOf p
  held : Held p d.deferred

theorem Held.exact_iff {hold : Option DeferredAngleMarkerTail} (h : Held p hold) :
    hold.any (·.exact) = true ↔ HasExact p := by
  cases hold with
  | none =>
    refine ⟨nofun, fun ⟨start, hstart⟩ => ?_⟩
    rw [firstStart_eq_none.mp h] at hstart
    cases hstart
  | some t => exact h.2.2.1

theorem held_build {first : Nat × Bool} (h : (scanAngleMarkers text).first = some first) :
    Held text (some (buildDeferredAngleMarkerTail clean text (text.take first.1)
      (first.2 || (scanAngleMarkers text).earliestExactStart.any (first.1 ≤ ·)))) := by
  have hfirst : firstStart text = some first.1 := by rw [firstStart, h]; rfl
  refine ⟨by rw [hfirst]; rfl, ?_, exact_iff_hasExact h, fun _ => rfl⟩
  rw [visibleOf, hfirst]
  rfl

theorem settles_deferFirstMarker (clean : Text → Text) (text : Text) : Settles text (deferFirstMarker clean text) := by
  unfold deferFirstMarker
  dsimp only
  split
  · rename_i hnone
    have hfirst : firstStart text = none := by rw [firstStart, hnone]; rfl
    exact ⟨by rw [visibleOf, hfirst], hfirst⟩
  · rename_i start b hsome
    have hfirst : firstStart text = some start := by rw [firstStart, hsome]; rfl
    exact ⟨by rw [visibleOf, hfirst], held_build hsome⟩

/-- One more call on a longer text. -/
theorem settles_deferAngleMarkerTail {hold : Option DeferredAngleMarkerTail} (h : Held p hold) (hpq : p <+: q) :
    Settles q (deferAngleMarkerTail clean q hold) := by
  cases hold with
  | none => exact settles_deferFirstMarker clean q
  | some t =>
    obtain ⟨hsome, hhead, hexact, hprobe⟩ := h
    unfold deferAngleMarkerTail
    dsimp only
    split
    · -- A frozen hold: the first candidate was final already.
      rename_i hfrozen
      have hmarker := hexact.mp hfrozen
      have hfirst := firstStart_of_hasExact hmarker hpq
      have hvisible := visibleOf_of_hasExact hmarker hpq
      refine ⟨hhead.trans hvisible.symm, hfirst ▸ hsome, hhead.trans hvisible.symm, ?_, fun hnot => ?_⟩
      · exact ⟨fun _ => hmarker.longer hpq, fun _ => hfrozen⟩
      · rw [hfrozen] at hnot
        cases hnot
    · rename_i hopen
      rw [hprobe (Bool.eq_false_iff.mpr hopen), if_pos (List.isPrefixOf_iff_prefix.mpr hpq)]
      split
      · rename_i start b hfirst
        split
        · rename_i hanchor
          have hstart : firstStart q = some start := by rw [firstStart, hfirst]; rfl
          have htake : t.sourcePrefix = q.take start := by
            have hpre : t.sourcePrefix <+: q := by
              rw [hhead]
              refine (?_ : visibleOf p <+: p).trans hpq
              unfold visibleOf
              split
              · exact List.prefix_rfl
              · exact List.take_prefix _ p
            rw [hanchor]
            exact List.prefix_iff_eq_take.mp hpre
          rw [← hanchor, htake]
          refine ⟨?_, held_build hfirst⟩
          rw [visibleOf, hstart]
        · exact settles_deferFirstMarker clean q
      · exact settles_deferFirstMarker clean q

/-- The calls on a chain of texts, each with the state that the one before it left. -/
def deferAll (clean : Text → Text) : Option DeferredAngleMarkerTail → List Text → List Deferral
  | _, [] => []
  | previous, text :: chain =>
    let d := deferAngleMarkerTail clean text previous
    d :: deferAll clean d.deferred chain

theorem settles_deferAll {hold : Option DeferredAngleMarkerTail} {chain : List Text} (h : Held p hold)
    (hchain : (p :: chain).Pairwise (· <+: ·)) : List.Forall₂ Settles chain (deferAll clean hold chain) := by
  induction chain generalizing p hold with
  | nil => exact .nil
  | cons q chain ih =>
    obtain ⟨hp, htail⟩ := List.pairwise_cons.mp hchain
    have hq : Settles q (deferAngleMarkerTail clean q hold) :=
      settles_deferAngleMarkerTail h (hp q List.mem_cons_self)
    exact .cons hq (ih hq.held htail)

section Forall₂

variable {α β : Type} {R : α → β → Prop} {l : List α} {m : List β}

theorem exists_of_mem_right (h : List.Forall₂ R l m) {y : β} (hy : y ∈ m) : ∃ a ∈ l, R a y := by
  induction h with
  | nil => cases hy
  | cons hax _ ih =>
    rcases List.mem_cons.mp hy with rfl | hy
    · exact ⟨_, List.mem_cons_self, hax⟩
    · obtain ⟨a, ha, hay⟩ := ih hy
      exact ⟨a, List.mem_cons_of_mem _ ha, hay⟩

theorem exists_getLast (h : List.Forall₂ R l m) {a : α} (ha : l.getLast? = some a) : ∃ y, m.getLast? = some y ∧ R a y := by
  rw [← List.head?_reverse] at ha
  obtain ⟨tail, htail⟩ := List.head?_eq_some_iff.mp ha
  have hreverse := List.forall₂_reverse_iff.mpr h
  rw [htail] at hreverse
  obtain ⟨y, rest, hay, -, hm⟩ := List.forall₂_cons_left_iff.mp hreverse
  refine ⟨y, ?_, hay⟩
  rw [← List.head?_reverse, hm]
  rfl

theorem pairwise_of_forall₂ {P : α → α → Prop} {Q : β → β → Prop} (h : List.Forall₂ R l m) (hl : l.Pairwise P)
    (hstep : ∀ a b x y, R a x → R b y → P a b → Q x y) : m.Pairwise Q := by
  induction h with
  | nil => exact .nil
  | cons hax hrest ih =>
    obtain ⟨hhead, htail⟩ := List.pairwise_cons.mp hl
    refine List.pairwise_cons.mpr ⟨fun y hy => ?_, ih htail⟩
    obtain ⟨b, hb, hby⟩ := exists_of_mem_right hrest hy
    exact hstep _ _ _ _ hax hby (hhead b hb)

end Forall₂

/-- Two calls that settle one text agree on what is shown and on the flag. -/
theorem Settles.agree {d d' : Deferral} (h : Settles p d) (h' : Settles p d') :
    d.visibleText = d'.visibleText ∧ d.deferred.map (·.exact) = d'.deferred.map (·.exact) := by
  refine ⟨h.visible.trans h'.visible.symm, ?_⟩
  have hheld := h.held
  have hheld' := h'.held
  cases hd : d.deferred with
  | none =>
    rw [hd] at hheld
    cases hd' : d'.deferred with
    | none => rfl
    | some t =>
      rw [hd'] at hheld'
      have hsome := hheld'.1
      rw [show firstStart p = none from hheld] at hsome
      cases hsome
  | some t =>
    rw [hd] at hheld
    cases hd' : d'.deferred with
    | none =>
      rw [hd'] at hheld'
      have hsome := hheld.1
      rw [show firstStart p = none from hheld'] at hsome
      cases hsome
    | some t' =>
      rw [hd'] at hheld'
      have hiff : t.exact = true ↔ t'.exact = true := hheld.2.2.1.trans hheld'.2.2.1.symm
      rw [Option.map_some, Option.map_some, Bool.eq_iff_iff.mpr hiff]

/-- However a text arrives in growing prefixes, the last call agrees with one call on the whole
text; what is shown only grows, never reaches the first candidate of the whole text, and stands
still once a marker was found. -/
theorem quarantine_chunk_free (clean : Text → Text) {text : Text} {chain : List Text} (hchain : chain.Pairwise (· <+: ·))
    (hlast : chain.getLast? = some text) :
    (∃ d, (deferAll clean none chain).getLast? = some d ∧
      d.visibleText = (deferAngleMarkerTail clean text none).visibleText ∧
      d.deferred.map (·.exact) = (deferAngleMarkerTail clean text none).deferred.map (·.exact)) ∧
    (deferAll clean none chain).Pairwise (fun d e => d.visibleText <+: e.visibleText) ∧
    (∀ start flag, (scanAngleMarkers text).first = some (start, flag) →
      ∀ d ∈ deferAll clean none chain, d.visibleText.length ≤ start) ∧
    (deferAll clean none chain).Pairwise fun d e => d.deferred.any (·.exact) = true → e.visibleText = d.visibleText := by
  have hempty : Held [] none := firstStart_eq_none.mpr fun start => by
    rw [classifyAngleMarkerAt, List.drop_nil]
  have hall : List.Forall₂ Settles chain (deferAll clean none chain) :=
    settles_deferAll hempty (List.pairwise_cons.mpr ⟨fun q _ => List.nil_prefix, hchain⟩)
  refine ⟨?_, ?_, ?_, ?_⟩
  · obtain ⟨d, hd, hsettles⟩ := exists_getLast hall hlast
    exact ⟨d, hd, hsettles.agree (settles_deferFirstMarker clean text)⟩
  · refine pairwise_of_forall₂ hall hchain fun p q d e hd he hpq => ?_
    rw [hd.visible, he.visible]
    exact visibleOf_isPrefix hpq
  · intro start flag hfirst d hd
    obtain ⟨p, hp, hsettles⟩ := exists_of_mem_right hall hd
    have hhead : p <+: text := by
      obtain ⟨init, rfl⟩ := List.getLast?_eq_some_iff.mp hlast
      rcases List.mem_append.mp hp with hinit | hend
      · exact (List.pairwise_append.mp hchain).2.2 p hinit text List.mem_cons_self
      · exact List.mem_singleton.mp hend ▸ List.prefix_rfl
    rw [hsettles.visible]
    refine length_visibleOf_le hhead ?_
    rw [firstStart, hfirst]
    rfl
  · refine pairwise_of_forall₂ hall hchain fun p q d e hd he hpq hexact => ?_
    rw [hd.visible, he.visible]
    exact visibleOf_of_hasExact (hd.held.exact_iff.mp hexact) hpq

/-- A marker that arrives in two pieces, behind a tag that turned out to be none. -/
theorem quarantine_two_chunks :
    ∃ d, (deferAll id none [js "a <fin", js "a <finer <final> b"]).getLast? = some d ∧
      d.visibleText = (deferAngleMarkerTail id (js "a <finer <final> b") none).visibleText ∧
      d.deferred.map (·.exact) = (deferAngleMarkerTail id (js "a <finer <final> b") none).deferred.map (·.exact) :=
  (quarantine_chunk_free id (by decide) (by decide)).1

end Webchannel.Draft
