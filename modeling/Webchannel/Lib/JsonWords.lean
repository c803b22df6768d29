import Mathlib.Data.List.Infix
import Webchannel.Lib.JsonIndent

/-!
# Words in JSON text

A word of capital letters and digits stands in the text of a value where it stands in one of its
strings: nothing that is written around the strings or for their escapes has a capital letter.
-/

namespace Webchannel

namespace JsonText

variable {ν : Type} (f : NumberFormat ν)

def isCapital (u : UInt16) : Bool := 65 ≤ u ∧ u ≤ 90

def isWordUnit (u : UInt16) : Bool := (48 ≤ u ∧ u ≤ 57) ∨ isCapital u

theorem isCapital_of_not_word {u : UInt16} (h : isWordUnit u = false) : isCapital u = false := by
  unfold isWordUnit at h
  simp only [decide_eq_false_iff_not, not_or, Bool.not_eq_true] at h
  exact h.2

/-- Capital letters and digits, a letter first. -/
structure Word (w : JsString) : Prop where
  begins : ∃ c rest, w = c :: rest ∧ isCapital c = true
  units : ∀ u ∈ w, isWordUnit u = true

mutual

/-- The texts in a value: its names, its strings, and its numbers as they are written. -/
def texts : Json ν → List JsString
  | .null => []
  | .bool _ => []
  | .num n => [f.format n]
  | .str s => [s]
  | .arr l => textsOfElements l
  | .obj l => textsOfMembers l

def textsOfElements : List (Json ν) → List JsString
  | [] => []
  | v :: l => texts v ++ textsOfElements l

def textsOfMembers : List (JsString × Json ν) → List JsString
  | [] => []
  | (k, v) :: l => k :: (texts v ++ textsOfMembers l)

end

/-! ## Around a word -/

variable {w : JsString}

/-- A word begins with its capital letter. -/
theorem forall_of_any {p : UInt16 → Bool} {a : JsString} (h : a.any p = false) : ∀ u ∈ a, p u = false := by
  simpa using h

theorem Word.infix_cons_of_not_capital (hw : Word w) {u : UInt16} (hu : isCapital u = false) (s : JsString) :
    w <:+: u :: s ↔ w <:+: s := by
  obtain ⟨c, rest, rfl, hc⟩ := hw.begins
  rw [List.infix_cons_iff]
  refine or_iff_right fun h => ?_
  obtain ⟨rfl, -⟩ := List.cons_prefix_cons.mp h
  rw [hu] at hc
  cases hc

theorem Word.infix_append_of_no_capital (hw : Word w) {a : JsString} (ha : ∀ u ∈ a, isCapital u = false) (s : JsString) :
    w <:+: a ++ s ↔ w <:+: s := by
  induction a with
  | nil => rfl
  | cons u a ih =>
    rw [List.cons_append, hw.infix_cons_of_not_capital (ha u (.head _)), ih fun v hv => ha v (.tail _ hv)]

theorem Word.not_infix_of_no_capital (hw : Word w) {a : JsString} (ha : ∀ u ∈ a, isCapital u = false) : ¬ w <:+: a := by
  obtain ⟨c, rest, rfl, hc⟩ := hw.begins
  intro h
  have hmem := ha c (h.subset (.head _))
  rw [hc] at hmem
  cases hmem

/-- A unit that is in no word ends every word before it. -/
theorem prefix_append_sep {w : JsString} (hw : ∀ u ∈ w, isWordUnit u = true) {c : UInt16} (hc : isWordUnit c = false)
    (a b : JsString) : w <+: a ++ c :: b ↔ w <+: a := by
  induction a generalizing w with
  | nil =>
    cases w with
    | nil => simp
    | cons u w =>
      have hne : u ≠ c := by
        rintro rfl
        rw [hw u (.head _)] at hc
        cases hc
      simp [hne]
  | cons v a ih =>
    cases w with
    | nil => simp
    | cons u w => rw [List.cons_append, List.cons_prefix_cons, List.cons_prefix_cons, ih fun x hx => hw x (.tail _ hx)]

theorem Word.infix_append_sep (hw : Word w) {c : UInt16} (hc : isWordUnit c = false) (a b : JsString) :
    w <:+: a ++ c :: b ↔ w <:+: a ∨ w <:+: b := by
  induction a with
  | nil =>
    rw [List.nil_append, hw.infix_cons_of_not_capital (isCapital_of_not_word hc)]
    exact (or_iff_right (hw.not_infix_of_no_capital (by simp))).symm
  | cons u a ih =>
    rw [List.cons_append, List.infix_cons_iff, List.infix_cons_iff, or_assoc]
    exact or_congr (prefix_append_sep hw.units hc (u :: a) b) ih

/-- What stands behind a word and has no unit of a word in it can be left out. -/
theorem Word.infix_append_of_no_unit (hw : Word w) {b : JsString} (hb : ∀ u ∈ b, isWordUnit u = false) (a : JsString) :
    w <:+: a ++ b ↔ w <:+: a := by
  cases b with
  | nil => rw [List.append_nil]
  | cons c b =>
    rw [hw.infix_append_sep (hb c (.head _))]
    exact or_iff_left (hw.not_infix_of_no_capital fun u hu => isCapital_of_not_word (hb u (.tail _ hu)))

/-! ## In a quoted string -/

theorem quoteBody_cons_word {u : UInt16} (hu : isWordUnit u = true) (s : JsString) : quoteBody (u :: s) = u :: quoteBody s := by
  have hrange : 48 ≤ u.toNat ∧ u.toNat ≤ 90 ∧ u.toNat ≠ 92 := by
    unfold isWordUnit isCapital at hu
    simp only [decide_eq_true_eq, UInt16.le_iff_toNat_le] at hu
    have h48 : (48 : UInt16).toNat = 48 := rfl
    have h57 : (57 : UInt16).toNat = 57 := rfl
    have h65 : (65 : UInt16).toNat = 65 := rfl
    have h90 : (90 : UInt16).toNat = 90 := rfl
    omega
  have hascii : u < 0x80 := UInt16.lt_iff_toNat_lt.mpr (Nat.lt_of_le_of_lt hrange.2.1 (by decide))
  obtain ⟨hhigh, hlow⟩ := not_surrogate_of_ascii hascii
  have hplain : quoteUnit u = [u] := by
    have hne {n : UInt16} (hn : n.toNat < 48 ∨ n.toNat = 92) : u ≠ n := by
      rintro rfl
      omega
    have hcontrol : ¬ u < 32 := fun h => by
      have hnat : u.toNat < 32 := UInt16.lt_iff_toNat_lt.mp h
      omega
    unfold quoteUnit
    rw [if_neg (hne (by decide)), if_neg (hne (by decide)), if_neg (hne (by decide)), if_neg (hne (by decide)),
      if_neg (hne (by decide)), if_neg (hne (by decide)), if_neg (hne (by decide)), if_neg hcontrol]
  cases s with
  | nil => simp [quoteBody, hhigh, hlow, hplain]
  | cons v s => simp [quoteBody, hhigh, hlow, hplain]

/-- What is written for a unit that is in no word begins like no word and has no capital letter. -/
structure Gap (piece : JsString) : Prop where
  begins : ∃ c rest, piece = c :: rest ∧ isWordUnit c = false
  small : ∀ u ∈ piece, isCapital u = false

theorem hexDigit_not_capital : ∀ n < 16, isCapital (hexDigit n) = false := by decide

theorem gap_escapeUnit (u : UInt16) : Gap (escapeUnit u) := by
  have hu : u.toNat < 65536 := u.toNat_lt
  refine ⟨⟨92, _, rfl, by decide⟩, fun w hw => ?_⟩
  simp only [escapeUnit, List.mem_cons, List.not_mem_nil, or_false] at hw
  obtain rfl | rfl | rfl | rfl | rfl | rfl := hw
  · decide
  · decide
  · exact hexDigit_not_capital _ (by omega)
  · exact hexDigit_not_capital _ (by omega)
  · exact hexDigit_not_capital _ (by omega)
  · exact hexDigit_not_capital _ (by omega)

theorem gap_quoteUnit {u : UInt16} (hu : isWordUnit u = false) : Gap (quoteUnit u) := by
  have hshort {e : UInt16} (he : isCapital e = false) : Gap [92, e] := by
    refine ⟨⟨92, _, rfl, by decide⟩, fun w hw => ?_⟩
    simp only [List.mem_cons, List.not_mem_nil, or_false] at hw
    obtain rfl | rfl := hw
    · decide
    · exact he
  unfold quoteUnit
  split
  · exact hshort (by decide)
  split
  · exact hshort (by decide)
  split
  · exact hshort (by decide)
  split
  · exact hshort (by decide)
  split
  · exact hshort (by decide)
  split
  · exact hshort (by decide)
  split
  · exact hshort (by decide)
  split
  · exact gap_escapeUnit u
  · exact ⟨⟨u, [], rfl, hu⟩, fun w hw => by rw [List.mem_singleton.mp hw]; exact isCapital_of_not_word hu⟩

theorem not_word_of_surrogate {u : UInt16} (h : 0xD800 ≤ u.toNat) : isWordUnit u = false := by
  unfold isWordUnit isCapital
  simp only [decide_eq_true_eq, decide_eq_false_iff_not, UInt16.le_iff_toNat_le]
  have h57 : (57 : UInt16).toNat = 57 := rfl
  have h90 : (90 : UInt16).toNat = 90 := rfl
  omega

/-- A unit that is in no word is written as a gap; of a surrogate pair both units are. -/
theorem quoteBody_cons_gap {u : UInt16} (hu : isWordUnit u = false) (s : JsString) :
    ∃ piece skipped rest, quoteBody (u :: s) = piece ++ quoteBody rest ∧ Gap piece ∧ s = skipped ++ rest ∧
      ∀ v ∈ skipped, isWordUnit v = false := by
  have hpiece : Gap (if isHighSurrogate u || isLowSurrogate u then escapeUnit u else quoteUnit u) := by
    split
    · exact gap_escapeUnit u
    · exact gap_quoteUnit hu
  cases s with
  | nil => exact ⟨_, [], [], by rw [quoteBody, quoteBody, List.append_nil], hpiece, rfl, by simp⟩
  | cons v s =>
    by_cases hpair : (isHighSurrogate u && isLowSurrogate v) = true
    · have hv : isWordUnit v = false := by
        obtain ⟨-, hlow⟩ := Bool.and_eq_true_iff.mp hpair
        exact not_word_of_surrogate (Nat.le_trans (by decide) (surrogate_bounds.2.mp hlow).1)
      refine ⟨[u, v], [v], s, by rw [quoteBody, if_pos hpair]; rfl, ⟨⟨u, [v], rfl, hu⟩, fun w hw => ?_⟩, rfl, fun w hw => ?_⟩
      · simp only [List.mem_cons, List.not_mem_nil, or_false] at hw
        obtain rfl | rfl := hw
        · exact isCapital_of_not_word hu
        · exact isCapital_of_not_word hv
      · rw [List.mem_singleton.mp hw]
        exact hv
    · exact ⟨_, [], v :: s, by rw [quoteBody, if_neg hpair], hpiece, rfl, by simp⟩

theorem prefix_quoteBody {w : JsString} (hw : ∀ u ∈ w, isWordUnit u = true) (s : JsString) : w <+: quoteBody s ↔ w <+: s := by
  induction s generalizing w with
  | nil => rfl
  | cons u s ih =>
    cases w with
    | nil => simp
    | cons x w =>
      by_cases hu : isWordUnit u = true
      · rw [quoteBody_cons_word hu, List.cons_prefix_cons, List.cons_prefix_cons, ih fun y hy => hw y (.tail _ hy)]
      · obtain ⟨piece, skipped, rest, hbody, ⟨⟨c, t, rfl, hc⟩, -⟩, -⟩ := quoteBody_cons_gap (by simpa using hu) s
        have hne {y : UInt16} (hy : isWordUnit y = false) : x ≠ y := by
          rintro rfl
          rw [hw x (.head _)] at hy
          cases hy
        rw [hbody, List.cons_append, List.cons_prefix_cons, List.cons_prefix_cons]
        exact iff_of_false (fun h => hne hc h.1) fun h => hne (by simpa using hu) h.1

theorem Word.infix_quoteBody (hw : Word w) (s : JsString) : w <:+: quoteBody s ↔ w <:+: s := by
  induction hn : s.length using Nat.strongRecOn generalizing s with
  | _ n ih =>
  cases s with
  | nil => rfl
  | cons u s =>
    by_cases hu : isWordUnit u = true
    · have hprefix := prefix_quoteBody hw.units (u :: s)
      rw [quoteBody_cons_word hu] at hprefix ⊢
      rw [List.infix_cons_iff, List.infix_cons_iff, hprefix, ih s.length (by rw [← hn]; exact Nat.lt_succ_self _) s rfl]
    · obtain ⟨piece, skipped, rest, hbody, hgap, rfl, hskipped⟩ := quoteBody_cons_gap (by simpa using hu) s
      have hlen : rest.length < n := by
        rw [← hn, List.length_cons, List.length_append]
        omega
      rw [hbody, hw.infix_append_of_no_capital hgap.small, ih _ hlen rest rfl,
        hw.infix_cons_of_not_capital (isCapital_of_not_word (by simpa using hu)),
        hw.infix_append_of_no_capital fun v hv => isCapital_of_not_word (hskipped v hv)]

theorem Word.infix_quote (hw : Word w) (s : JsString) : w <:+: quote s ↔ w <:+: s := by
  rw [quote, hw.infix_cons_of_not_capital (by decide), hw.infix_append_of_no_unit (forall_of_any (by decide)), hw.infix_quoteBody]

/-! ## In a text -/

theorem newline_not_word {depth : Nat} : ∀ u ∈ newline depth, isWordUnit u = false := by
  intro u hu
  obtain rfl | hu := List.mem_cons.mp hu
  · decide
  · rw [(List.mem_replicate.mp hu).2]
    decide

theorem closing_not_word {α : Type} {depth : Nat} {l : List α} {c : UInt16} (hc : isWordUnit c = false) :
    ∀ u ∈ closing depth l ++ [c], isWordUnit u = false := by
  intro u hu
  obtain hu | hu := List.mem_append.mp hu
  · unfold closing at hu
    split at hu
    · cases hu
    · exact newline_not_word u hu
  · rw [List.mem_singleton.mp hu]
    exact hc

theorem Word.infix_newline (hw : Word w) (depth : Nat) (s : JsString) : w <:+: newline depth ++ s ↔ w <:+: s :=
  hw.infix_append_of_no_capital (fun u hu => isCapital_of_not_word (newline_not_word u hu)) s

variable {f}

mutual

theorem Word.infix_stringifyIndented (hw : Word w) : ∀ (depth : Nat) (v : Json ν),
    w <:+: stringifyIndented f depth v ↔ ∃ s ∈ texts f v, w <:+: s
  | _, .null => iff_of_false (hw.not_infix_of_no_capital (forall_of_any (by rw [stringifyIndented]; decide))) (by simp [texts])
  | _, .bool true => iff_of_false (hw.not_infix_of_no_capital (forall_of_any (by rw [stringifyIndented]; decide))) (by simp [texts])
  | _, .bool false => iff_of_false (hw.not_infix_of_no_capital (forall_of_any (by rw [stringifyIndented]; decide))) (by simp [texts])
  | _, .num n => by simp [stringifyIndented, texts]
  | _, .str s => by simp [stringifyIndented, texts, hw.infix_quote]
  | depth, .arr l => by
    rw [stringifyIndented, hw.infix_cons_of_not_capital (by decide),
      hw.infix_append_of_no_unit (closing_not_word (by decide)), hw.infix_indentedElements, texts]
  | depth, .obj l => by
    rw [stringifyIndented, hw.infix_cons_of_not_capital (by decide),
      hw.infix_append_of_no_unit (closing_not_word (by decide)), hw.infix_indentedMembers, texts]

theorem Word.infix_indentedElements (hw : Word w) : ∀ (depth : Nat) (l : List (Json ν)),
    w <:+: indentedElements f depth l ↔ ∃ s ∈ textsOfElements f l, w <:+: s
  | _, [] => iff_of_false (hw.not_infix_of_no_capital (by simp [indentedElements])) (by simp [textsOfElements])
  | depth, [v] => by
    rw [indentedElements, hw.infix_newline, hw.infix_stringifyIndented, textsOfElements, textsOfElements, List.append_nil]
  | depth, v :: x :: l => by
    rw [indentedElements, hw.infix_newline, hw.infix_append_sep (by decide), hw.infix_stringifyIndented,
      hw.infix_indentedElements depth (x :: l)]
    simp only [textsOfElements, List.mem_append, or_and_right, exists_or]

theorem Word.infix_indentedMembers (hw : Word w) : ∀ (depth : Nat) (l : List (JsString × Json ν)),
    w <:+: indentedMembers f depth l ↔ ∃ s ∈ textsOfMembers f l, w <:+: s
  | _, [] => iff_of_false (hw.not_infix_of_no_capital (by simp [indentedMembers])) (by simp [textsOfMembers])
  | depth, [(k, v)] => by
    rw [indentedMembers, hw.infix_newline, hw.infix_append_sep (by decide), hw.infix_quote,
      hw.infix_cons_of_not_capital (by decide), hw.infix_stringifyIndented, textsOfMembers, textsOfMembers]
    simp
  | depth, (k, v) :: e :: l => by
    rw [indentedMembers, hw.infix_newline, hw.infix_append_sep (by decide), hw.infix_quote,
      hw.infix_cons_of_not_capital (by decide), hw.infix_append_sep (by decide), hw.infix_stringifyIndented,
      hw.infix_indentedMembers depth (e :: l)]
    simp only [textsOfMembers, List.mem_cons, List.mem_append, or_and_right, exists_or, exists_eq_left]

end

end JsonText

end Webchannel
