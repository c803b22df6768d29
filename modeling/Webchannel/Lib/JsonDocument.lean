import Mathlib.Data.List.Nodup
import Webchannel.Lib.JsonText

/-!
# JSON values up to the order of members

The document of a value forgets in which order the members of an object stand. Sorting the
members at every depth picks one value for each document, so the text of the sorted value is
the same exactly for values with one document.
-/

namespace Webchannel

/-- A JSON value whose objects are functions from names. -/
inductive Document (ν : Type) where
  | null
  | bool (b : Bool)
  | num (n : ν)
  | str (s : JsString)
  | arr (l : List (Document ν))
  | obj (member : JsString → Option (Document ν))

namespace Json

variable {ν : Type}

mutual

def document : Json ν → Document ν
  | .null => .null
  | .bool b => .bool b
  | .num n => .num n
  | .str s => .str s
  | .arr l => .arr (documentElements l)
  | .obj l => .obj (documentMembers l)

def documentElements : List (Json ν) → List (Document ν)
  | [] => []
  | v :: l => document v :: documentElements l

/-- Of two members with one name the later one is read. -/
def documentMembers : List (JsString × Json ν) → JsString → Option (Document ν)
  | [], _ => none
  | (k, v) :: l, name => (documentMembers l name).or (if name = k then some (document v) else none)

end

/-- The order in which a program sorts names: by their code units. -/
def nameLe (a b : JsString × Json ν) : Bool := decide (a.1 ≤ b.1)

mutual

/-- The value with the members of every object in the order of their names. -/
def sortMembers : Json ν → Json ν
  | .null => .null
  | .bool b => .bool b
  | .num n => .num n
  | .str s => .str s
  | .arr l => .arr (sortElements l)
  | .obj l => .obj ((sortEntries l).mergeSort nameLe)

def sortElements : List (Json ν) → List (Json ν)
  | [] => []
  | v :: l => sortMembers v :: sortElements l

def sortEntries : List (JsString × Json ν) → List (JsString × Json ν)
  | [] => []
  | (k, v) :: l => (k, sortMembers v) :: sortEntries l

end

/-- At every depth the members have different names. -/
inductive Distinct : Json ν → Prop where
  | null : Distinct .null
  | bool (b : Bool) : Distinct (.bool b)
  | num (n : ν) : Distinct (.num n)
  | str (s : JsString) : Distinct (.str s)
  | arr {l : List (Json ν)} (h : ∀ v ∈ l, Distinct v) : Distinct (.arr l)
  | obj {l : List (JsString × Json ν)} (hnames : (l.map Prod.fst).Nodup) (h : ∀ e ∈ l, Distinct e.2) : Distinct (.obj l)

/-! ### Elements and members -/

theorem documentElements_eq (l : List (Json ν)) : documentElements l = l.map document := by
  induction l with
  | nil => rfl
  | cons v l ih => rw [documentElements, ih, List.map_cons]

theorem sortElements_eq (l : List (Json ν)) : sortElements l = l.map sortMembers := by
  induction l with
  | nil => rfl
  | cons v l ih => rw [sortElements, ih, List.map_cons]

theorem sortEntries_eq (l : List (JsString × Json ν)) : sortEntries l = l.map fun e => (e.1, e.2.sortMembers) := by
  induction l with
  | nil => rfl
  | cons e l ih => rw [sortEntries, ih, List.map_cons]

theorem names_sortEntries (l : List (JsString × Json ν)) : (sortEntries l).map Prod.fst = l.map Prod.fst := by
  rw [sortEntries_eq, List.map_map]
  rfl

theorem mem_sortEntries {l : List (JsString × Json ν)} {k : JsString} {w : Json ν} :
    (k, w) ∈ sortEntries l ↔ ∃ v, (k, v) ∈ l ∧ v.sortMembers = w := by
  rw [sortEntries_eq, List.mem_map]
  constructor
  · rintro ⟨⟨k', v⟩, hmem, heq⟩
    obtain ⟨rfl, rfl⟩ := Prod.mk.inj heq
    exact ⟨v, hmem, rfl⟩
  · rintro ⟨v, hmem, rfl⟩
    exact ⟨(k, v), hmem, rfl⟩

theorem documentMembers_eq_none {l : List (JsString × Json ν)} {name : JsString} :
    documentMembers l name = none ↔ name ∉ l.map Prod.fst := by
  induction l with
  | nil => simp [documentMembers]
  | cons e l ih => simp [documentMembers, ih, and_comm]

/-- With different names, every member is read. -/
theorem documentMembers_eq_some {l : List (JsString × Json ν)} (h : (l.map Prod.fst).Nodup) {name : JsString}
    {d : Document ν} : documentMembers l name = some d ↔ ∃ v, (name, v) ∈ l ∧ v.document = d := by
  induction l with
  | nil => simp [documentMembers]
  | cons e l ih =>
    obtain ⟨k, w⟩ := e
    rw [List.map_cons, List.nodup_cons] at h
    rw [documentMembers]
    by_cases hname : name = k
    · subst hname
      rw [documentMembers_eq_none.mpr h.1, Option.none_or, if_pos rfl, Option.some.injEq]
      constructor
      · intro hd
        exact ⟨w, List.mem_cons_self, hd⟩
      · rintro ⟨v, hmem, hd⟩
        rcases List.mem_cons.mp hmem with heq | htail
        · rwa [← (Prod.mk.inj heq).2]
        · exact absurd (List.mem_map.mpr ⟨_, htail, rfl⟩) h.1
    · rw [if_neg hname, Option.or_none, ih h.2]
      constructor
      · rintro ⟨v, hmem, hd⟩
        exact ⟨v, List.mem_cons_of_mem _ hmem, hd⟩
      · rintro ⟨v, hmem, hd⟩
        rcases List.mem_cons.mp hmem with heq | htail
        · exact absurd (Prod.mk.inj heq).1 hname
        · exact ⟨v, htail, hd⟩

theorem documentMembers_congr {l m : List (JsString × Json ν)} (hl : (l.map Prod.fst).Nodup) (hm : (m.map Prod.fst).Nodup)
    (h : ∀ name d, (∃ v, (name, v) ∈ l ∧ v.document = d) ↔ ∃ v, (name, v) ∈ m ∧ v.document = d) :
    documentMembers l = documentMembers m := by
  funext name
  apply Option.ext
  intro d
  rw [documentMembers_eq_some hl, documentMembers_eq_some hm]
  exact h name d

/-! ### One sorted value for each document -/

theorem names_mergeSort {l : List (JsString × Json ν)} (h : (l.map Prod.fst).Nodup) :
    (((sortEntries l).mergeSort nameLe).map Prod.fst).Nodup := by
  rw [((List.mergeSort_perm (sortEntries l) nameLe).map Prod.fst).nodup_iff, names_sortEntries]
  exact h

/-- Sorting does not change the document. -/
theorem Distinct.document_sortMembers {v : Json ν} (h : Distinct v) : v.sortMembers.document = v.document := by
  induction h with
  | null => rfl
  | bool b => rfl
  | num n => rfl
  | str s => rfl
  | @arr l h ih =>
    rw [sortMembers, document, document, sortElements_eq, documentElements_eq, documentElements_eq, List.map_map]
    exact congrArg Document.arr (List.map_congr_left ih)
  | @obj l hnames h ih =>
    rw [sortMembers, document, document]
    refine congrArg Document.obj (documentMembers_congr (names_mergeSort hnames) hnames fun name d => ?_)
    constructor
    · rintro ⟨w, hmem, hd⟩
      rw [List.mem_mergeSort] at hmem
      obtain ⟨v, hv, rfl⟩ := mem_sortEntries.mp hmem
      exact ⟨v, hv, (ih _ hv).symm.trans hd⟩
    · rintro ⟨v, hv, hd⟩
      refine ⟨v.sortMembers, ?_, (ih _ hv).trans hd⟩
      rw [List.mem_mergeSort]
      exact mem_sortEntries.mpr ⟨v, hv, rfl⟩

/-- Sorted members with different names stand in one order only. -/
theorem mergeSort_eq {l m : List (JsString × Json ν)} (hl : (l.map Prod.fst).Nodup) (hm : (m.map Prod.fst).Nodup)
    (h : ∀ e, e ∈ l ↔ e ∈ m) : l.mergeSort nameLe = m.mergeSort nameLe := by
  have htrans (a b c : JsString × Json ν) (hab : nameLe a b = true) (hbc : nameLe b c = true) : nameLe a c = true :=
    decide_eq_true (List.le_trans (of_decide_eq_true hab) (of_decide_eq_true hbc))
  have htotal (a b : JsString × Json ν) : (nameLe a b || nameLe b a) = true := by
    rw [Bool.or_eq_true]
    exact (List.le_total a.1 b.1).imp decide_eq_true decide_eq_true
  have hperm : l.Perm m := (List.perm_ext_iff_of_nodup hl.of_map hm.of_map).mpr h
  refine List.Perm.eq_of_pairwise ?_ (List.pairwise_mergeSort htrans htotal l) (List.pairwise_mergeSort htrans htotal m)
    ((List.mergeSort_perm l _).trans (hperm.trans (List.mergeSort_perm m _).symm))
  intro a b ha hb hab hba
  rw [List.mem_mergeSort] at ha hb
  have hname : a.1 = b.1 := List.le_antisymm (of_decide_eq_true hab) (of_decide_eq_true hba)
  exact List.inj_on_of_nodup_map hl ha ((h b).mpr hb) hname

/-- The members of two objects that read alike are alike once sorted. -/
theorem sortEntries_subset {l m : List (JsString × Json ν)} (hl : (l.map Prod.fst).Nodup) (hm : (m.map Prod.fst).Nodup)
    (hsame : documentMembers l = documentMembers m)
    (hvalue : ∀ v w k, (k, v) ∈ l → (k, w) ∈ m → v.document = w.document → v.sortMembers = w.sortMembers)
    {e : JsString × Json ν} (he : e ∈ sortEntries l) : e ∈ sortEntries m := by
  obtain ⟨k, x⟩ := e
  obtain ⟨v, hv, rfl⟩ := mem_sortEntries.mp he
  have hread : documentMembers m k = some v.document := hsame ▸ (documentMembers_eq_some hl).mpr ⟨v, hv, rfl⟩
  obtain ⟨w, hw, hdoc⟩ := (documentMembers_eq_some hm).mp hread
  exact mem_sortEntries.mpr ⟨w, hw, (hvalue v w k hv hw hdoc.symm).symm⟩

theorem map_eq_of_map_eq {α β γ : Type} {f : α → β} {g : α → γ} {l m : List α}
    (h : ∀ v ∈ l, ∀ w ∈ m, g v = g w → f v = f w) (hg : l.map g = m.map g) : l.map f = m.map f := by
  induction l generalizing m with
  | nil => rw [List.map_eq_nil_iff.mp hg.symm]
  | cons v l ih =>
    cases m with
    | nil => cases hg
    | cons w m =>
      obtain ⟨hhead, htail⟩ := List.cons.inj hg
      rw [List.map_cons, List.map_cons, h v List.mem_cons_self w List.mem_cons_self hhead]
      exact congrArg _ (ih (fun v hv w hw => h v (.tail _ hv) w (.tail _ hw)) htail)

theorem Distinct.sortMembers_eq {a b : Json ν} (ha : Distinct a) (hb : Distinct b) (h : a.document = b.document) :
    a.sortMembers = b.sortMembers := by
  induction ha generalizing b with
  | null => cases hb <;> first | rfl | cases h
  | bool x => cases hb <;> cases h; rfl
  | num n => cases hb <;> cases h; rfl
  | str s => cases hb <;> cases h; rfl
  | @arr l hl ih =>
    cases hb with
    | @arr m hm =>
      simp only [document, documentElements_eq, Document.arr.injEq] at h
      rw [sortMembers, sortMembers, sortElements_eq, sortElements_eq]
      exact congrArg Json.arr (map_eq_of_map_eq (fun v hv w hw => ih v hv (hm w hw)) h)
    | _ => cases h
  | @obj l hnames hl ih =>
    cases hb with
    | @obj m hnames' hm =>
      have hsame : documentMembers l = documentMembers m := Document.obj.inj h
      have hvalue (v w : Json ν) (k : JsString) (hv : (k, v) ∈ l) (hw : (k, w) ∈ m) (hdoc : v.document = w.document) :
          v.sortMembers = w.sortMembers := ih _ hv (hm _ hw) hdoc
      rw [sortMembers, sortMembers]
      refine congrArg Json.obj (mergeSort_eq ?_ ?_ fun e => ⟨?_, ?_⟩)
      · rw [names_sortEntries]
        exact hnames
      · rw [names_sortEntries]
        exact hnames'
      · exact sortEntries_subset hnames hnames' hsame hvalue
      · exact sortEntries_subset hnames' hnames hsame.symm fun v w k hv hw hdoc => (hvalue w v k hw hv hdoc.symm).symm
    | _ => cases h

/-- Two values are one document if and only if they are the same once sorted. -/
theorem sortMembers_eq_iff {a b : Json ν} (ha : Distinct a) (hb : Distinct b) :
    a.sortMembers = b.sortMembers ↔ a.document = b.document := by
  constructor
  · intro h
    rw [← ha.document_sortMembers, ← hb.document_sortMembers, h]
  · exact ha.sortMembers_eq hb

end Json

/-! ### Numbers as their texts -/

namespace JsonText

/-- A digit, a sign, a decimal point or the mark of an exponent. -/
def isNumberUnit (u : UInt16) : Bool := isDigit u || u = 43 || u = 45 || u = 46 || u = 101

def isNumberText (s : JsString) : Bool :=
  match s with
  | [] => false
  | c :: _ => (c = 45 || isDigit c) && s.all isNumberUnit

abbrev NumberText := { s : JsString // isNumberText s = true }

def readNumberText (s : JsString) : Option (NumberText × JsString) :=
  if h : isNumberText (s.takeWhile isNumberUnit) = true then some (⟨_, h⟩, s.dropWhile isNumberUnit) else none

theorem isNumberUnit_of_mem {s : JsString} (h : isNumberText s = true) {u : UInt16} (hu : u ∈ s) : isNumberUnit u = true := by
  cases s with
  | nil => cases h
  | cons c s => exact List.all_eq_true.mp (Bool.and_eq_true_iff.mp h).2 u hu

theorem not_numberUnit {rest : JsString} (h : Delimited rest) :
    rest.takeWhile isNumberUnit = [] ∧ rest.dropWhile isNumberUnit = rest := by
  cases rest with
  | nil => exact ⟨rfl, rfl⟩
  | cons c rest =>
    have hc : ¬ isNumberUnit c = true := by
      rcases h with rfl | rfl | rfl <;> decide
    exact ⟨List.takeWhile_cons_of_neg hc, List.dropWhile_cons_of_neg hc⟩

theorem ascii_of_numberUnit {u : UInt16} (h : isNumberUnit u = true) : u < 0x80 := by
  simp only [isNumberUnit, Bool.or_eq_true, decide_eq_true_eq] at h
  rcases h with (((hdigit | rfl) | rfl) | rfl) | rfl
  · exact UInt16.lt_of_le_of_lt (of_decide_eq_true hdigit).2 (by decide)
  · decide
  · decide
  · decide
  · decide

/-- Every number is written as the text that it is. -/
def numberTexts : NumberFormat NumberText where
  format n := n.1
  read := readNumberText
  starts n := by
    obtain ⟨s, hs⟩ := n
    cases s with
    | nil => cases hs
    | cons c s =>
      have hc := (Bool.and_eq_true_iff.mp hs).1
      simp only [Bool.or_eq_true, decide_eq_true_eq] at hc
      exact ⟨c, s, rfl, hc.imp_right of_decide_eq_true⟩
  ascii n u hu := ascii_of_numberUnit (isNumberUnit_of_mem n.2 hu)
  read_format n rest hrest := by
    obtain ⟨htake, hdrop⟩ := not_numberUnit hrest
    have hunits : ∀ u ∈ n.1, isNumberUnit u = true := fun u hu => isNumberUnit_of_mem n.2 hu
    have htext : (n.1 ++ rest).takeWhile isNumberUnit = n.1 := by
      rw [List.takeWhile_append_of_pos hunits, htake, List.append_nil]
    have hrest : (n.1 ++ rest).dropWhile isNumberUnit = rest := by
      rw [List.dropWhile_append_of_pos hunits, hdrop]
    simp only [readNumberText, htext, hrest]
    exact dif_pos n.2

end JsonText

end Webchannel
