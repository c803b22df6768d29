import Mathlib.Data.Set.Lattice

/-!
# Groups and labels

Disjoint groups of some elements, and a table that labels the elements of each group alike. Giving one
label to some elements and to all that share a label with them merges groups; taking it away dissolves
them.
-/

namespace Webchannel.Groups

variable {α ι : Type}

def Meets (s g : Set α) : Prop := (s ∩ g).Nonempty

/-- The elements of `s` and all groups they meet become one group. -/
def merge (s : Set α) (G : Set (Set α)) : Set (Set α) :=
  insert (s ∪ ⋃₀ {g ∈ G | Meets s g}) {g ∈ G | ¬ Meets s g}

def dissolve (s : Set α) (G : Set (Set α)) : Set (Set α) := {g ∈ G | ¬ Meets s g}

/-- The groups of a table, among the elements of `P`. -/
def classes (P : Set α) (label : α → Option ι) : Set (Set α) :=
  {g | g.Nonempty ∧ ∃ i, g = {a ∈ P | label a = some i}}

variable {P s : Set α} {label label' : α → Option ι} {a b : α} {i : ι}

theorem mem_classes_of (ha : a ∈ P) (hlabel : label a = some i) : {b ∈ P | label b = some i} ∈ classes P label :=
  ⟨⟨a, ha, hlabel⟩, i, rfl⟩

/-- Some element of `s` has this label. -/
def Touched (s : Set α) (label : α → Option ι) (i : ι) : Prop := ∃ b ∈ s, label b = some i

theorem meets_class (hs : s ⊆ P) : Meets s {b ∈ P | label b = some i} ↔ Touched s label i := by
  constructor
  · rintro ⟨b, hb, -, hlabel⟩
    exact ⟨b, hb, hlabel⟩
  · rintro ⟨b, hb, hlabel⟩
    exact ⟨b, hb, hs hb, hlabel⟩

section

variable {m : ι}

/-- The label of a merged group is one of those it merges, or new. -/
theorem classes_merge (hs : s ⊆ P) (hne : s.Nonempty)
    (hin : ∀ a ∈ P, (a ∈ s ∨ ∃ i, label a = some i ∧ Touched s label i) → label' a = some m)
    (hout : ∀ a ∈ P, ¬ (a ∈ s ∨ ∃ i, label a = some i ∧ Touched s label i) → label' a = label a)
    (hm : Touched s label m ∨ ∀ a ∈ P, label a ≠ some m) :
    classes P label' = merge s (classes P label) := by
  -- The class of the label, and the others.
  have hmerged : {a ∈ P | label' a = some m} = s ∪ ⋃₀ {g ∈ classes P label | Meets s g} := by
    ext a
    constructor
    · rintro ⟨ha, hlabel⟩
      by_cases h : a ∈ s ∨ ∃ i, label a = some i ∧ Touched s label i
      · obtain h | ⟨i, hi, ht⟩ := h
        · exact .inl h
        · exact .inr ⟨_, ⟨mem_classes_of ha hi, (meets_class hs).mpr ht⟩, ha, hi⟩
      · rw [hout a ha h] at hlabel
        obtain ht | hnew := hm
        · exact absurd (.inr ⟨m, hlabel, ht⟩) h
        · exact absurd hlabel (hnew a ha)
    · rintro (ha | ⟨g, ⟨⟨-, i, rfl⟩, hmeets⟩, ha, hi⟩)
      · exact ⟨hs ha, hin a (hs ha) (.inl ha)⟩
      · exact ⟨ha, hin a ha (.inr ⟨i, hi, (meets_class hs).mp hmeets⟩)⟩
  have hkept : ∀ i, i ≠ m → ¬ Touched s label i → {a ∈ P | label' a = some i} = {a ∈ P | label a = some i} := by
    intro i him hi
    ext a
    refine and_congr_right fun ha => ?_
    by_cases h : a ∈ s ∨ ∃ i, label a = some i ∧ Touched s label i
    · have hla : label a ≠ some i := by
        intro hla
        obtain h | ⟨j, hj, ht⟩ := h
        · exact hi ⟨a, h, hla⟩
        · rw [hla] at hj
          exact hi (Option.some.inj hj ▸ ht)
      rw [hin a ha h]
      exact iff_of_false (fun h => him (Option.some.inj h).symm) hla
    · rw [hout a ha h]
  ext g
  constructor
  · rintro ⟨⟨a, ha⟩, i, rfl⟩
    by_cases him : i = m
    · subst him
      exact .inl hmerged
    have hi : ¬ Touched s label i := by
      intro ht
      have hlabel : label a = some i := by
        by_contra hne'
        by_cases h : a ∈ s ∨ ∃ i, label a = some i ∧ Touched s label i
        · exact him (Option.some.inj ((hin a ha.1 h).symm.trans ha.2)).symm
        · exact hne' ((hout a ha.1 h).symm.trans ha.2)
      exact him (Option.some.inj ((hin a ha.1 (.inr ⟨i, hlabel, ht⟩)).symm.trans ha.2)).symm
    rw [hkept i him hi] at ha ⊢
    exact .inr ⟨⟨⟨a, ha⟩, i, rfl⟩, fun hmeets => hi ((meets_class hs).mp hmeets)⟩
  · rintro (rfl | ⟨⟨⟨a, ha⟩, i, rfl⟩, hmeets⟩)
    · obtain ⟨b, hb⟩ := hne
      exact ⟨⟨b, .inl hb⟩, m, hmerged.symm⟩
    · have hi : ¬ Touched s label i := fun ht => hmeets ((meets_class hs).mpr ht)
      have him : i ≠ m := by
        rintro rfl
        exact hm.elim hi fun hnew => hnew a ha.1 ha.2
      exact ⟨⟨a, ha⟩, i, (hkept i him hi).symm⟩

theorem classes_dissolve (hs : s ⊆ P)
    (hin : ∀ a ∈ P, ∀ i, label a = some i → Touched s label i → label' a = none)
    (hout : ∀ a ∈ P, (∀ i, label a = some i → ¬ Touched s label i) → label' a = label a) :
    classes P label' = dissolve s (classes P label) := by
  have hlabel : ∀ a ∈ P, ∀ i, label' a = some i ↔ label a = some i ∧ ¬ Touched s label i := by
    intro a ha i
    by_cases h : ∀ j, label a = some j → ¬ Touched s label j
    · rw [hout a ha h]
      exact ⟨fun hi => ⟨hi, h i hi⟩, And.left⟩
    · push Not at h
      obtain ⟨j, hj, ht⟩ := h
      rw [hin a ha j hj ht, hj]
      refine iff_of_false (fun h => by cases h) ?_
      rintro ⟨hji, hno⟩
      exact hno (Option.some.inj hji ▸ ht)
  have hclass : ∀ i, ¬ Touched s label i → {a ∈ P | label' a = some i} = {a ∈ P | label a = some i} := by
    intro i hi
    ext a
    exact and_congr_right fun ha => (hlabel a ha i).trans (and_iff_left hi)
  ext g
  constructor
  · rintro ⟨⟨a, ha⟩, i, rfl⟩
    obtain ⟨ha, hla⟩ := ha
    have hi : ¬ Touched s label i := ((hlabel a ha i).mp hla).2
    rw [hclass i hi]
    exact ⟨⟨⟨a, ha, ((hlabel a ha i).mp hla).1⟩, i, rfl⟩, fun hmeets => hi ((meets_class hs).mp hmeets)⟩
  · rintro ⟨⟨hne, i, rfl⟩, hmeets⟩
    have hi : ¬ Touched s label i := fun ht => hmeets ((meets_class hs).mpr ht)
    exact ⟨hne, i, (hclass i hi).symm⟩

end

end Webchannel.Groups
