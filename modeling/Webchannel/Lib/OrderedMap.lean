import Mathlib.Data.List.Nodup
import Mathlib.Data.List.Basic
import Mathlib.Data.List.Perm.Subperm

/-!
# Insertion-ordered maps

The map of a language whose maps iterate in insertion order: setting a present key keeps
its place, setting an absent one appends it, and deleting forgets the place. Keys are
pairwise distinct by construction.
-/

namespace Webchannel

variable {κ ν : Type} [DecidableEq κ]

structure OrderedMap (κ ν : Type) where
  entries : List (κ × ν)
  nodup : (entries.map Prod.fst).Nodup

namespace OrderedMap

def empty : OrderedMap κ ν := ⟨[], List.nodup_nil⟩

def get (m : OrderedMap κ ν) (k : κ) : Option ν := (m.entries.find? (·.1 == k)).map Prod.snd

def has (m : OrderedMap κ ν) (k : κ) : Bool := (m.get k).isSome

def size (m : OrderedMap κ ν) : Nat := m.entries.length

def keys (m : OrderedMap κ ν) : List κ := m.entries.map Prod.fst

def values (m : OrderedMap κ ν) : List ν := m.entries.map Prod.snd

def delete (m : OrderedMap κ ν) (k : κ) : OrderedMap κ ν where
  entries := m.entries.filter (·.1 ≠ k)
  nodup := m.nodup.sublist (List.filter_sublist.map _)

theorem mem_keys {m : OrderedMap κ ν} {k : κ} : k ∈ m.keys ↔ m.has k = true := by
  simp only [keys, has, get, Option.isSome_map, List.find?_isSome, List.mem_map, beq_iff_eq]

theorem map_fst_replace (l : List (κ × ν)) (k : κ) (v : ν) :
    (l.map fun e => if e.1 = k then (k, v) else e).map Prod.fst = l.map Prod.fst := by
  rw [List.map_map]
  apply List.map_congr_left
  intro e _
  simp only [Function.comp_apply]
  split
  · rename_i h
    exact h.symm
  · rfl

def set (m : OrderedMap κ ν) (k : κ) (v : ν) : OrderedMap κ ν :=
  if h : m.has k = true then
    ⟨m.entries.map fun e => if e.1 = k then (k, v) else e,
      by rw [map_fst_replace]; exact m.nodup⟩
  else
    ⟨m.entries ++ [(k, v)], by
      have hk : k ∉ m.keys := fun hk => h (mem_keys.mp hk)
      rw [List.map_append]
      exact m.nodup.append (List.nodup_singleton k) (by simpa [keys] using hk)⟩

@[simp] theorem get_empty (k : κ) : (empty : OrderedMap κ ν).get k = none := rfl

@[simp] theorem has_empty (k : κ) : (empty : OrderedMap κ ν).has k = false := rfl

theorem has_eq_false_iff {m : OrderedMap κ ν} {k : κ} : m.has k = false ↔ m.get k = none := by
  simp [has]

theorem find?_replace_ne (l : List (κ × ν)) {k k' : κ} (v : ν) (h : k' ≠ k) :
    (l.map fun e => if e.1 = k then (k, v) else e).find? (·.1 == k') = l.find? (·.1 == k') := by
  induction l with
  | nil => rfl
  | cons e l ih =>
    by_cases he : e.1 = k
    · simp [he, Ne.symm h, ih]
    · by_cases he' : e.1 = k'
      · rw [List.map_cons, if_neg he, List.find?_cons_of_pos (by simpa using he'),
          List.find?_cons_of_pos (by simpa using he')]
      · simp [he, he', ih]

theorem find?_replace_self (l : List (κ × ν)) {k : κ} (v : ν)
    (h : (l.find? (·.1 == k)).isSome = true) :
    (l.map fun e => if e.1 = k then (k, v) else e).find? (·.1 == k) = some (k, v) := by
  induction l with
  | nil => simp at h
  | cons e l ih =>
    by_cases he : e.1 = k
    · simp [he]
    · simp only [List.map_cons, he, if_false, List.find?_cons]
      simp only [beq_eq_false_iff_ne.mpr he]
      apply ih
      simpa [List.find?_cons, beq_eq_false_iff_ne.mpr he] using h

@[simp] theorem get_set_self (m : OrderedMap κ ν) (k : κ) (v : ν) : (m.set k v).get k = some v := by
  unfold set
  split
  · rename_i h
    simp only [get]
    rw [find?_replace_self _ _ (by simpa [has, get] using h)]
    rfl
  · rename_i h
    have hnone : m.entries.find? (·.1 == k) = none := by
      simpa only [Bool.not_eq_true, has_eq_false_iff, get, Option.map_eq_none_iff] using h
    simp [get, List.find?_append, hnone]

theorem get_set_of_ne (m : OrderedMap κ ν) {k k' : κ} (v : ν) (h : k' ≠ k) :
    (m.set k v).get k' = m.get k' := by
  unfold set
  split
  · simp only [get]
    rw [find?_replace_ne _ _ h]
  · simp [get, List.find?_append, Ne.symm h]

@[simp] theorem get_delete_self (m : OrderedMap κ ν) (k : κ) : (m.delete k).get k = none := by
  simp [get, delete, List.find?_filter]

theorem get_delete_of_ne (m : OrderedMap κ ν) {k k' : κ} (h : k' ≠ k) :
    (m.delete k).get k' = m.get k' := by
  simp only [get, delete, List.find?_filter]
  congr 2
  funext e
  by_cases he : e.1 = k'
  · simp [he, h]
  · simp [he]

/-- The entries are exactly the bindings. -/
theorem mem_entries {m : OrderedMap κ ν} {k : κ} {v : ν} :
    (k, v) ∈ m.entries ↔ m.get k = some v := by
  constructor
  · intro h
    have hget : ∃ v', m.get k = some v' := Option.isSome_iff_exists.mp
      (mem_keys.mp (List.mem_map.mpr ⟨(k, v), h, rfl⟩))
    obtain ⟨v', hv'⟩ := hget
    obtain ⟨⟨k', w⟩, hfind, rfl⟩ := Option.map_eq_some_iff.mp hv'
    have hmem := List.mem_of_find?_eq_some hfind
    obtain rfl : k' = k := by simpa using List.find?_some hfind
    have := List.inj_on_of_nodup_map m.nodup h hmem rfl
    rw [hv', Prod.mk.inj this |>.2]
  · intro h
    obtain ⟨⟨k', w⟩, hfind, rfl⟩ := Option.map_eq_some_iff.mp h
    obtain rfl : k' = k := by simpa using List.find?_some hfind
    exact List.mem_of_find?_eq_some hfind

theorem mem_values {m : OrderedMap κ ν} {v : ν} : v ∈ m.values ↔ ∃ k, m.get k = some v := by
  constructor
  · intro h
    obtain ⟨⟨k, w⟩, he, rfl⟩ := List.mem_map.mp h
    exact ⟨k, mem_entries.mp he⟩
  · rintro ⟨k, h⟩
    exact List.mem_map.mpr ⟨(k, v), mem_entries.mpr h, rfl⟩

theorem get_delete_eq (m : OrderedMap κ ν) (k k' : κ) :
    (m.delete k).get k' = if k' = k then none else m.get k' := by
  split
  · rename_i h
    subst h
    exact get_delete_self m k'
  · rename_i h
    exact get_delete_of_ne m h

theorem get_of_get_delete {m : OrderedMap κ ν} {k k' : κ} {v : ν} (h : (m.delete k).get k' = some v) :
    m.get k' = some v := by
  rw [get_delete_eq] at h
  split at h
  · cases h
  · exact h

theorem get_set_eq (m : OrderedMap κ ν) (k k' : κ) (v : ν) :
    (m.set k v).get k' = if k' = k then some v else m.get k' := by
  split
  · rename_i h
    subst h
    exact get_set_self m k' v
  · rename_i h
    exact get_set_of_ne m v h

theorem has_set_eq (m : OrderedMap κ ν) (k k' : κ) (v : ν) :
    (m.set k v).has k' = (decide (k' = k) || m.has k') := by
  by_cases h : k' = k
  · subst h
    simp [has]
  · simp [has, get_set_of_ne m v h, h]

theorem has_delete_eq (m : OrderedMap κ ν) (k k' : κ) :
    (m.delete k).has k' = (decide (k' ≠ k) && m.has k') := by
  by_cases h : k' = k
  · subst h
    simp [has]
  · simp [has, get_delete_of_ne m h, h]

theorem keys_delete (m : OrderedMap κ ν) (k : κ) : (m.delete k).keys = m.keys.filter (· ≠ k) := by
  simp only [keys, delete, List.filter_map]
  rfl

omit [DecidableEq κ] in
/-- Drop from the front until fewer than `cap` are left. -/
def dropOldest {α : Type} (cap : Nat) : List α → List α
  | [] => []
  | a :: l => if cap ≤ l.length + 1 then dropOldest cap l else a :: l

theorem dropOldest_sublist {α : Type} (cap : Nat) (l : List α) : (dropOldest cap l).Sublist l := by
  induction l with
  | nil => exact List.Sublist.refl []
  | cons a l ih =>
    rw [dropOldest]
    split
    · exact ih.cons a
    · exact List.Sublist.refl _

/-- Delete the oldest entries until fewer than `cap` are left. -/
def evict (m : OrderedMap κ ν) (cap : Nat) : OrderedMap κ ν where
  entries := dropOldest cap m.entries
  nodup := m.nodup.sublist ((dropOldest_sublist cap m.entries).map _)

theorem evict_eq_self {m : OrderedMap κ ν} {cap : Nat} (h : m.size < cap) : m.evict cap = m := by
  obtain ⟨entries, nodup⟩ := m
  cases entries with
  | nil => rfl
  | cons e l =>
    have hlt : ¬ cap ≤ l.length + 1 := Nat.not_le.mpr h
    simp only [evict, dropOldest, hlt, if_false]

theorem get_of_get_evict {m : OrderedMap κ ν} {cap : Nat} {k : κ} {v : ν}
    (h : (m.evict cap).get k = some v) : m.get k = some v :=
  mem_entries.mp ((dropOldest_sublist cap m.entries).mem (mem_entries.mpr h))

/-- Keep the entries whose value passes a test. -/
def filter (m : OrderedMap κ ν) (p : ν → Bool) : OrderedMap κ ν where
  entries := m.entries.filter fun e => p e.2
  nodup := m.nodup.sublist (List.filter_sublist.map _)

theorem get_of_get_filter {m : OrderedMap κ ν} {p : ν → Bool} {k : κ} {v : ν}
    (h : (m.filter p).get k = some v) : m.get k = some v :=
  mem_entries.mp (List.mem_of_mem_filter (mem_entries.mpr h))

theorem get_filter (m : OrderedMap κ ν) (p : ν → Bool) (k : κ) : (m.filter p).get k = (m.get k).filter p := by
  refine Option.ext fun v => ?_
  rw [← mem_entries, Option.filter_eq_some_iff, ← mem_entries]
  exact List.mem_filter

/-- Change every value where it stands. -/
def mapValues {μ : Type} (m : OrderedMap κ ν) (f : ν → μ) : OrderedMap κ μ where
  entries := m.entries.map fun e => (e.1, f e.2)
  nodup := by
    rw [List.map_map]
    exact m.nodup

theorem get_mapValues {μ : Type} (m : OrderedMap κ ν) (f : ν → μ) (k : κ) :
    (m.mapValues f).get k = (m.get k).map f := by
  simp only [get, mapValues, List.find?_map, Option.map_map]
  rfl

theorem keys_eq_nil_iff {m : OrderedMap κ ν} : m.keys = [] ↔ m.size = 0 := by
  simp [keys, size]

omit [DecidableEq κ] in
theorem keys_nodup (m : OrderedMap κ ν) : m.keys.Nodup := m.nodup

theorem keys_set_of_has {m : OrderedMap κ ν} {k : κ} (v : ν) (h : m.has k = true) :
    (m.set k v).keys = m.keys := by
  unfold set
  rw [dif_pos h]
  exact map_fst_replace m.entries k v

theorem keys_set_of_not_has {m : OrderedMap κ ν} {k : κ} (v : ν) (h : m.has k = false) :
    (m.set k v).keys = m.keys ++ [k] := by
  unfold set
  rw [dif_neg (by simp [h])]
  simp [keys]

theorem keys_perm_of_get_eq {m m' : OrderedMap κ ν} (h : ∀ k, m'.get k = m.get k) : m'.keys.Perm m.keys := by
  refine (List.perm_ext_iff_of_nodup m'.nodup m.nodup).mpr fun k => ?_
  change k ∈ m'.keys ↔ k ∈ m.keys
  rw [mem_keys, mem_keys, has, has, h]

theorem size_eq_of_get_eq {m m' : OrderedMap κ ν} (h : ∀ k, m'.get k = m.get k) : m'.size = m.size := by
  simpa [keys, size] using (keys_perm_of_get_eq h).length_eq

/-- A map of the same size with every entry of the other is the same map. -/
theorem get_eq_of_size_eq {m m' : OrderedMap κ ν} (hsize : m'.size = m.size)
    (h : ∀ k v, m.get k = some v → m'.get k = some v) (k : κ) : m'.get k = m.get k := by
  have hsubset : m.keys ⊆ m'.keys := by
    intro k hk
    obtain ⟨v, hv⟩ := Option.isSome_iff_exists.mp (mem_keys.mp hk)
    exact mem_keys.mpr (by rw [has, h k v hv]; rfl)
  have hperm : m.keys.Perm m'.keys :=
    (List.Nodup.subperm m.nodup hsubset).perm_of_length_le (by simpa [keys, size] using Nat.le_of_eq hsize)
  cases hk : m.get k with
  | some v => exact h k v hk
  | none =>
    rw [← has_eq_false_iff, ← Bool.not_eq_true, ← mem_keys] at hk ⊢
    exact fun hmem => hk (hperm.mem_iff.mpr hmem)

theorem delete_of_not_has {m : OrderedMap κ ν} {k : κ} (h : m.has k = false) : m.delete k = m := by
  obtain ⟨entries, nodup⟩ := m
  have hkept : entries.filter (·.1 ≠ k) = entries := by
    refine List.filter_eq_self.mpr fun e he => decide_eq_true fun heq => ?_
    have hmem : k ∈ (⟨entries, nodup⟩ : OrderedMap κ ν).keys := List.mem_map.mpr ⟨e, he, heq⟩
    rw [mem_keys, h] at hmem
    cases hmem
  simp only [delete, hkept]

omit [DecidableEq κ] in
theorem length_keys (m : OrderedMap κ ν) : m.keys.length = m.size := List.length_map ..

theorem size_set_of_not_has {m : OrderedMap κ ν} {k : κ} (v : ν) (h : m.has k = false) :
    (m.set k v).size = m.size + 1 := by
  rw [← length_keys, keys_set_of_not_has v h, List.length_append, length_keys, List.length_singleton]

theorem size_delete_of_has {m : OrderedMap κ ν} {k : κ} (h : m.has k = true) : (m.delete k).size + 1 = m.size := by
  have herase : m.keys.filter (· ≠ k) = m.keys.erase k := by
    rw [m.keys_nodup.erase_eq_filter]
    exact List.filter_congr fun x _ => by simp [bne, beq_eq_decide]
  rw [← length_keys, ← length_keys, keys_delete, herase]
  exact List.length_erase_add_one (mem_keys.mpr h)

theorem get_of_size_eq_zero {m : OrderedMap κ ν} (h : m.size = 0) (k : κ) : m.get k = none := by
  rw [← has_eq_false_iff, Bool.eq_false_iff]
  intro hhas
  rw [← mem_keys, keys_eq_nil_iff.mpr h] at hhas
  cases hhas

theorem keys_delete_oldest {m : OrderedMap κ ν} {k : κ} {l : List κ} (h : m.keys = k :: l) : (m.delete k).keys = l := by
  have hnodup : (k :: l).Nodup := h ▸ m.nodup
  rw [keys_delete, h, List.filter_cons_of_neg (by simp)]
  exact List.filter_eq_self.mpr fun x hx => decide_eq_true fun heq => (List.nodup_cons.mp hnodup).1 (heq ▸ hx)

theorem get_foldl_delete (l : List κ) (m : OrderedMap κ ν) (k : κ) :
    (l.foldl (·.delete ·) m).get k = if k ∈ l then none else m.get k := by
  induction l generalizing m with
  | nil => simp
  | cons a l ih =>
    rw [List.foldl_cons, ih, get_delete_eq]
    by_cases hk : k = a
    · simp [hk]
    · simp [hk]

theorem keys_foldl_delete (l : List κ) (m : OrderedMap κ ν) :
    (l.foldl delete m).keys = m.keys.filter (· ∉ l) := by
  induction l generalizing m with
  | nil => simp
  | cons k l ih =>
    rw [List.foldl_cons, ih, keys_delete, List.filter_filter]
    apply List.filter_congr
    intro x _
    simp [Bool.and_comm]

end OrderedMap

/-- A set that iterates in insertion order. -/
abbrev OrderedSet (κ : Type) := OrderedMap κ Unit

namespace OrderedSet

def add (s : OrderedSet κ) (k : κ) : OrderedSet κ := OrderedMap.set s k ()

def ofList (l : List κ) : OrderedSet κ := l.foldl add OrderedMap.empty

theorem mem_keys_foldl_add (l : List κ) (s : OrderedSet κ) (k : κ) :
    k ∈ (l.foldl add s).keys ↔ k ∈ s.keys ∨ k ∈ l := by
  induction l generalizing s with
  | nil => simp
  | cons a l ih =>
    rw [List.foldl_cons, ih, OrderedMap.mem_keys, OrderedMap.mem_keys, add, OrderedMap.has_set_eq]
    by_cases h : k = a <;> simp [h]

theorem mem_keys_ofList {l : List κ} {k : κ} : k ∈ (ofList l).keys ↔ k ∈ l := by
  rw [ofList, mem_keys_foldl_add]
  simp [OrderedMap.keys, OrderedMap.empty]

theorem keys_foldl_add_of_nodup {l : List κ} {s : OrderedSet κ} (h : (s.keys ++ l).Nodup) :
    (l.foldl add s).keys = s.keys ++ l := by
  induction l generalizing s with
  | nil => simp
  | cons k l ih =>
    have hk : s.has k = false := by
      have : k ∉ s.keys := fun hk => (List.nodup_append.mp h).2.2 k hk k (.head _) rfl
      simpa [OrderedMap.mem_keys] using this
    have hkeys : (add s k).keys = s.keys ++ [k] := OrderedMap.keys_set_of_not_has () hk
    rw [List.foldl_cons, ih (by rw [hkeys]; simpa using h), hkeys, List.append_assoc]
    rfl

/-- A list without repetitions is its own set. -/
theorem keys_ofList_of_nodup {l : List κ} (h : l.Nodup) : (ofList l).keys = l :=
  keys_foldl_add_of_nodup (s := OrderedMap.empty) h

end OrderedSet

end Webchannel
