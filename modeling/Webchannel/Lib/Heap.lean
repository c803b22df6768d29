import Mathlib.Data.List.Basic

/-!
# Objects with identity

The objects of one class, addressed by their position. An object is allocated once and
updated in place, so closures that captured an address keep seeing the same object.
-/

namespace Webchannel

structure Heap (α : Type) where
  cells : List α
  deriving DecidableEq, Repr

namespace Heap

variable {α β : Type}

def empty : Heap α := ⟨[]⟩

def get (h : Heap α) (i : Nat) : Option α := h.cells[i]?

/-- The address the next object gets. -/
def next (h : Heap α) : Nat := h.cells.length

def alloc (h : Heap α) (a : α) : Heap α := ⟨h.cells ++ [a]⟩

def update (h : Heap α) (i : Nat) (f : α → α) : Heap α := ⟨h.cells.modify i f⟩

variable {h : Heap α} {i j : Nat} {a b : α} {f g : α → α}

@[simp] theorem get_empty (i : Nat) : (empty : Heap α).get i = none := rfl

theorem lt_next (hi : h.get i = some a) : i < h.next := (List.getElem?_eq_some_iff.mp hi).1

@[simp] theorem get_next (h : Heap α) : h.get h.next = none := List.getElem?_eq_none (Nat.le_refl _)

theorem get_alloc (h : Heap α) (a : α) (i : Nat) :
    (h.alloc a).get i = if i = h.next then some a else h.get i := by
  rcases Nat.lt_trichotomy i h.next with hi | rfl | hi
  · rw [if_neg (Nat.ne_of_lt hi)]
    exact List.getElem?_append_left hi
  · simp [get, alloc, next]
  · have hlen : (h.cells ++ [a]).length = h.next + 1 := by simp [next]
    rw [if_neg (Nat.ne_of_gt hi)]
    simp only [get, alloc]
    rw [List.getElem?_eq_none (by omega), List.getElem?_eq_none (Nat.le_of_lt hi)]

@[simp] theorem get_alloc_next (h : Heap α) (a : α) : (h.alloc a).get h.next = some a := by
  simp [get_alloc]

theorem get_alloc_of_some (hi : h.get i = some b) : (h.alloc a).get i = some b := by
  rw [get_alloc, if_neg (Nat.ne_of_lt (lt_next hi)), hi]

/-- An object of the grown heap is the new one or an old one. -/
theorem get_alloc_cases (hi : (h.alloc a).get i = some b) :
    (i = h.next ∧ b = a) ∨ h.get i = some b := by
  rw [get_alloc] at hi
  split at hi
  · exact .inl ⟨‹_›, (Option.some.inj hi).symm⟩
  · exact .inr hi

theorem get_update (h : Heap α) (i j : Nat) (f : α → α) :
    (h.update i f).get j = if j = i then (h.get j).map f else h.get j := by
  simp only [get, update, List.getElem?_modify]
  split
  · rename_i hij
    simp [hij]
  · rename_i hij
    simp [Ne.symm hij]

theorem get_update_self (hi : h.get i = some a) : (h.update i f).get i = some (f a) := by
  simp [get_update, hi]

theorem get_update_of_ne (hij : j ≠ i) : (h.update i f).get j = h.get j := by
  simp [get_update, hij]

/-- Every object of the updated heap comes from the object that was there. -/
theorem get_update_cases (hj : (h.update i f).get j = some b) :
    (j = i ∧ ∃ a, h.get i = some a ∧ b = f a) ∨ (j ≠ i ∧ h.get j = some b) := by
  rw [get_update] at hj
  split at hj
  · rename_i hij
    obtain ⟨a, ha, rfl⟩ := Option.map_eq_some_iff.mp hj
    exact .inl ⟨hij, a, hij ▸ ha, rfl⟩
  · exact .inr ⟨‹_›, hj⟩

@[simp] theorem next_update (h : Heap α) (i : Nat) (f : α → α) : (h.update i f).next = h.next := by
  simp [next, update]

@[simp] theorem next_alloc (h : Heap α) (a : α) : (h.alloc a).next = h.next + 1 := by
  simp [next, alloc]

theorem ext {h h' : Heap α} (heq : ∀ i, h.get i = h'.get i) : h = h' := by
  cases h
  cases h'
  congr
  exact List.ext_getElem? heq

theorem update_update (h : Heap α) (i : Nat) (f g : α → α) :
    (h.update i f).update i g = h.update i (g ∘ f) := by
  apply ext
  intro j
  simp only [get_update]
  split <;> simp

/-- An update that leaves the object as it is, or has no object, changes nothing. -/
theorem update_eq_self (hf : ∀ a, h.get i = some a → f a = a) : h.update i f = h := by
  apply ext
  intro j
  rw [get_update]
  split
  · rename_i hij
    subst hij
    cases hj : h.get j with
    | none => rfl
    | some a => rw [Option.map_some, hf a hj]
  · rfl

theorem update_congr (hfg : ∀ a, h.get i = some a → f a = g a) : h.update i f = h.update i g := by
  apply ext
  intro j
  rw [get_update, get_update]
  split
  · rename_i hij
    subst hij
    cases hj : h.get j with
    | none => rfl
    | some a => rw [Option.map_some, Option.map_some, hfg a hj]
  · rfl

/-- The same update on several objects. -/
def updateAll (h : Heap α) (is : List Nat) (f : α → α) : Heap α :=
  is.foldl (fun h i => h.update i f) h

@[simp] theorem updateAll_nil (h : Heap α) (f : α → α) : h.updateAll [] f = h := rfl

@[simp] theorem updateAll_cons (h : Heap α) (i : Nat) (is : List Nat) (f : α → α) :
    h.updateAll (i :: is) f = (h.update i f).updateAll is f := rfl

/-- An idempotent update may meet the same object more than once. -/
theorem get_updateAll (hf : ∀ a, f (f a) = f a) (is : List Nat) (h : Heap α) (j : Nat) :
    (h.updateAll is f).get j = if j ∈ is then (h.get j).map f else h.get j := by
  induction is generalizing h with
  | nil => simp
  | cons i is ih =>
    rw [updateAll_cons, ih, get_update]
    by_cases hij : j = i
    · subst hij
      cases h.get j <;> simp [hf]
    · simp [hij]

/-- Everything the objects hold, in the order of their addresses. -/
def gather (h : Heap α) (g : α → List β) : List β := h.cells.flatMap g

@[simp] theorem gather_empty (g : α → List β) : (empty : Heap α).gather g = [] := rfl

@[simp] theorem gather_alloc (h : Heap α) (a : α) (g : α → List β) :
    (h.alloc a).gather g = h.gather g ++ g a := by
  simp [gather, alloc]

theorem mem_gather {g : α → List β} {x : β} :
    x ∈ h.gather g ↔ ∃ i a, h.get i = some a ∧ x ∈ g a := by
  rw [gather, List.mem_flatMap]
  constructor
  · rintro ⟨a, ha, hx⟩
    obtain ⟨i, hi⟩ := List.mem_iff_getElem?.mp ha
    exact ⟨i, a, hi, hx⟩
  · rintro ⟨i, a, hi, hx⟩
    exact ⟨a, List.mem_of_getElem? hi, hx⟩

/-- Updating one object trades what it held for what it holds. -/
theorem count_gather_update [DecidableEq β] {g : α → List β} (hi : h.get i = some a)
    (f : α → α) (x : β) :
    ((h.update i f).gather g).count x + (g a).count x =
      (h.gather g).count x + (g (f a)).count x := by
  obtain ⟨hlt, rfl⟩ := List.getElem?_eq_some_iff.mp hi
  have hsplit : h.cells = h.cells.take i ++ h.cells[i] :: h.cells.drop (i + 1) := by simp
  have hset : (h.update i f).cells =
      h.cells.take i ++ f h.cells[i] :: h.cells.drop (i + 1) := by
    simp only [update, List.modify_eq_take_cons_drop hlt]
  have hold : (h.gather g).count x = ((h.cells.take i).flatMap g).count x +
      ((g h.cells[i]).count x + ((h.cells.drop (i + 1)).flatMap g).count x) := by
    rw [gather, congrArg (·.flatMap g) hsplit]
    simp only [List.flatMap_append, List.flatMap_cons, List.count_append]
  have hnew : ((h.update i f).gather g).count x = ((h.cells.take i).flatMap g).count x +
      ((g (f h.cells[i])).count x + ((h.cells.drop (i + 1)).flatMap g).count x) := by
    rw [gather, hset]
    simp only [List.flatMap_append, List.flatMap_cons, List.count_append]
  omega

/-- What the other objects hold does not matter when this one holds the same. -/
theorem gather_update_same {g : α → List β} (hf : ∀ a, g (f a) = g a) (i : Nat) (h : Heap α) :
    (h.update i f).gather g = h.gather g := by
  simp only [gather, update]
  generalize h.cells = cells
  induction cells generalizing i with
  | nil => simp
  | cons c cells ih =>
    cases i with
    | zero => simp [hf]
    | succ i => simp [ih]

end Heap

end Webchannel
