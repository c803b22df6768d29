import Mathlib.Algebra.BigOperators.Group.List.Basic
import Mathlib.Algebra.Order.BigOperators.Group.List
import Mathlib.Algebra.Ring.Int.Defs
import Mathlib.Data.Int.Order.Basic

/-!
# Weighted tallies over a table

A table is a list whose positions are identities. A tally adds up an integer
weight over the rows that satisfy a test; updating one row changes it by the
difference of that row's contributions.
-/

namespace Webchannel.Tally

variable {α : Type}

def tally (f : α → Int) (p : α → Bool) (rows : List α) : Int :=
  (rows.map fun x => if p x then f x else 0).sum

variable {f : α → Int} {p q : α → Bool} {rows : List α}

@[simp] theorem tally_nil : tally f p [] = 0 := rfl

@[simp] theorem tally_cons (x : α) :
    tally f p (x :: rows) = (if p x then f x else 0) + tally f p rows := by
  simp [tally]

@[simp] theorem tally_append (more : List α) :
    tally f p (rows ++ more) = tally f p rows + tally f p more := by
  simp [tally]

/-- Replacing one row trades its contribution for that of the new row. -/
theorem tally_set {i : Nat} {x y : α} (h : rows[i]? = some x) :
    tally f p (rows.set i y) =
      tally f p rows - (if p x then f x else 0) + (if p y then f y else 0) := by
  induction rows generalizing i with
  | nil => simp at h
  | cons z rows ih =>
    cases i with
    | zero =>
      obtain rfl : z = x := by simpa using h
      simp only [List.set_cons_zero, tally_cons]
      omega
    | succ i =>
      have := ih (i := i) (by simpa using h)
      simp only [List.set_cons_succ, tally_cons, this]
      omega

theorem tally_nonneg (hw : ∀ x, 0 ≤ f x) : 0 ≤ tally f p rows := by
  apply List.sum_nonneg
  simp only [List.mem_map]
  rintro _ ⟨x, -, rfl⟩
  split
  · exact hw x
  · exact Int.le_refl 0

/-- One row that satisfies the test contributes its whole weight. -/
theorem weight_le_tally (hw : ∀ x, 0 ≤ f x) {x : α} (hx : x ∈ rows) (hp : p x = true) :
    f x ≤ tally f p rows := by
  induction rows with
  | nil => simp at hx
  | cons y rows ih =>
    have hrest : 0 ≤ tally f p rows := tally_nonneg hw
    rcases List.mem_cons.mp hx with rfl | hx
    · simp only [tally_cons, hp, if_true]
      omega
    · have := ih hx
      have hy : 0 ≤ (if p y then f y else 0) := by split <;> simp [hw]
      simp only [tally_cons]
      omega

theorem tally_eq_zero (h : ∀ x ∈ rows, p x = false) : tally f p rows = 0 := by
  induction rows with
  | nil => rfl
  | cons x rows ih =>
    rw [tally_cons, h x (by simp), ih fun y hy => h y (by simp [hy])]
    simp

/-- A tally looks at a row only through what it weighs and tests. -/
theorem tally_eq_of_map_eq {β : Type} {g : α → β} {w : β → Int} {b : β → Bool} {more : List α}
    (h : more.map g = rows.map g) : tally (w ∘ g) (b ∘ g) more = tally (w ∘ g) (b ∘ g) rows := by
  have hfactor : (fun x => if (b ∘ g) x then (w ∘ g) x else 0) = (fun y => if b y then w y else 0) ∘ g := rfl
  rw [tally, tally, hfactor, ← List.map_map, ← List.map_map, h]

end Webchannel.Tally
