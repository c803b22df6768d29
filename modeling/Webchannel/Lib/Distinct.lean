import Mathlib.Data.List.Basic
import Mathlib.Data.List.Induction
import Mathlib.Data.List.Nodup
import Mathlib.Data.List.Perm.Subperm

/-!
# Distinct elements up to a bound

A list that takes an element when it is new and there is room: the first occurrences, cut at the bound. Adding such a list
again adds what its elements added.
-/

namespace Webchannel.Distinct

variable {α : Type} [DecidableEq α] {cap : Nat} {a : α} {acc l : List α}

def add (cap : Nat) (acc : List α) (a : α) : List α := if a ∈ acc ∨ cap ≤ acc.length then acc else acc ++ [a]

def addAll (cap : Nat) (acc l : List α) : List α := l.foldl (add cap) acc

theorem addAll_append (l' : List α) : addAll cap acc (l ++ l') = addAll cap (addAll cap acc l) l' := List.foldl_append

theorem subset_add : acc ⊆ add cap acc a := by
  unfold add
  split
  · exact List.Subset.refl acc
  · exact List.subset_append_left acc [a]

theorem length_le_add : acc.length ≤ (add cap acc a).length := by
  unfold add
  split
  · exact Nat.le_refl _
  · exact Nat.le_of_lt (by simp)

theorem subset_addAll : acc ⊆ addAll cap acc l := by
  induction l generalizing acc with
  | nil => exact List.Subset.refl acc
  | cons a l ih => exact List.Subset.trans subset_add ih

theorem length_le_addAll : acc.length ≤ (addAll cap acc l).length := by
  induction l generalizing acc with
  | nil => exact Nat.le_refl _
  | cons a l ih => exact Nat.le_trans length_le_add ih

theorem nodup_add (h : acc.Nodup) : (add cap acc a).Nodup := by
  unfold add
  split
  · exact h
  · rename_i hnot
    rw [← List.concat_eq_append]
    exact h.concat fun hmem => hnot (.inl hmem)

theorem nodup_addAll (h : acc.Nodup) : (addAll cap acc l).Nodup := by
  induction l generalizing acc with
  | nil => exact h
  | cons a l ih => exact ih (nodup_add h)

theorem length_add_le (h : acc.length ≤ cap) : (add cap acc a).length ≤ cap := by
  unfold add
  split
  · exact h
  · rw [List.length_append]
    simp only [List.length_singleton]
    omega

theorem length_addAll_le (h : acc.length ≤ cap) : (addAll cap acc l).length ≤ cap := by
  induction l generalizing acc with
  | nil => exact h
  | cons a l ih => exact ih (length_add_le h)

/-- An element is there afterwards, or there was no room. -/
theorem mem_or_full (h : a ∈ l) : a ∈ addAll cap acc l ∨ cap ≤ (addAll cap acc l).length := by
  induction l generalizing acc with
  | nil => cases h
  | cons b l ih =>
    obtain rfl | h := List.mem_cons.mp h
    · have hadd : a ∈ add cap acc a ∨ cap ≤ (add cap acc a).length := by
        unfold add
        split
        · assumption
        · exact .inl (List.mem_append_right acc (List.mem_singleton_self a))
      change a ∈ addAll cap (add cap acc a) l ∨ cap ≤ (addAll cap (add cap acc a) l).length
      exact hadd.imp (fun h => subset_addAll h) fun h => Nat.le_trans h length_le_addAll
    · exact ih h

theorem add_of_full (h : a ∈ acc ∨ cap ≤ acc.length) : add cap acc a = acc := if_pos h

/-- The second of two equal elements changes nothing. -/
theorem add_add : add cap (add cap acc a) a = add cap acc a := by
  refine add_of_full ?_
  exact mem_or_full (List.mem_singleton_self a)

omit [DecidableEq α] in
theorem full_of_subset {l' : List α} (hnodup : l.Nodup) (hfull : cap ≤ l.length)
    (hsub : ∀ a ∈ l, a ∈ l' ∨ cap ≤ l'.length) : cap ≤ l'.length := by
  by_contra hroom
  have hsubset : l ⊆ l' := fun a ha => (hsub a ha).resolve_right hroom
  exact hroom (Nat.le_trans hfull (hnodup.subperm hsubset).length_le)

/-- What a list comes to adds the same as the list. -/
theorem addAll_addAll : addAll cap acc (addAll cap [] l) = addAll cap acc l := by
  induction l using List.reverseRecOn with
  | nil => rfl
  | append_singleton l a ih =>
    rw [addAll_append, addAll_append, ← ih]
    change addAll cap acc (add cap (addAll cap [] l) a) = add cap (addAll cap acc (addAll cap [] l)) a
    unfold add
    split
    · rename_i hnot
      refine (if_pos ?_).symm
      obtain hmem | hfull := hnot
      · exact mem_or_full hmem
      · exact .inr (full_of_subset (nodup_addAll List.nodup_nil) hfull fun b hb => mem_or_full hb)
    · rw [addAll_append]
      rfl

theorem mem_of_mem_addAll (h : a ∈ addAll cap acc l) : a ∈ acc ∨ a ∈ l := by
  induction l generalizing acc with
  | nil => exact .inl h
  | cons b l ih =>
    obtain hmem | hmem := ih (show a ∈ addAll cap (add cap acc b) l from h)
    · unfold add at hmem
      split at hmem
      · exact .inl hmem
      · obtain hmem | hmem := List.mem_append.mp hmem
        · exact .inl hmem
        · exact .inr (List.mem_singleton.mp hmem ▸ List.mem_cons_self)
    · exact .inr (List.mem_cons_of_mem b hmem)

/-- The first occurrences, up to the bound. -/
theorem addAll_eq [BEq α] [LawfulBEq α] : addAll cap acc l = acc ++ ((l.filter (· ∉ acc)).eraseDups).take (cap - acc.length) := by
  induction l generalizing acc with
  | nil => simp [addAll]
  | cons a l ih =>
    change addAll cap (add cap acc a) l = _
    rw [ih]
    unfold add
    split
    · rename_i hnot
      obtain hmem | hfull := hnot
      · rw [List.filter_cons_of_neg (by simpa using hmem)]
      · rw [Nat.sub_eq_zero_of_le hfull, List.take_zero, List.take_zero]
    · rename_i hnot
      rw [not_or] at hnot
      rw [List.filter_cons_of_pos (by simpa using hnot.1), List.eraseDups_cons, List.filter_filter]
      have hroom : cap - acc.length = (cap - (acc ++ [a]).length) + 1 := by
        rw [List.length_append, List.length_singleton]
        omega
      rw [hroom, List.take_succ_cons, List.append_assoc]
      simp [and_comm, beq_eq_decide]

theorem addAll_nil [BEq α] [LawfulBEq α] : addAll cap [] l = l.eraseDups.take cap := by
  rw [addAll_eq]
  simp

end Webchannel.Distinct
