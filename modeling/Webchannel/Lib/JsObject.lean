import Webchannel.Lib.JsonText
import Webchannel.Lib.OrderedMap

/-!
# Objects

The properties of an object in the order in which a program meets them: array indices first, ascending, then
the other names as they were added. Of two members of a JSON object with one name the later one is kept, in
the place of the earlier.
-/

namespace Webchannel

variable {α ν : Type}

/-- The array index that a property name is, where it is one. -/
def arrayIndex (name : JsString) : Option Nat :=
  let n := Nat.ofDigits 10 (name.reverse.map fun u => u.toNat - 48)
  if n < 2 ^ 32 - 1 ∧ JsonText.formatNat n = name then some n else none

def propertyOrder (l : List (JsString × α)) : List (JsString × α) :=
  (l.filter fun e => (arrayIndex e.1).isSome).mergeSort (fun a b => (arrayIndex a.1).getD 0 ≤ (arrayIndex b.1).getD 0) ++
    l.filter fun e => (arrayIndex e.1).isNone

theorem propertyOrder_perm (l : List (JsString × α)) : (propertyOrder l).Perm l := by
  have hsort := List.mergeSort_perm (l.filter fun e => (arrayIndex e.1).isSome)
    fun a b => decide ((arrayIndex a.1).getD 0 ≤ (arrayIndex b.1).getD 0)
  have hsplit := List.filter_append_perm (fun e : JsString × α => (arrayIndex e.1).isSome) l
  unfold propertyOrder
  refine (hsort.append_right _).trans ?_
  simpa using hsplit

namespace OrderedMap

variable {κ : Type} [DecidableEq κ]

def ofList (l : List (κ × α)) : OrderedMap κ α := l.foldl (fun m e => m.set e.1 e.2) empty

theorem get_foldl_set (l : List (κ × α)) (m : OrderedMap κ α) (k : κ) :
    (l.foldl (fun m e => m.set e.1 e.2) m).get k = ((l.reverse.find? (·.1 = k)).map Prod.snd).or (m.get k) := by
  induction l generalizing m with
  | nil => rfl
  | cons e l ih =>
    rw [List.foldl_cons, ih, List.reverse_cons, List.find?_append, get_set_eq]
    cases hfind : l.reverse.find? (·.1 = k) with
    | some e' => rfl
    | none =>
      by_cases hk : k = e.1
      · rw [if_pos hk, List.find?_cons_of_pos (by simpa using hk.symm)]
        rfl
      · rw [if_neg hk, List.find?_cons_of_neg (by simpa using Ne.symm hk)]
        rfl

theorem get_ofList (l : List (κ × α)) (k : κ) : (ofList l).get k = (l.reverse.find? (·.1 = k)).map Prod.snd := by
  unfold ofList
  rw [get_foldl_set, get_empty, Option.or_none]

end OrderedMap

/-- `Object.entries` -/
def objectEntries (l : List (JsString × Json ν)) : List (JsString × Json ν) := propertyOrder (OrderedMap.ofList l).entries

theorem objectEntries_nodup (l : List (JsString × Json ν)) : ((objectEntries l).map Prod.fst).Nodup :=
  ((propertyOrder_perm _).map Prod.fst).nodup_iff.mpr (OrderedMap.ofList l).nodup

/-- An object has an entry for every member that is read of it. -/
theorem mem_objectEntries {l : List (JsString × Json ν)} {k : JsString} {v : Json ν} :
    (k, v) ∈ objectEntries l ↔ (Json.obj l).lookup k = some v := by
  unfold objectEntries
  rw [(propertyOrder_perm _).mem_iff, OrderedMap.mem_entries, OrderedMap.get_ofList]
  rfl

/-- Members with pairwise distinct names are all read. -/
theorem lookup_of_nodup {l : List (JsString × Json ν)} (h : (l.map Prod.fst).Nodup) {k : JsString} {v : Json ν} :
    (Json.obj l).lookup k = some v ↔ (k, v) ∈ l := by
  have hnodup : ((l.reverse).map Prod.fst).Nodup := by
    rw [List.map_reverse]
    exact List.nodup_reverse.mpr h
  have hget := @OrderedMap.mem_entries _ _ _ ⟨l.reverse, hnodup⟩ k v
  rw [List.mem_reverse] at hget
  rw [hget]
  unfold Json.lookup OrderedMap.get
  exact Iff.of_eq (by congr)

end Webchannel
