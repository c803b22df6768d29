import Mathlib.Algebra.Group.Nat.Defs
import Mathlib.Data.Rat.Defs
import Webchannel.Lib.JsString

/-!
# JSON values

A value is what its text says: an object keeps its members in their order, and of two members
with one name the later one is what a program reads.
-/

namespace Webchannel

/-- A value with numbers of type `ν`. -/
inductive Json (ν : Type) where
  | null
  | bool (b : Bool)
  | num (n : ν)
  | str (s : JsString)
  | arr (l : List (Json ν))
  | obj (l : List (JsString × Json ν))

namespace Json

variable {ν : Type}

/-- The member of an object that a program reads; anything else has no member. -/
def member (v : Json ν) (name : String) : Option (Json ν) :=
  match v with
  | .obj l => (l.reverse.find? (·.1 = js name)).map Prod.snd
  | _ => none

/-- `typeof v.name === "string" ? v.name : ""` -/
def readString (v : Json ν) (name : String) : JsString :=
  match v.member name with
  | some (.str s) => s
  | _ => []

/-- `{ ...v, name: x }` -/
def setMember (v : Json ν) (name : String) (x : Json ν) : Json ν :=
  match v with
  | .obj l =>
    .obj (if l.any (·.1 = js name) then l.map fun e => if e.1 = js name then (e.1, x) else e else l ++ [(js name, x)])
  | v => v

theorem member_setMember_self {l : List (JsString × Json ν)} (name : String) (x : Json ν) :
    ((obj l).setMember name x).member name = some x := by
  unfold setMember member
  dsimp only
  split
  · rename_i hany
    obtain ⟨e, he, hname⟩ := List.any_eq_true.mp hany
    have hname := of_decide_eq_true hname
    have hmem : (js name, x) ∈ (l.map fun e => if e.1 = js name then (e.1, x) else e).reverse := by
      rw [List.mem_reverse, List.mem_map]
      exact ⟨e, he, by rw [if_pos hname, hname]⟩
    cases hfind : (l.map fun e => if e.1 = js name then (e.1, x) else e).reverse.find? (·.1 = js name) with
    | none => exact absurd (decide_eq_true rfl) (List.find?_eq_none.mp hfind _ hmem)
    | some e' =>
      have hfound := List.find?_some hfind
      have hkey : e'.1 = js name := of_decide_eq_true hfound
      obtain ⟨e₀, -, rfl⟩ := List.mem_map.mp (List.mem_reverse.mp (List.mem_of_find?_eq_some hfind))
      by_cases h₀ : e₀.1 = js name
      · rw [if_pos h₀]
        rfl
      · rw [if_neg h₀] at hkey
        exact absurd hkey h₀
  · rw [List.reverse_append, List.reverse_singleton, List.singleton_append,
      List.find?_cons_of_pos (by exact decide_eq_true rfl)]
    rfl

/-- The member under any string. -/
def lookup (v : Json ν) (key : JsString) : Option (Json ν) :=
  match v with
  | .obj l => (l.reverse.find? (·.1 = key)).map Prod.snd
  | _ => none

theorem member_eq_lookup (v : Json ν) (name : String) : v.member name = v.lookup (js name) := by
  cases v <;> rfl

theorem lookup_setMember_of_ne (v : Json ν) {name : String} {key : JsString} (h : key ≠ js name) (x : Json ν) :
    (v.setMember name x).lookup key = v.lookup key := by
  cases v with
  | obj l =>
    unfold setMember lookup
    dsimp only
    split
    · rw [← List.map_reverse]
      induction l.reverse with
      | nil => rfl
      | cons e l ih =>
        rw [List.map_cons]
        by_cases he : e.1 = js name
        · have hne : ¬ e.1 = key := fun heq => h (heq.symm.trans he)
          rw [if_pos he, List.find?_cons_of_neg (by simpa using hne), List.find?_cons_of_neg (by simpa using hne)]
          exact ih
        · rw [if_neg he]
          by_cases ho : e.1 = key
          · rw [List.find?_cons_of_pos (by simpa using ho), List.find?_cons_of_pos (by simpa using ho)]
          · rw [List.find?_cons_of_neg (by simpa using ho), List.find?_cons_of_neg (by simpa using ho)]
            exact ih
    · rw [List.reverse_append, List.reverse_singleton, List.singleton_append,
        List.find?_cons_of_neg (by simpa using fun heq => h heq.symm)]
  | _ => rfl

end Json

/-- What a JSON number is read as: one beyond the largest finite number is infinite. -/
inductive JsonNumber where
  | finite (q : Rat)
  | infinite (negative : Bool)
  deriving DecidableEq, Repr

/-- `Number.isSafeInteger` -/
def JsonNumber.isSafeInteger : JsonNumber → Bool
  | .finite q => q.den = 1 ∧ q.num.natAbs ≤ 2 ^ 53 - 1
  | .infinite _ => false

end Webchannel
