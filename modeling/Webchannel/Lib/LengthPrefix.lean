import Std.Data.String.ToNat
import Mathlib.Algebra.GroupWithZero.Nat
import Mathlib.Data.List.Basic

/-!
# Length-prefixed pairs of strings

A pair of strings is written as one string by putting the length of the first in front, so
that no choice of the two can be mistaken for another. Lengths count UTF-16 units.
-/

namespace Webchannel

/-- The number of UTF-16 units of a string. -/
def utf16Length (s : String) : Nat :=
  (s.toList.map fun c => if c.toNat < 0x10000 then 1 else 2).sum

def lengthPrefixed (first second : String) : String :=
  toString (utf16Length first) ++ ":" ++ first ++ second

theorem append_cons_inj {α : Type} {c : α} {p p' s s' : List α} (hp : c ∉ p) (hp' : c ∉ p')
    (h : p ++ c :: s = p' ++ c :: s') : p = p' ∧ s = s' := by
  induction p generalizing p' with
  | nil =>
    cases p' with
    | nil => simpa using h
    | cons d p' =>
      obtain ⟨rfl, -⟩ := List.cons.inj h
      simp at hp'
  | cons d p ih =>
    cases p' with
    | nil =>
      obtain ⟨rfl, -⟩ := List.cons.inj h
      simp at hp
    | cons d' p' =>
      obtain ⟨rfl, htail⟩ := List.cons.inj h
      obtain ⟨rfl, hs⟩ := ih (fun hc => hp (.tail _ hc)) (fun hc => hp' (.tail _ hc)) htail
      exact ⟨rfl, hs⟩

/-- Two ways to cut one list at the same positive measure are the same cut. -/
theorem append_inj_of_measure {α : Type} (m : α → Nat) (hm : ∀ a, 0 < m a)
    {p p' s s' : List α} (hlen : (p.map m).sum = (p'.map m).sum) (h : p ++ s = p' ++ s') :
    p = p' ∧ s = s' := by
  induction p generalizing p' with
  | nil =>
    cases p' with
    | nil => exact ⟨rfl, h⟩
    | cons a p' =>
      have := hm a
      simp only [List.map_nil, List.sum_nil, List.map_cons, List.sum_cons] at hlen
      omega
  | cons a p ih =>
    cases p' with
    | nil =>
      have := hm a
      simp only [List.map_nil, List.sum_nil, List.map_cons, List.sum_cons] at hlen
      omega
    | cons a' p' =>
      obtain ⟨rfl, htail⟩ := List.cons.inj h
      simp only [List.map_cons, List.sum_cons] at hlen
      obtain ⟨rfl, hs⟩ := ih (Nat.add_left_cancel hlen) htail
      exact ⟨rfl, hs⟩

theorem lengthPrefixed_toList (first second : String) : (lengthPrefixed first second).toList =
    Nat.toDigits 10 (utf16Length first) ++ ':' :: (first.toList ++ second.toList) := by
  have hcolon : (":" : String).toList = [':'] := rfl
  simp only [lengthPrefixed, String.toList_append, hcolon, List.append_assoc, List.singleton_append]
  exact congrArg (· ++ _) Nat.toList_repr

theorem colon_notMem_toDigits (n : Nat) : ':' ∉ Nat.toDigits 10 n := by
  intro h
  simpa using Nat.isDigit_of_mem_toDigits (by decide) (by decide) h

/-- The length separates the first string from the second. -/
theorem lengthPrefixed_inj {a a' k k' : String} (h : lengthPrefixed a k = lengthPrefixed a' k') :
    a = a' ∧ k = k' := by
  have hlist := congrArg String.toList h
  rw [lengthPrefixed_toList, lengthPrefixed_toList] at hlist
  obtain ⟨hdigits, hrest⟩ :=
    append_cons_inj (colon_notMem_toDigits _) (colon_notMem_toDigits _) hlist
  have hlen : utf16Length a = utf16Length a' := by
    rw [← Nat.ofDigitChars_ten_toDigits (n := utf16Length a), hdigits,
      Nat.ofDigitChars_ten_toDigits]
  have hpos (c : Char) : 0 < if c.toNat < 0x10000 then 1 else 2 := by split <;> omega
  obtain ⟨ha, hk⟩ := append_inj_of_measure _ hpos hlen hrest
  exact ⟨String.toList_injective ha, String.toList_injective hk⟩

end Webchannel
