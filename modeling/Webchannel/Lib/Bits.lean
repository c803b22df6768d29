import Mathlib.Data.List.Induction
import Mathlib.Tactic.Ring

/-!
# Bits

Numbers as lists of bits, the highest bit first, and a stream of bits cut into groups of five.
-/

namespace Webchannel.Bits

/-- The lowest `w` bits of a number. -/
def bits : Nat → Nat → List Bool
  | 0, _ => []
  | w + 1, n => bits w (n / 2) ++ [n % 2 == 1]

/-- The number that some bits spell. -/
def ofBits (l : List Bool) : Nat := l.foldl (fun n b => 2 * n + b.toNat) 0

@[simp] theorem ofBits_nil : ofBits [] = 0 := rfl

@[simp] theorem length_bits (w n : Nat) : (bits w n).length = w := by
  induction w generalizing n with
  | zero => rfl
  | succ w ih => simp [bits, ih]

theorem foldl_bits (l : List Bool) (start : Nat) :
    l.foldl (fun n b => 2 * n + b.toNat) start = start * 2 ^ l.length + ofBits l := by
  induction l generalizing start with
  | nil => simp
  | cons b l ih =>
    have hrest : ofBits (b :: l) = b.toNat * 2 ^ l.length + ofBits l := by
      rw [ofBits, List.foldl_cons, ih]
      simp
    rw [List.foldl_cons, ih, hrest, List.length_cons, pow_succ]
    ring

theorem ofBits_append (l m : List Bool) : ofBits (l ++ m) = ofBits l * 2 ^ m.length + ofBits m := by
  rw [ofBits, List.foldl_append, foldl_bits]
  rfl

theorem ofBits_lt (l : List Bool) : ofBits l < 2 ^ l.length := by
  induction l using List.reverseRecOn with
  | nil => simp
  | append_singleton l b ih =>
    have hb : ofBits [b] < 2 := by cases b <;> decide
    rw [ofBits_append, List.length_append, List.length_singleton, pow_succ]
    omega

/-- Bits spell the number whose lowest bits they are. -/
theorem ofBits_bits (w n : Nat) : ofBits (bits w n) = n % 2 ^ w := by
  induction w generalizing n with
  | zero => simp [bits, Nat.mod_one]
  | succ w ih =>
    have hlast : ofBits [n % 2 == 1] = n % 2 := by
      obtain h0 | h1 := Nat.mod_two_eq_zero_or_one n
      · simp [h0, ofBits]
      · simp [h1, ofBits]
    calc ofBits (bits w (n / 2) ++ [n % 2 == 1])
        = n / 2 % 2 ^ w * 2 + n % 2 := by
          rw [ofBits_append, ih, hlast]
          rfl
      _ = n % (2 * 2 ^ w) := by
          rw [Nat.mod_mul]
          omega
      _ = n % 2 ^ (w + 1) := by rw [pow_succ']

/-- The number that some bits spell has these bits. -/
theorem bits_ofBits (l : List Bool) : bits l.length (ofBits l) = l := by
  induction l using List.reverseRecOn with
  | nil => rfl
  | append_singleton l b ih =>
    have hb : ofBits [b] = b.toNat := by cases b <;> rfl
    have hlt : b.toNat < 2 := Bool.toNat_lt b
    have hhalf : (ofBits l * 2 + b.toNat) / 2 = ofBits l := by omega
    have hlast : ((ofBits l * 2 + b.toNat) % 2 == 1) = b := by cases b <;> simp
    rw [List.length_append, List.length_singleton, bits, ofBits_append, List.length_singleton, pow_one, hb, hhalf, hlast,
      ih]

/-- The bits in the middle of a number, when only its lowest `w` bits are kept. -/
theorem ofBits_middle (high byte low : List Bool) {w : Nat} (h : byte.length + low.length ≤ w) :
    ofBits (high ++ byte ++ low) % 2 ^ w / 2 ^ low.length % 2 ^ byte.length = ofBits byte := by
  have hsplit : 2 ^ w = 2 ^ low.length * 2 ^ (w - low.length) := by
    rw [← pow_add]
    congr 1
    omega
  have hdvd : 2 ^ byte.length ∣ 2 ^ (w - low.length) := pow_dvd_pow 2 (by omega)
  have hlow : (ofBits (high ++ byte) * 2 ^ low.length + ofBits low) / 2 ^ low.length = ofBits (high ++ byte) := by
    rw [mul_comm, Nat.mul_add_div (Nat.two_pow_pos _), Nat.div_eq_of_lt (ofBits_lt low), add_zero]
  calc ofBits (high ++ byte ++ low) % 2 ^ w / 2 ^ low.length % 2 ^ byte.length
      = ofBits (high ++ byte) % 2 ^ (w - low.length) % 2 ^ byte.length := by
        rw [hsplit, Nat.mod_mul_right_div_self, ofBits_append, hlow]
    _ = ofBits (high ++ byte) % 2 ^ byte.length := Nat.mod_mod_of_dvd _ hdvd
    _ = ofBits byte := by
        rw [ofBits_append, Nat.mul_comm, Nat.mul_add_mod, Nat.mod_eq_of_lt (ofBits_lt byte)]

/-- Groups of five bits; zero bits fill up the last one. -/
def quintets : List Bool → List (List Bool)
  | a :: b :: c :: d :: e :: rest => [a, b, c, d, e] :: quintets rest
  | [] => []
  | l => [l ++ List.replicate (5 - l.length) false]

theorem length_of_mem_quintets {l q : List Bool} (h : q ∈ quintets l) : q.length = 5 := by
  induction l using quintets.induct with
  | case1 a b c d e rest ih =>
    obtain rfl | hrest := List.mem_cons.mp h
    · rfl
    · exact ih hrest
  | case2 => cases h
  | case3 l hlong hne =>
    match l, hlong, hne, h with
    | [], _, hne, _ => exact absurd rfl hne
    | [a], _, _, h => simp_all [quintets]
    | [a, b], _, _, h => simp_all [quintets]
    | [a, b, c], _, _, h => simp_all [quintets]
    | [a, b, c, d], _, _, h => simp_all [quintets]
    | a :: b :: c :: d :: e :: rest, hlong, _, _ => exact absurd rfl (hlong a b c d e rest)

/-- The groups are the stream and fewer than five bits more. -/
theorem flatten_quintets (l : List Bool) : ∃ pad : List Bool, pad.length < 5 ∧ (quintets l).flatten = l ++ pad := by
  induction l using quintets.induct with
  | case1 a b c d e rest ih =>
    obtain ⟨pad, hpad, hrest⟩ := ih
    exact ⟨pad, hpad, by simp [quintets, hrest]⟩
  | case2 => exact ⟨[], by decide, rfl⟩
  | case3 l hlong hne =>
    refine ⟨List.replicate (5 - l.length) false, ?_, ?_⟩
    · have hpos : 0 < l.length := List.length_pos_iff.mpr hne
      simp only [List.length_replicate]
      omega
    · match l, hlong, hne with
      | [], _, hne => exact absurd rfl hne
      | [a], _, _ => rfl
      | [a, b], _, _ => rfl
      | [a, b, c], _, _ => rfl
      | [a, b, c, d], _, _ => rfl
      | a :: b :: c :: d :: e :: rest, hlong, _ => exact absurd rfl (hlong a b c d e rest)

end Webchannel.Bits
