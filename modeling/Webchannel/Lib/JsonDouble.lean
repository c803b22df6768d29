import Mathlib.Data.Int.Log
import Mathlib.Data.Nat.Digits.Lemmas
import Mathlib.Data.Rat.Floor
import Mathlib.Tactic.NormNum
import Mathlib.Tactic.Positivity
import Mathlib.Tactic.Ring
import Webchannel.Lib.JsonIndent

/-!
# JSON numbers as binary64

A literal of the JSON grammar and the double nearest to it. Where the language writes the shortest text that is
read back as a double, this writes an exact one; on integers below 10^21 the two agree.
-/

namespace Webchannel

/-! ## Rounding -/

/-- The nearest integer, of two the even one. -/
def roundEven (q : Rat) : Int :=
  if q - ⌊q⌋ < 1 / 2 ∨ q - ⌊q⌋ = 1 / 2 ∧ ⌊q⌋ % 2 = 0 then ⌊q⌋ else ⌊q⌋ + 1

/-- The exponent of the last bit of a double of this size. -/
def lastBit (q : Rat) : Int := max (Int.log 2 |q|) (-1022) - 52

def roundDouble (q : Rat) : Rat := roundEven (q / 2 ^ lastBit q) * 2 ^ lastBit q

theorem roundEven_intCast (n : Int) : roundEven n = n := by
  unfold roundEven
  rw [Int.floor_intCast, sub_self, if_pos (.inl (by norm_num))]

theorem log_dyadic_lt {m k : Int} (hm : m.natAbs < 2 ^ 53) (hzero : m ≠ 0) : Int.log 2 |(m : Rat) * 2 ^ k| < 53 + k := by
  have htwo : (0 : Rat) < 2 ^ k := zpow_pos (by norm_num) k
  have hpos : 0 < |(m : Rat) * 2 ^ k| := abs_pos.mpr (mul_ne_zero (Int.cast_ne_zero.mpr hzero) htwo.ne')
  have hcast : |(m : Rat)| < 2 ^ 53 := by
    rw [← Int.cast_abs, Int.abs_eq_natAbs]
    exact_mod_cast hm
  have hlt : |(m : Rat) * 2 ^ k| < ((2 : Nat) : Rat) ^ (53 + k) := by
    rw [abs_mul, abs_of_pos htwo, Nat.cast_ofNat, zpow_add₀ (by norm_num)]
    exact mul_lt_mul_of_pos_right (by exact_mod_cast hcast) htwo
  exact (Int.lt_zpow_iff_log_lt (by decide) hpos).mp hlt

/-- A number with at most 53 significant bits, none of them too small, is a double. -/
theorem roundDouble_dyadic {m k : Int} (hm : m.natAbs < 2 ^ 53) (hk : -1074 ≤ k) :
    roundDouble (m * 2 ^ k) = m * 2 ^ k := by
  have htwo : (2 : Rat) ≠ 0 := by norm_num
  by_cases hzero : m = 0
  · have hround := roundEven_intCast 0
    rw [Int.cast_zero] at hround
    unfold roundDouble
    rw [hzero, Int.cast_zero, zero_mul, zero_div, hround, Int.cast_zero, zero_mul]
  have hlast : lastBit (m * 2 ^ k) ≤ k := by
    have hlog := log_dyadic_lt (k := k) hm hzero
    unfold lastBit
    omega
  have hsplit : (m : Rat) * 2 ^ k / 2 ^ lastBit (m * 2 ^ k) = ((m * 2 ^ (k - lastBit (m * 2 ^ k)).toNat : Int) : Rat) := by
    push_cast
    rw [mul_div_assoc, ← zpow_sub₀ htwo, ← zpow_natCast, Int.toNat_of_nonneg (by omega)]
  unfold roundDouble
  rw [hsplit, roundEven_intCast, ← hsplit, div_mul_cancel₀ _ (zpow_ne_zero _ htwo)]

theorem natAbs_roundEven_le {q : Rat} {n : Nat} (h : |q| < n) : (roundEven q).natAbs ≤ n := by
  obtain ⟨hlow, hhigh⟩ := abs_lt.mp h
  have hfloor : -(n : Int) ≤ ⌊q⌋ := Int.le_floor.mpr (by push_cast; exact hlow.le)
  have hceil : ⌊q⌋ < (n : Int) := Int.floor_lt.mpr (by exact_mod_cast hhigh)
  unfold roundEven
  split <;> omega

/-- What is rounded has at most 53 significant bits, none of them too small. -/
theorem roundDouble_eq (q : Rat) : ∃ m k : Int, m.natAbs < 2 ^ 53 ∧ -1074 ≤ k ∧ roundDouble q = m * 2 ^ k := by
  have htwo : (2 : Rat) ≠ 0 := by norm_num
  have hpos : (0 : Rat) < 2 ^ lastBit q := zpow_pos (by norm_num) _
  have hbit : -1074 ≤ lastBit q := by
    unfold lastBit
    omega
  have hsize : |q| < 2 ^ (lastBit q + 53) := by
    have hlog : |q| < ((2 : Nat) : Rat) ^ (Int.log 2 |q| + 1) := Int.lt_zpow_succ_log_self (by decide) |q|
    refine lt_of_lt_of_le hlog ?_
    rw [Nat.cast_ofNat]
    refine zpow_le_zpow_right₀ (by norm_num) ?_
    unfold lastBit
    omega
  have hscaled : |q / 2 ^ lastBit q| < ((2 ^ 53 : Nat) : Rat) := by
    rw [abs_div, abs_of_pos hpos, div_lt_iff₀ hpos, Nat.cast_pow, Nat.cast_ofNat, ← zpow_natCast, ← zpow_add₀ htwo]
    rw [add_comm]
    exact hsize
  have hle := natAbs_roundEven_le hscaled
  unfold roundDouble
  by_cases hlt : (roundEven (q / 2 ^ lastBit q)).natAbs < 2 ^ 53
  · exact ⟨_, _, hlt, hbit, rfl⟩
  -- rounded up to the next power of two
  · have heven : roundEven (q / 2 ^ lastBit q) = (roundEven (q / 2 ^ lastBit q) / 2) * 2 := by omega
    refine ⟨roundEven (q / 2 ^ lastBit q) / 2, lastBit q + 1, by omega, by omega, ?_⟩
    rw [zpow_add_one₀ htwo]
    calc ((roundEven (q / 2 ^ lastBit q) : Int) : Rat) * 2 ^ lastBit q
        = ((roundEven (q / 2 ^ lastBit q) / 2 * 2 : Int) : Rat) * 2 ^ lastBit q := by rw [← heven]
      _ = ((roundEven (q / 2 ^ lastBit q) / 2 : Int) : Rat) * (2 ^ lastBit q * 2) := by push_cast; ring

/-! ### Order -/

theorem roundEven_mono {p q : Rat} (h : p ≤ q) : roundEven p ≤ roundEven q := by
  have hfloor : ⌊p⌋ ≤ ⌊q⌋ := Int.floor_mono h
  obtain hlt | heq := hfloor.lt_or_eq
  · calc roundEven p ≤ ⌊p⌋ + 1 := by unfold roundEven; split <;> omega
      _ ≤ ⌊q⌋ := hlt
      _ ≤ roundEven q := by unfold roundEven; split <;> omega
  -- Between the same two integers.
  · unfold roundEven
    rw [heq]
    by_cases hq : q - ⌊q⌋ < 1 / 2 ∨ q - ⌊q⌋ = 1 / 2 ∧ ⌊q⌋ % 2 = 0
    · rw [if_pos hq, if_pos]
      obtain hq | ⟨hq, heven⟩ := hq
      · exact .inl (by linarith)
      · obtain hp | hp := (show p - ⌊q⌋ ≤ 1 / 2 by linarith).lt_or_eq
        · exact .inl hp
        · exact .inr ⟨hp, heven⟩
    · rw [if_neg hq]
      split <;> omega

theorem roundDouble_nonneg {q : Rat} (h : 0 ≤ q) : 0 ≤ roundDouble q := by
  have hpos : (0 : Rat) < 2 ^ lastBit q := zpow_pos (by norm_num) _
  have hround := roundEven_mono (div_nonneg h hpos.le)
  rw [show (0 : Rat) = ((0 : Int) : Rat) from rfl, roundEven_intCast] at hround
  exact mul_nonneg (by exact_mod_cast hround) hpos.le

theorem roundDouble_nonpos {q : Rat} (h : q ≤ 0) : roundDouble q ≤ 0 := by
  have hpos : (0 : Rat) < 2 ^ lastBit q := zpow_pos (by norm_num) _
  have hround := roundEven_mono (div_nonpos_of_nonpos_of_nonneg h hpos.le)
  rw [show (0 : Rat) = ((0 : Int) : Rat) from rfl, roundEven_intCast] at hround
  exact mul_nonpos_of_nonpos_of_nonneg (by exact_mod_cast hround) hpos.le

theorem zpow_div_lastBit {q : Rat} {k : Int} (hk : lastBit q ≤ k) :
    (2 : Rat) ^ k / 2 ^ lastBit q = ((2 ^ (k - lastBit q).toNat : Int) : Rat) := by
  rw [← zpow_sub₀ (by norm_num), Int.cast_pow, Int.cast_ofNat, ← zpow_natCast, Int.toNat_of_nonneg (by omega)]

/-- A power of two between two numbers is between what they are rounded to. -/
theorem roundDouble_le_zpow {p : Rat} {k : Int} (hk : lastBit p ≤ k) (h : p ≤ 2 ^ k) : roundDouble p ≤ 2 ^ k := by
  have hpos : (0 : Rat) < 2 ^ lastBit p := zpow_pos (by norm_num) _
  have hint := zpow_div_lastBit hk
  have hround := roundEven_mono ((div_le_div_iff_of_pos_right hpos).mpr h)
  rw [hint, roundEven_intCast] at hround
  calc roundDouble p ≤ ((2 ^ (k - lastBit p).toNat : Int) : Rat) * 2 ^ lastBit p :=
        mul_le_mul_of_nonneg_right (by exact_mod_cast hround) hpos.le
    _ = 2 ^ k := by rw [← hint, div_mul_cancel₀ _ hpos.ne']

theorem zpow_le_roundDouble {q : Rat} {k : Int} (hk : lastBit q ≤ k) (h : 2 ^ k ≤ q) : 2 ^ k ≤ roundDouble q := by
  have hpos : (0 : Rat) < 2 ^ lastBit q := zpow_pos (by norm_num) _
  have hint := zpow_div_lastBit hk
  have hround := roundEven_mono ((div_le_div_iff_of_pos_right hpos).mpr h)
  rw [hint, roundEven_intCast] at hround
  calc (2 : Rat) ^ k = ((2 ^ (k - lastBit q).toNat : Int) : Rat) * 2 ^ lastBit q := by rw [← hint, div_mul_cancel₀ _ hpos.ne']
    _ ≤ roundDouble q := mul_le_mul_of_nonneg_right (by exact_mod_cast hround) hpos.le

/-- Rounding keeps the order. -/
theorem roundDouble_mono {p q : Rat} (hp : 0 ≤ p) (h : p ≤ q) : roundDouble p ≤ roundDouble q := by
  obtain rfl | hpos := hp.eq_or_lt
  · exact (roundDouble_nonpos le_rfl).trans (roundDouble_nonneg h)
  have hlog : Int.log 2 |p| ≤ Int.log 2 |q| := by
    rw [abs_of_pos hpos, abs_of_pos (hpos.trans_le h)]
    exact Int.log_mono_right hpos h
  by_cases hbits : lastBit p = lastBit q
  · unfold roundDouble
    rw [hbits]
    have htwo : (0 : Rat) < 2 ^ lastBit q := zpow_pos (by norm_num) _
    have hround := roundEven_mono ((div_le_div_iff_of_pos_right htwo).mpr h)
    exact mul_le_mul_of_nonneg_right (by exact_mod_cast hround) htwo.le
  -- A power of two lies between the two.
  · have hless : Int.log 2 |p| < Int.log 2 |q| := by
      refine lt_of_le_of_ne hlog fun heq => hbits ?_
      unfold lastBit
      rw [heq]
    have hbelow : p ≤ 2 ^ Int.log 2 |q| := by
      have hlt := Int.lt_zpow_succ_log_self (b := 2) (by decide) |p|
      rw [abs_of_pos hpos, Nat.cast_ofNat] at hlt
      rw [abs_of_pos hpos] at hless
      exact hlt.le.trans (zpow_le_zpow_right₀ (by norm_num) hless)
    have habove : (2 : Rat) ^ Int.log 2 |q| ≤ q := by
      have hle := Int.zpow_log_le_self (b := 2) (by decide) (abs_pos.mpr (hpos.trans_le h).ne')
      rw [Nat.cast_ofNat] at hle
      exact hle.trans (abs_of_pos (hpos.trans_le h)).le
    have hbits' : lastBit p ≤ Int.log 2 |q| ∧ lastBit q ≤ Int.log 2 |q| := by
      unfold lastBit at *
      omega
    exact (roundDouble_le_zpow hbits'.1 hbelow).trans (zpow_le_roundDouble hbits'.2 habove)

/-! ## Doubles -/

/-- What JSON text can be read as: a finite double, or an infinity. -/
def JsonNumber.IsDouble : JsonNumber → Prop
  | .finite q => (∃ m k : Int, m.natAbs < 2 ^ 53 ∧ -1074 ≤ k ∧ q = m * 2 ^ k) ∧ |q| < 2 ^ 1024
  | .infinite _ => True

abbrev Double := { n : JsonNumber // n.IsDouble }

/-- The double nearest to a number. -/
def toDouble (q : Rat) : Double :=
  if h : |roundDouble q| < 2 ^ 1024 then ⟨.finite (roundDouble q), roundDouble_eq q, h⟩ else ⟨.infinite (q < 0), trivial⟩

/-- A double is nearest to itself. -/
theorem toDouble_self {q : Rat} (h : (JsonNumber.finite q).IsDouble) : toDouble q = ⟨.finite q, h⟩ := by
  obtain ⟨⟨m, k, hm, hk, rfl⟩, hsize⟩ := h
  have hround := roundDouble_dyadic hm hk
  unfold toDouble
  rw [dif_pos (by rw [hround]; exact hsize)]
  exact Subtype.ext (congrArg JsonNumber.finite hround)

theorem isDouble_intCast {n : Int} (hn : n.natAbs ≤ 2 ^ 53 - 1) : (JsonNumber.finite n).IsDouble := by
  refine ⟨⟨n, 0, by omega, by decide, by rw [zpow_zero, mul_one]⟩, ?_⟩
  rw [← Int.cast_abs, Int.abs_eq_natAbs]
  calc (((n.natAbs : Int)) : Rat) < 2 ^ 53 := by exact_mod_cast Nat.lt_of_le_of_lt hn (by decide)
    _ ≤ 2 ^ 1024 := pow_le_pow_right₀ (by norm_num) (by decide)

theorem toDouble_infinite {n : Nat} (hn : 1024 ≤ n) (negative : Bool) :
    toDouble (((if negative then -1 else 1) * 2 ^ n : Int) : Rat) = ⟨.infinite negative, trivial⟩ := by
  have hpos : (0 : Rat) < 2 ^ n := pow_pos (by norm_num) n
  have hcast : (((if negative then -1 else 1) * 2 ^ n : Int) : Rat) = ((if negative then -1 else 1 : Int) : Rat) * 2 ^ (n : Int) := by
    rw [Int.cast_mul, Int.cast_pow, Int.cast_ofNat, zpow_natCast]
  have hround := roundDouble_dyadic (m := if negative then -1 else 1) (k := n) (by cases negative <;> decide) (by omega)
  have habs : |((if negative then -1 else 1 : Int) : Rat) * 2 ^ (n : Int)| = 2 ^ n := by
    rw [zpow_natCast, abs_mul, abs_of_pos hpos]
    cases negative <;> simp
  have hlarge : ¬ |roundDouble (((if negative then -1 else 1 : Int) : Rat) * 2 ^ (n : Int))| < 2 ^ 1024 := by
    rw [hround, habs, not_lt]
    exact pow_le_pow_right₀ (by norm_num) hn
  rw [hcast]
  unfold toDouble
  rw [dif_neg hlarge, zpow_natCast]
  refine Subtype.ext (congrArg JsonNumber.infinite ?_)
  cases negative with
  | true => exact decide_eq_true (by simp)
  | false => exact decide_eq_false (by simp)

/-- `a + b`; `none` where it is no number. -/
def Double.add (a b : Double) : Option Double :=
  match a.1, b.1 with
  | .finite p, .finite q => some (toDouble (p + q))
  | .finite _, .infinite _ => some b
  | .infinite _, .finite _ => some a
  | .infinite m, .infinite n => if m = n then some a else none

theorem toDouble_intCast {n : Int} (hn : n.natAbs ≤ 2 ^ 53 - 1) : (toDouble n).1 = .finite n := by
  rw [toDouble_self (isDouble_intCast hn)]

/-- Safe integers are added exactly. -/
theorem Double.add_intCast {m n : Int} (hm : m.natAbs ≤ 2 ^ 53 - 1) (hn : n.natAbs ≤ 2 ^ 53 - 1) :
    (toDouble m).add (toDouble n) = some (toDouble ((m + n : Int) : Rat)) := by
  unfold Double.add
  rw [toDouble_intCast hm, toDouble_intCast hn]
  dsimp only
  rw [Int.cast_add]

/-- `Number.isFinite` -/
def Double.isFinite (a : Double) : Bool :=
  match a.1 with
  | .finite _ => true
  | .infinite _ => false

/-- `n >= a`, of an integer `n`. -/
def Double.le (a : Double) (n : Int) : Bool :=
  match a.1 with
  | .finite q => q ≤ n
  | .infinite negative => negative

namespace JsonText

/-! ## Literals -/

/-- A number of the JSON grammar, with the digits before and behind its point in one. -/
structure NumberLiteral where
  negative : Bool
  digits : JsString
  exponent : Int

def digitsValue (s : JsString) : Nat := Nat.ofDigits 10 (s.reverse.map fun u => u.toNat - 48)

def NumberLiteral.value (literal : NumberLiteral) : Rat :=
  (if literal.negative then -1 else 1) * digitsValue literal.digits * 10 ^ literal.exponent

/-- One unit at the front, where it stands there. -/
def dropUnit (c : UInt16) : JsString → Bool × JsString
  | [] => (false, [])
  | u :: s => if u = c then (true, s) else (false, u :: s)

def readDigits (s : JsString) : Option (JsString × JsString) :=
  match s.takeWhile isDigit with
  | [] => none
  | ds => some (ds, s.dropWhile isDigit)

/-- No digit stands behind a leading zero. -/
def readInteger (s : JsString) : Option (JsString × JsString) :=
  if (dropUnit 48 s).1 then some ([48], (dropUnit 48 s).2) else readDigits s

def readFraction (s : JsString) : Option (JsString × JsString) :=
  if (dropUnit 46 s).1 then readDigits (dropUnit 46 s).2 else some ([], s)

def readSignedDigits (s : JsString) : Option (Int × JsString) :=
  if (dropUnit 45 s).1 then (readDigits (dropUnit 45 s).2).map fun r => (-(digitsValue r.1 : Int), r.2)
  else (readDigits (dropUnit 43 s).2).map fun r => ((digitsValue r.1 : Int), r.2)

def readExponent (s : JsString) : Option (Int × JsString) :=
  if (dropUnit 101 s).1 then readSignedDigits (dropUnit 101 s).2
  else if (dropUnit 69 s).1 then readSignedDigits (dropUnit 69 s).2
  else some (0, s)

def readLiteral (s : JsString) : Option (NumberLiteral × JsString) := do
  let sign := dropUnit 45 s
  let integer ← readInteger sign.2
  let fraction ← readFraction integer.2
  let exponent ← readExponent fraction.2
  return ({ negative := sign.1, digits := integer.1 ++ fraction.1, exponent := exponent.1 - fraction.1.length }, exponent.2)

/-! ## Numbers -/

def formatInt (n : Int) : JsString := if n < 0 then 45 :: formatNat n.natAbs else formatNat n.natAbs

/-- No double has more digits behind its point than the smallest. -/
def formatDouble : JsonNumber → JsString
  | .finite q => if q.den = 1 then formatInt q.num else formatInt (q * 10 ^ 1074).num ++ 101 :: 45 :: formatNat 1074
  | .infinite negative => formatInt ((if negative then -1 else 1) * 2 ^ 1024)

def readDouble (s : JsString) : Option (Double × JsString) := (readLiteral s).map fun r => (toDouble r.1.value, r.2)

/-! ## A number is read back -/

theorem dropUnit_of_ne {c u : UInt16} (h : u ≠ c) (s : JsString) : dropUnit c (u :: s) = (false, u :: s) := if_neg h

theorem dropUnit_self (c : UInt16) (s : JsString) : dropUnit c (c :: s) = (true, s) := if_pos rfl

/-- What may follow a number: none of its units. -/
def Ends : JsString → Prop
  | [] => True
  | c :: _ => isDigit c = false ∧ c ≠ 46 ∧ c ≠ 101 ∧ c ≠ 69

theorem Follows.ends {s : JsString} (h : Follows s) : Ends s := by
  cases s with
  | nil => trivial
  | cons c s =>
    obtain rfl | rfl | rfl | rfl := h
    · exact ⟨by decide, by decide, by decide, by decide⟩
    · exact ⟨by decide, by decide, by decide, by decide⟩
    · exact ⟨by decide, by decide, by decide, by decide⟩
    · exact ⟨by decide, by decide, by decide, by decide⟩

theorem Delimited.follows {s : JsString} (h : Delimited s) : Follows s := by
  cases s with
  | nil => trivial
  | cons c s =>
    obtain h | h | h := h
    · exact .inl h
    · exact .inr (.inl h)
    · exact .inr (.inr (.inl h))

def BeginsNoDigit : JsString → Prop
  | [] => True
  | c :: _ => isDigit c = false

theorem Ends.beginsNoDigit {s : JsString} (h : Ends s) : BeginsNoDigit s := by
  cases s with
  | nil => trivial
  | cons c s => exact h.1

theorem readDigits_append {ds rest : JsString} (hne : ds ≠ []) (hds : ∀ u ∈ ds, isDigit u = true)
    (hrest : BeginsNoDigit rest) : readDigits (ds ++ rest) = some (ds, rest) := by
  have hstop : rest.takeWhile isDigit = [] ∧ rest.dropWhile isDigit = rest := by
    cases rest with
    | nil => exact ⟨rfl, rfl⟩
    | cons c rest =>
      have hc : ¬ isDigit c = true := by
        rw [show isDigit c = false from hrest]
        exact Bool.false_ne_true
      exact ⟨List.takeWhile_cons_of_neg hc, List.dropWhile_cons_of_neg hc⟩
  unfold readDigits
  rw [List.takeWhile_append_of_pos hds, List.dropWhile_append_of_pos hds, hstop.1, hstop.2, List.append_nil]
  cases ds with
  | nil => exact absurd rfl hne
  | cons u ds => rfl

theorem readFraction_ends {s : JsString} (h : Ends s) : readFraction s = some ([], s) := by
  unfold readFraction
  cases s with
  | nil => rfl
  | cons c s => rw [dropUnit_of_ne h.2.1, if_neg Bool.false_ne_true]

theorem readExponent_ends {s : JsString} (h : Ends s) : readExponent s = some (0, s) := by
  unfold readExponent
  cases s with
  | nil => rfl
  | cons c s =>
    rw [dropUnit_of_ne h.2.2.1, dropUnit_of_ne h.2.2.2, if_neg Bool.false_ne_true, if_neg Bool.false_ne_true]

/-- Only zero is written with a leading zero. -/
theorem formatNat_cons (n : Nat) : ∃ c ds, formatNat n = c :: ds ∧ isDigit c = true ∧ (c = 48 → ds = []) := by
  obtain ⟨c, ds, h⟩ := List.exists_cons_of_ne_nil (formatNat_ne_nil n)
  refine ⟨c, ds, h, isDigit_formatNat (n := n) (h ▸ List.mem_cons_self), fun hc => ?_⟩
  by_cases hn : n = 0
  · rw [hn] at h
    exact (List.cons.inj h).2.symm
  · exfalso
    have hlast := Nat.getLast_digit_ne_zero 10 hn
    have hnil : Nat.digits 10 n ≠ [] := Nat.digits_ne_nil_iff_ne_zero.mpr hn
    unfold formatNat at h
    rw [if_neg hn] at h
    have hhead : digitUnit ((Nat.digits 10 n).getLast hnil) = c := by
      have hget := congrArg List.head? h
      rw [List.head?_map, List.head?_reverse, List.getLast?_eq_some_getLast hnil] at hget
      exact Option.some.inj hget
    have hlt : (Nat.digits 10 n).getLast hnil < 10 := Nat.digits_lt_base (by decide) (List.getLast_mem hnil)
    have hvalue := (isDigit_digitUnit _ hlt).2
    rw [hhead, hc] at hvalue
    exact hlast hvalue.symm

theorem readInteger_formatNat (n : Nat) {rest : JsString} (h : BeginsNoDigit rest) :
    readInteger (formatNat n ++ rest) = some (formatNat n, rest) := by
  obtain ⟨c, ds, hformat, -, hzero⟩ := formatNat_cons n
  unfold readInteger
  by_cases hc : c = 48
  · rw [hformat, hzero hc, hc, List.cons_append, dropUnit_self, if_pos rfl]
    rfl
  · have hread := readDigits_append (formatNat_ne_nil n) (fun u hu => isDigit_formatNat (n := n) hu) h
    rw [hformat, List.cons_append] at hread ⊢
    rw [dropUnit_of_ne hc, if_neg Bool.false_ne_true, hread]

theorem dropUnit_formatInt (n : Int) (rest : JsString) :
    dropUnit 45 (formatInt n ++ rest) = (decide (n < 0), formatNat n.natAbs ++ rest) := by
  by_cases hn : n < 0
  · rw [formatInt, if_pos hn, List.cons_append, dropUnit_self, decide_eq_true hn]
  · obtain ⟨c, ds, hformat, hdigit, -⟩ := formatNat_cons n.natAbs
    have hc : c ≠ 45 := by
      rintro rfl
      exact absurd hdigit (by decide)
    rw [formatInt, if_neg hn, hformat, List.cons_append, dropUnit_of_ne hc, decide_eq_false hn]

/-- An integer with an exponent behind it, where one stands there. -/
theorem readLiteral_formatInt (n : Int) {tail rest : JsString} {exponent : Int} (hdigit : BeginsNoDigit tail)
    (hfraction : readFraction tail = some ([], tail)) (hexponent : readExponent tail = some (exponent, rest)) :
    readLiteral (formatInt n ++ tail) =
      some ({ negative := decide (n < 0), digits := formatNat n.natAbs, exponent }, rest) := by
  unfold readLiteral
  rw [dropUnit_formatInt]
  dsimp only [bind, pure]
  rw [readInteger_formatNat _ hdigit, Option.bind_some, hfraction, Option.bind_some, hexponent, Option.bind_some,
    List.append_nil]
  dsimp only
  rw [List.length_nil, Nat.cast_zero, sub_zero]

theorem value_formatInt (n exponent : Int) :
    (NumberLiteral.mk (decide (n < 0)) (formatNat n.natAbs) exponent).value = n * 10 ^ exponent := by
  unfold NumberLiteral.value digitsValue
  dsimp only
  rw [ofDigits_formatNat, ← Int.cast_natCast]
  by_cases hn : n < 0
  · rw [decide_eq_true hn, if_pos rfl, Int.ofNat_natAbs_of_nonpos hn.le, Int.cast_neg, neg_one_mul, neg_neg]
  · rw [decide_eq_false hn, if_neg Bool.false_ne_true, one_mul, Int.natAbs_of_nonneg (Int.not_lt.mp hn)]

theorem readDouble_formatInt (n : Int) {rest : JsString} (h : Ends rest) :
    readDouble (formatInt n ++ rest) = some (toDouble n, rest) := by
  unfold readDouble
  rw [readLiteral_formatInt n h.beginsNoDigit (readFraction_ends h) (readExponent_ends h), Option.map_some, value_formatInt,
    zpow_zero, mul_one]

/-- A double is an integer once its point is moved far enough. -/
theorem scaled_num {q : Rat} {m k : Int} {n : Nat} (hk : -(n : Int) ≤ k) (hq : q = m * 2 ^ k) :
    (((q * 10 ^ n).num : Int) : Rat) = q * 10 ^ n := by
  have hint : q * 10 ^ n = ((m * 2 ^ (k + n).toNat * 5 ^ n : Int) : Rat) := by
    have htwo : (2 : Rat) ≠ 0 := by norm_num
    push_cast
    rw [hq, ← zpow_natCast 2 (k + n).toNat, Int.toNat_of_nonneg (by omega), zpow_add₀ htwo, zpow_natCast 2 n,
      show (10 : Rat) = 2 * 5 by norm_num, mul_pow]
    ring
  rw [hint, Rat.num_intCast]

theorem readDouble_scaled (n : Int) (places : Nat) {rest : JsString} (h : Ends rest) :
    readDouble ((formatInt n ++ 101 :: 45 :: formatNat places) ++ rest) =
      some (toDouble (n * 10 ^ (-(places : Int))), rest) := by
  have hexponent : readExponent (101 :: 45 :: (formatNat places ++ rest)) = some (-(places : Int), rest) := by
    have hdigits := readDigits_append (formatNat_ne_nil places) (fun u hu => isDigit_formatNat (n := places) hu)
      h.beginsNoDigit
    unfold readExponent readSignedDigits
    rw [dropUnit_self, if_pos rfl]
    dsimp only
    rw [dropUnit_self, if_pos rfl, hdigits, Option.map_some, digitsValue, ofDigits_formatNat]
  have hfraction : readFraction (101 :: 45 :: (formatNat places ++ rest)) = some ([], 101 :: 45 :: (formatNat places ++ rest)) := by
    unfold readFraction
    rw [dropUnit_of_ne (by decide), if_neg Bool.false_ne_true]
  have hdigit : BeginsNoDigit (101 :: 45 :: (formatNat places ++ rest)) := show isDigit 101 = false by decide
  unfold readDouble
  rw [List.append_assoc, List.cons_append, List.cons_append,
    readLiteral_formatInt n hdigit hfraction hexponent, Option.map_some, value_formatInt]

theorem formatDouble_eq (n : JsonNumber) : ∃ z tail, formatDouble n = formatInt z ++ tail := by
  cases n with
  | finite q =>
    rw [formatDouble]
    split
    · exact ⟨_, [], (List.append_nil _).symm⟩
    · exact ⟨_, _, rfl⟩
  | infinite negative => exact ⟨_, [], (List.append_nil _).symm⟩

theorem readDouble_formatDouble (n : Double) {rest : JsString} (h : Ends rest) :
    readDouble (formatDouble n.1 ++ rest) = some (n, rest) := by
  obtain ⟨n, hn⟩ := n
  cases n with
  | finite q =>
    rw [formatDouble]
    split
    · rename_i hden
      rw [readDouble_formatInt _ h, Rat.coe_int_num_of_den_eq_one hden, toDouble_self hn]
    · obtain ⟨m, k, -, hk, hq⟩ := hn.1
      rw [readDouble_scaled _ _ h, scaled_num hk hq, zpow_neg, zpow_natCast, mul_assoc, mul_inv_cancel₀ (by positivity), mul_one,
        toDouble_self hn]
  | infinite negative =>
    rw [formatDouble, readDouble_formatInt _ h, toDouble_infinite (Nat.le_refl 1024)]

/-- `JSON.stringify` and `JSON.parse` of numbers. -/
def doubles : NumberFormat Double where
  format n := formatDouble n.1
  read := readDouble
  starts n := by
    obtain ⟨z, tail, h⟩ := formatDouble_eq n.1
    rw [h]
    obtain ⟨c, ds, hformat, hdigit, -⟩ := formatNat_cons z.natAbs
    unfold formatInt
    split
    · exact ⟨45, _, rfl, .inl rfl⟩
    · exact ⟨c, ds ++ tail, by rw [hformat, List.cons_append], .inr (of_decide_eq_true hdigit)⟩
  ascii n := by
    have hint (z : Int) : ∀ u ∈ formatInt z, u < 0x80 := by
      unfold formatInt
      split
      · exact List.forall_mem_cons.mpr ⟨by decide, natural.ascii _⟩
      · exact natural.ascii _
    obtain ⟨n, -⟩ := n
    cases n with
    | finite q =>
      dsimp only
      rw [formatDouble]
      split
      · exact hint _
      · exact List.forall_mem_append.mpr ⟨hint _, List.forall_mem_cons.mpr ⟨by decide,
          List.forall_mem_cons.mpr ⟨by decide, natural.ascii 1074⟩⟩⟩
    | infinite negative => exact hint _
  read_format n _ h := readDouble_formatDouble n h.follows.ends

theorem doubles_readsBack : ReadsBack doubles := fun n _ h => readDouble_formatDouble n h.ends

end JsonText

end Webchannel
