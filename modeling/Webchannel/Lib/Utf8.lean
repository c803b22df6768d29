import Mathlib.Algebra.Group.Nat.Defs
import Mathlib.Data.List.Basic

/-!
# UTF-8 text with replacement characters

The decoder reads one byte at a time and never fails: a sequence that cannot be completed
becomes U+FFFD, and the byte that broke it is read again as the start of the next one.
What a protocol of ASCII delimiters needs from it is that an ASCII byte always stands for
itself, wherever it occurs, so that cutting the bytes at one and cutting the text at one
give the same pieces.
-/

namespace Webchannel

abbrev Bytes := List UInt8

/-- A sequence that has begun. The two last fields say that its bytes are continuation
bytes, and that whatever completes it is not an ASCII character. -/
structure Pending where
  needed : Nat
  lower : Nat
  upper : Nat
  point : Nat
  needed_pos : 0 < needed
  lower_ge : 0x80 ≤ lower
  upper_le : upper ≤ 0xBF
  large : 0x80 ≤ point * 64 ^ needed + (lower - 0x80) * 64 ^ (needed - 1)

def replacement : Char := Char.ofNat 0xFFFD

/-- What a byte means where no sequence has begun. -/
def decodeLead (b : Nat) : Option Pending × List Char :=
  if b ≤ 0x7F then (none, [Char.ofNat b])
  else if h : 0xC2 ≤ b ∧ b ≤ 0xDF then
    (some ⟨1, 0x80, 0xBF, b - 0xC0, by decide, by decide, by decide, by omega⟩, [])
  else if h : 0xE0 ≤ b ∧ b ≤ 0xEF then
    if h0 : b = 0xE0 then
      (some ⟨2, 0xA0, 0xBF, 0, by decide, by decide, by decide, by decide⟩, [])
    else
      (some ⟨2, 0x80, if b = 0xED then 0x9F else 0xBF, b - 0xE0, by decide, by decide,
        by split <;> decide, by omega⟩, [])
  else if h : 0xF0 ≤ b ∧ b ≤ 0xF4 then
    if h0 : b = 0xF0 then
      (some ⟨3, 0x90, 0xBF, 0, by decide, by decide, by decide, by decide⟩, [])
    else
      (some ⟨3, 0x80, if b = 0xF4 then 0x8F else 0xBF, b - 0xF0, by decide, by decide,
        by split <;> decide, by omega⟩, [])
  else (none, [replacement])

theorem Pending.large_step (p : Pending) {b : Nat} (hlow : p.lower ≤ b) :
    0x80 ≤ (p.point * 64 + (b - 0x80)) * 64 ^ (p.needed - 1) := by
  have hneed : p.needed = (p.needed - 1) + 1 := (Nat.sub_add_cancel p.needed_pos).symm
  have hlarge := p.large
  rw [hneed, Nat.add_sub_cancel, Nat.pow_succ] at hlarge
  calc 0x80
    _ ≤ p.point * (64 ^ (p.needed - 1) * 64) + (p.lower - 0x80) * 64 ^ (p.needed - 1) := hlarge
    _ ≤ p.point * (64 ^ (p.needed - 1) * 64) + (b - 0x80) * 64 ^ (p.needed - 1) := by
        have : p.lower - 0x80 ≤ b - 0x80 := Nat.sub_le_sub_right hlow _
        exact Nat.add_le_add_left (Nat.mul_le_mul_right _ this) _
    _ = (p.point * 64 + (b - 0x80)) * 64 ^ (p.needed - 1) := by
        rw [Nat.add_mul, Nat.mul_assoc, Nat.mul_comm 64]

/-- One more byte of a sequence that has begun. -/
def decodeNext (p : Pending) (b : Nat) : Option Pending × List Char :=
  if h : p.lower ≤ b ∧ b ≤ p.upper then
    if hlast : p.needed = 1 then (none, [Char.ofNat (p.point * 64 + (b - 0x80))])
    else
      (some ⟨p.needed - 1, 0x80, 0xBF, p.point * 64 + (b - 0x80),
        by have := p.needed_pos; omega, by decide, by decide,
        by simpa using p.large_step h.1⟩, [])
  else ((decodeLead b).1, replacement :: (decodeLead b).2)

def decodeByte : Option Pending → Nat → Option Pending × List Char
  | none, b => decodeLead b
  | some p, b => decodeNext p b

/-- What is still owed at the end of the input. -/
def decodeEnd : Option Pending → List Char
  | none => []
  | some _ => [replacement]

def decodeFrom : Option Pending → Bytes → List Char
  | s, [] => decodeEnd s
  | s, b :: bs => (decodeByte s b.toNat).2 ++ decodeFrom (decodeByte s b.toNat).1 bs

/-- The text of some bytes. -/
def decodeUtf8 (bs : Bytes) : List Char := decodeFrom none bs

@[simp] theorem decodeUtf8_nil : decodeUtf8 [] = [] := rfl

theorem decodeByte_ascii (s : Option Pending) {b : Nat} (h : b ≤ 0x7F) :
    decodeByte s b = (none, decodeEnd s ++ [Char.ofNat b]) := by
  have hlead : decodeLead b = (none, [Char.ofNat b]) := by simp [decodeLead, h]
  cases s with
  | none => simp [decodeByte, decodeEnd, hlead]
  | some p =>
    have hout : ¬(p.lower ≤ b ∧ b ≤ p.upper) := by
      have := p.lower_ge
      omega
    simp [decodeByte, decodeNext, hout, decodeEnd, hlead]

theorem decodeFrom_ascii (s : Option Pending) {a : UInt8} (ha : a.toNat ≤ 0x7F) (ys : Bytes) :
    decodeFrom s (a :: ys) = decodeEnd s ++ Char.ofNat a.toNat :: decodeUtf8 ys := by
  rw [decodeFrom, decodeByte_ascii s ha, List.append_assoc]
  rfl

/-- An ASCII byte stands for itself, and what is before it is decoded as if it were the
end. -/
theorem decodeFrom_append_ascii {a : UInt8} (ha : a.toNat ≤ 0x7F) (s : Option Pending)
    (xs ys : Bytes) :
    decodeFrom s (xs ++ a :: ys) = decodeFrom s xs ++ Char.ofNat a.toNat :: decodeUtf8 ys := by
  induction xs generalizing s with
  | nil => exact decodeFrom_ascii s ha ys
  | cons b xs ih =>
    rw [List.cons_append, decodeFrom, decodeFrom, ih, List.append_assoc]

theorem decodeUtf8_append_ascii {a : UInt8} (ha : a.toNat ≤ 0x7F) (xs ys : Bytes) :
    decodeUtf8 (xs ++ a :: ys) = decodeUtf8 xs ++ Char.ofNat a.toNat :: decodeUtf8 ys :=
  decodeFrom_append_ascii ha none xs ys

/-- Bytes that are all ASCII are their own text. -/
theorem decodeUtf8_ascii {bs : Bytes} (h : ∀ b ∈ bs, b.toNat ≤ 0x7F) :
    decodeUtf8 bs = bs.map fun b => Char.ofNat b.toNat := by
  induction bs with
  | nil => rfl
  | cons b bs ih =>
    have hb : b.toNat ≤ 0x7F := h b (by simp)
    have hbs : ∀ c ∈ bs, c.toNat ≤ 0x7F := fun c hc => h c (by simp [hc])
    have : decodeUtf8 ([] ++ b :: bs) = _ := decodeUtf8_append_ascii hb [] bs
    simpa [ih hbs] using this

theorem decodeEnd_eq_nil {s : Option Pending} (h : decodeEnd s = []) : s = none := by
  cases s with
  | none => rfl
  | some p => simp [decodeEnd] at h

/-- Some text comes of every byte in the end. -/
theorem decodeFrom_ne_nil (s : Option Pending) (b : UInt8) (bs : Bytes) :
    decodeFrom s (b :: bs) ≠ [] := by
  induction bs generalizing s b with
  | nil =>
    intro h
    rw [decodeFrom, decodeFrom, List.append_eq_nil_iff] at h
    obtain ⟨hout, hend⟩ := h
    have hnone := decodeEnd_eq_nil hend
    cases s with
    | none =>
      simp only [decodeByte, decodeLead] at hout hnone
      split at hout <;> simp_all
      split at hout <;> simp_all
      split at hout <;> simp_all
      · split at hout <;> simp_all
      · split at hout <;> simp_all
        split at hout <;> simp_all
    | some p =>
      simp only [decodeByte, decodeNext] at hout hnone
      split at hout <;> simp_all
      split at hout <;> simp_all
  | cons c bs ih =>
    intro h
    rw [decodeFrom, List.append_eq_nil_iff] at h
    exact ih _ c h.2

theorem decodeUtf8_eq_nil_iff {bs : Bytes} : decodeUtf8 bs = [] ↔ bs = [] := by
  cases bs with
  | nil => simp
  | cons b bs => simpa [decodeUtf8] using decodeFrom_ne_nil none b bs

/-! ### No ASCII character comes of other bytes -/

theorem toNat_ofNat_of_isValidChar {n : Nat} (h : n.isValidChar) : (Char.ofNat n).toNat = n := by
  have haux : Char.ofNat n = Char.ofNatAux n h := dif_pos h
  rw [haux]
  rfl

theorem toNat_ofNat_of_ne_zero {n : Nat} (h : (Char.ofNat n).toNat ≠ 0) :
    (Char.ofNat n).toNat = n := by
  by_cases hv : n.isValidChar
  · exact toNat_ofNat_of_isValidChar hv
  · exact absurd (by simp [Char.ofNat, hv]) h

theorem decodeByte_ascii_mem {s : Option Pending} {b : Nat} {c : Char}
    (hc : c ∈ (decodeByte s b).2) (hpos : c.toNat ≠ 0) (hlow : c.toNat ≤ 0x7F) :
    b = c.toNat := by
  have hrep : c ≠ replacement := by
    rintro rfl
    exact absurd hlow (by decide)
  have hlead : c ∈ (decodeLead b).2 → b = c.toNat := by
    intro hmem
    unfold decodeLead at hmem
    split at hmem
    · obtain rfl := List.mem_singleton.mp hmem
      exact (toNat_ofNat_of_ne_zero hpos).symm
    · repeat' split at hmem
      all_goals
        first
        | exact absurd hmem List.not_mem_nil
        | exact absurd (List.mem_singleton.mp hmem) hrep
  cases s with
  | none => exact hlead hc
  | some p =>
    simp only [decodeByte, decodeNext] at hc
    split at hc
    next hin =>
      split at hc
      next hlast =>
        -- the last byte of a sequence gives a character past the ASCII ones
        have hceq : c = Char.ofNat (p.point * 64 + (b - 0x80)) := List.mem_singleton.mp hc
        have hlarge := p.large_step hin.1
        rw [hlast] at hlarge
        rw [hceq] at hpos hlow
        rw [toNat_ofNat_of_ne_zero hpos] at hlow
        omega
      next => simp at hc
    next =>
      rcases List.mem_cons.mp hc with heq | hmem
      · exact absurd heq hrep
      · exact hlead hmem

theorem decodeFrom_ascii_mem {s : Option Pending} {bs : Bytes} {c : Char}
    (hc : c ∈ decodeFrom s bs) (hpos : c.toNat ≠ 0) (hlow : c.toNat ≤ 0x7F) :
    ∃ b ∈ bs, b.toNat = c.toNat := by
  induction bs generalizing s with
  | nil =>
    cases s with
    | none => simp [decodeFrom, decodeEnd] at hc
    | some p =>
      obtain rfl : c = replacement := by simpa [decodeFrom, decodeEnd] using hc
      exact absurd hlow (by decide)
  | cons b bs ih =>
    rcases List.mem_append.mp hc with hhere | hlater
    · exact ⟨b, by simp, decodeByte_ascii_mem hhere hpos hlow⟩
    · obtain ⟨b', hmem, heq⟩ := ih hlater
      exact ⟨b', by simp [hmem], heq⟩

/-! ### What an encoder writes is read back -/

/-- A sequence that owes `needed` continuation bytes, the next one between `lower` and 0xBF or less. -/
def Owes (s : Option Pending) (needed lower upper point : Nat) : Prop :=
  ∃ p, s = some p ∧ p.needed = needed ∧ p.lower = lower ∧ p.upper = upper ∧ p.point = point

theorem decodeLead_two {b : Nat} (h : 0xC2 ≤ b ∧ b ≤ 0xDF) :
    (decodeLead b).2 = [] ∧ Owes (decodeLead b).1 1 0x80 0xBF (b - 0xC0) := by
  unfold decodeLead
  rw [if_neg (by omega), dif_pos h]
  exact ⟨rfl, _, rfl, rfl, rfl, rfl, rfl⟩

theorem decodeLead_three {b : Nat} (h : 0xE0 ≤ b ∧ b ≤ 0xEF) :
    (decodeLead b).2 = [] ∧ Owes (decodeLead b).1 2 (if b = 0xE0 then 0xA0 else 0x80)
      (if b = 0xED then 0x9F else 0xBF) (b - 0xE0) := by
  unfold decodeLead
  rw [if_neg (by omega), dif_neg (by omega), dif_pos h]
  by_cases hb : b = 0xE0
  · subst hb
    exact ⟨rfl, _, rfl, rfl, rfl, rfl, rfl⟩
  · rw [dif_neg hb, if_neg hb]
    exact ⟨rfl, _, rfl, rfl, rfl, rfl, rfl⟩

theorem decodeLead_four {b : Nat} (h : 0xF0 ≤ b ∧ b ≤ 0xF4) :
    (decodeLead b).2 = [] ∧ Owes (decodeLead b).1 3 (if b = 0xF0 then 0x90 else 0x80)
      (if b = 0xF4 then 0x8F else 0xBF) (b - 0xF0) := by
  unfold decodeLead
  rw [if_neg (by omega), dif_neg (by omega), dif_neg (by omega), dif_pos h]
  by_cases hb : b = 0xF0
  · subst hb
    exact ⟨rfl, _, rfl, rfl, rfl, rfl, rfl⟩
  · rw [dif_neg hb, if_neg hb]
    exact ⟨rfl, _, rfl, rfl, rfl, rfl, rfl⟩

/-- The last byte that is owed. -/
theorem decodeByte_last {s : Option Pending} {lower upper point b : Nat} (hs : Owes s 1 lower upper point)
    (h : lower ≤ b ∧ b ≤ upper) : decodeByte s b = (none, [Char.ofNat (point * 64 + (b - 0x80))]) := by
  obtain ⟨p, rfl, hneeded, hlower, hupper, hpoint⟩ := hs
  unfold decodeByte decodeNext
  dsimp only
  rw [dif_pos (by rw [hlower, hupper]; exact h), dif_pos hneeded, hpoint]

theorem decodeByte_more {s : Option Pending} {needed lower upper point b : Nat}
    (hs : Owes s (needed + 2) lower upper point) (h : lower ≤ b ∧ b ≤ upper) :
    (decodeByte s b).2 = [] ∧ Owes (decodeByte s b).1 (needed + 1) 0x80 0xBF (point * 64 + (b - 0x80)) := by
  obtain ⟨p, rfl, hneeded, hlower, hupper, hpoint⟩ := hs
  unfold decodeByte decodeNext
  dsimp only
  rw [dif_pos (by rw [hlower, hupper]; exact h), dif_neg (by omega)]
  refine ⟨rfl, _, rfl, ?_, rfl, rfl, ?_⟩
  · change p.needed - 1 = needed + 1
    omega
  · change p.point * 64 + (b - 0x80) = point * 64 + (b - 0x80)
    rw [hpoint]

theorem toNat_ofNat_of_lt {n : Nat} (h : n < 256) : (UInt8.ofNat n).toNat = n :=
  UInt8.toNat_ofNat_of_lt h

/-- A byte after which more is owed. -/
theorem decodeFrom_owing {s : Option Pending} {n needed lower upper point : Nat} (hn : n < 256) (bs : Bytes)
    (h : (decodeByte s n).2 = [] ∧ Owes (decodeByte s n).1 needed lower upper point) :
    ∃ t, Owes t needed lower upper point ∧ decodeFrom s (UInt8.ofNat n :: bs) = decodeFrom t bs := by
  refine ⟨_, h.2, ?_⟩
  rw [decodeFrom, toNat_ofNat_of_lt hn, h.1, List.nil_append]

/-- The byte that completes a character. -/
theorem decodeFrom_last {s : Option Pending} {n lower upper point : Nat} (hn : n < 256)
    (hs : Owes s 1 lower upper point) (h : lower ≤ n ∧ n ≤ upper) (bs : Bytes) :
    decodeFrom s (UInt8.ofNat n :: bs) = Char.ofNat (point * 64 + (n - 0x80)) :: decodeFrom none bs := by
  rw [decodeFrom, toNat_ofNat_of_lt hn, decodeByte_last hs h]
  rfl

/-- One character. -/
theorem decodeFrom_utf8EncodeChar (c : Char) (bs : Bytes) :
    decodeFrom none (String.utf8EncodeChar c ++ bs) = c :: decodeFrom none bs := by
  have hvalid : c.val.toNat < 0xD800 ∨ 0xDFFF < c.val.toNat ∧ c.val.toNat < 0x110000 := c.valid
  have hchar : Char.ofNat c.val.toNat = c := Char.ofNat_toNat c
  unfold String.utf8EncodeChar
  dsimp only
  generalize c.val.toNat = v at hvalid hchar ⊢
  split
  · rename_i h
    have hbyte := toNat_ofNat_of_lt (n := v) (by omega)
    rw [List.singleton_append, decodeFrom_ascii none (by rw [hbyte]; exact h), hbyte, hchar]
    rfl
  · split
    · obtain ⟨s, hs, hfirst⟩ := decodeFrom_owing (s := none) (n := v / 64 % 0x20 + 0xc0) (by omega)
        (UInt8.ofNat (v % 0x40 + 0x80) :: bs) (decodeLead_two (by omega))
      rw [List.cons_append, List.cons_append, List.nil_append, hfirst,
        decodeFrom_last (by omega) hs (by omega),
        show (v / 64 % 0x20 + 0xc0 - 0xC0) * 64 + (v % 0x40 + 0x80 - 0x80) = v by omega, hchar]
    · split
      · obtain ⟨s, hs, hfirst⟩ := decodeFrom_owing (s := none) (n := v / 4096 % 0x10 + 0xe0) (by omega)
          (UInt8.ofNat (v / 64 % 0x40 + 0x80) :: UInt8.ofNat (v % 0x40 + 0x80) :: bs)
          (decodeLead_three (by omega))
        obtain ⟨t, ht, hsecond⟩ := decodeFrom_owing (n := v / 64 % 0x40 + 0x80) (by omega)
          (UInt8.ofNat (v % 0x40 + 0x80) :: bs) (@decodeByte_more _ 0 _ _ _ _ hs (by constructor <;> split <;> omega))
        rw [List.cons_append, List.cons_append, List.cons_append, List.nil_append, hfirst, hsecond,
          decodeFrom_last (by omega) ht (by omega),
          show ((v / 4096 % 0x10 + 0xe0 - 0xE0) * 64 + (v / 64 % 0x40 + 0x80 - 0x80)) * 64 +
            (v % 0x40 + 0x80 - 0x80) = v by omega, hchar]
      · obtain ⟨s, hs, hfirst⟩ := decodeFrom_owing (s := none) (n := v / 262144 % 0x08 + 0xf0) (by omega)
          (UInt8.ofNat (v / 4096 % 0x40 + 0x80) :: UInt8.ofNat (v / 64 % 0x40 + 0x80) ::
            UInt8.ofNat (v % 0x40 + 0x80) :: bs) (decodeLead_four (by omega))
        obtain ⟨t, ht, hsecond⟩ := decodeFrom_owing (n := v / 4096 % 0x40 + 0x80) (by omega)
          (UInt8.ofNat (v / 64 % 0x40 + 0x80) :: UInt8.ofNat (v % 0x40 + 0x80) :: bs)
          (@decodeByte_more _ 1 _ _ _ _ hs (by constructor <;> split <;> omega))
        obtain ⟨u, hu, hthird⟩ := decodeFrom_owing (n := v / 64 % 0x40 + 0x80) (by omega)
          (UInt8.ofNat (v % 0x40 + 0x80) :: bs) (@decodeByte_more _ 0 _ _ _ _ ht (by omega))
        rw [List.cons_append, List.cons_append, List.cons_append, List.cons_append, List.nil_append, hfirst, hsecond,
          hthird, decodeFrom_last (by omega) hu (by omega),
          show (((v / 262144 % 0x08 + 0xf0 - 0xF0) * 64 + (v / 4096 % 0x40 + 0x80 - 0x80)) * 64 +
            (v / 64 % 0x40 + 0x80 - 0x80)) * 64 + (v % 0x40 + 0x80 - 0x80) = v by omega, hchar]

/-- The decoder inverts the encoder. -/
theorem decodeUtf8_encode (cs : List Char) : decodeUtf8 (cs.flatMap String.utf8EncodeChar) = cs := by
  unfold decodeUtf8
  induction cs with
  | nil => rfl
  | cons c cs ih => rw [List.flatMap_cons, decodeFrom_utf8EncodeChar, ih]

end Webchannel
