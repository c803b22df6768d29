import Mathlib.Data.List.Basic
import Webchannel.Lib.Utf8

/-!
# Strings of UTF-16 code units

A JavaScript string is a list of code units. A surrogate without its partner is a unit like any
other; only where the string becomes bytes does it turn into a replacement character.
-/

namespace Webchannel

abbrev JsString := List UInt16

instance : LawfulBEq JsString := inferInstance

/-- The code units of one character. -/
def utf16Units (c : Char) : JsString :=
  if c.toNat < 0x10000 then [UInt16.ofNat c.toNat]
  else [UInt16.ofNat (0xD800 + (c.toNat - 0x10000) / 0x400), UInt16.ofNat (0xDC00 + (c.toNat - 0x10000) % 0x400)]

/-- A string literal. -/
def js (s : String) : JsString := s.toList.flatMap utf16Units

def isHighSurrogate (u : UInt16) : Bool := 0xD800 ≤ u ∧ u ≤ 0xDBFF

def isLowSurrogate (u : UInt16) : Bool := 0xDC00 ≤ u ∧ u ≤ 0xDFFF

/-- The character of a surrogate pair. -/
def pairChar (high low : UInt16) : Char :=
  Char.ofNat (0x10000 + (high.toNat - 0xD800) * 0x400 + (low.toNat - 0xDC00))

/-- The characters of a string. -/
def utf16Chars : JsString → List Char
  | [] => []
  | [u] => [if isHighSurrogate u || isLowSurrogate u then replacement else Char.ofNat u.toNat]
  | u :: v :: rest =>
    if isHighSurrogate u && isLowSurrogate v then pairChar u v :: utf16Chars rest
    else (if isHighSurrogate u || isLowSurrogate u then replacement else Char.ofNat u.toNat) ::
      utf16Chars (v :: rest)

/-- `Buffer.from(s, "utf8")` and `new TextEncoder().encode(s)`. -/
def encodeUtf8 (s : JsString) : Bytes := (utf16Chars s).flatMap String.utf8EncodeChar

/-- `buffer.toString("utf8")` -/
def stringOfUtf8 (bs : Bytes) : JsString := (decodeUtf8 bs).flatMap utf16Units

/-- `new TextDecoder().decode(bytes)`: a byte-order mark in front is left out. -/
def textDecode (bs : Bytes) : JsString :=
  match stringOfUtf8 bs with
  | 0xFEFF :: rest => rest
  | s => s

/-- A unit that is not a surrogate is a character. -/
theorem utf16Chars_cons {u : UInt16} (hhigh : isHighSurrogate u = false) (hlow : isLowSurrogate u = false)
    (rest : JsString) : utf16Chars (u :: rest) = Char.ofNat u.toNat :: utf16Chars rest := by
  cases rest with
  | nil => simp [utf16Chars, hhigh, hlow]
  | cons v rest => simp [utf16Chars, hhigh, hlow]

theorem not_surrogate_of_ascii {u : UInt16} (h : u < 0x80) : isHighSurrogate u = false ∧ isLowSurrogate u = false := by
  have hu : u.toNat < 0x80 := UInt16.lt_iff_toNat_lt.mp h
  unfold isHighSurrogate isLowSurrogate
  simp only [decide_eq_false_iff_not, UInt16.le_iff_toNat_le]
  constructor
  · intro hle
    have hlow : (0xD800 : Nat) ≤ u.toNat := hle.1
    omega
  · intro hle
    have hlow : (0xDC00 : Nat) ≤ u.toNat := hle.1
    omega

/-- An ASCII unit is one byte. -/
theorem encodeUtf8_cons {u : UInt16} (h : u < 0x80) (rest : JsString) :
    encodeUtf8 (u :: rest) = u.toUInt8 :: encodeUtf8 rest := by
  have hu : u.toNat < 0x80 := UInt16.lt_iff_toNat_lt.mp h
  obtain ⟨hhigh, hlow⟩ := not_surrogate_of_ascii h
  have hchar : String.utf8EncodeChar (Char.ofNat u.toNat) = [u.toUInt8] := by
    have hvalid : u.toNat.isValidChar := Or.inl (by omega)
    have hval : (Char.ofNat u.toNat).val.toNat = u.toNat := toNat_ofNat_of_isValidChar hvalid
    unfold String.utf8EncodeChar
    dsimp only
    rw [hval, if_pos (by omega)]
    rfl
  unfold encodeUtf8
  rw [utf16Chars_cons hhigh hlow, List.flatMap_cons, hchar]
  rfl

theorem encodeUtf8_append {a : JsString} (h : ∀ u ∈ a, u < 0x80) (rest : JsString) :
    encodeUtf8 (a ++ rest) = a.map UInt16.toUInt8 ++ encodeUtf8 rest := by
  induction a with
  | nil => rfl
  | cons u a ih =>
    rw [List.cons_append, encodeUtf8_cons (h u (.head _)), ih fun v hv => h v (.tail _ hv)]
    rfl

/-! ## Well-formed strings -/

/-- A string in which every surrogate has its partner. -/
inductive WellFormed : JsString → Prop where
  | nil : WellFormed []
  | unit {u : UInt16} {rest : JsString} (hhigh : isHighSurrogate u = false) (hlow : isLowSurrogate u = false)
      (h : WellFormed rest) : WellFormed (u :: rest)
  | pair {u v : UInt16} {rest : JsString} (hhigh : isHighSurrogate u = true) (hlow : isLowSurrogate v = true)
      (h : WellFormed rest) : WellFormed (u :: v :: rest)

theorem WellFormed.append {a b : JsString} (ha : WellFormed a) (hb : WellFormed b) : WellFormed (a ++ b) := by
  induction ha with
  | nil => exact hb
  | unit hhigh hlow _ ih => exact .unit hhigh hlow ih
  | pair hhigh hlow _ ih => exact .pair hhigh hlow ih

theorem ascii_of_all {s : JsString} (h : s.all (fun u => decide (u < 0x80)) = true) : ∀ u ∈ s, u < 0x80 :=
  fun u hu => of_decide_eq_true (List.all_eq_true.mp h u hu)

theorem WellFormed.ascii {s : JsString} (h : ∀ u ∈ s, u < 0x80) : WellFormed s := by
  induction s with
  | nil => exact .nil
  | cons u s ih =>
    obtain ⟨hhigh, hlow⟩ := not_surrogate_of_ascii (h u (.head _))
    exact .unit hhigh hlow (ih fun v hv => h v (.tail _ hv))

theorem surrogate_bounds {u : UInt16} :
    (isHighSurrogate u = true ↔ 0xD800 ≤ u.toNat ∧ u.toNat ≤ 0xDBFF) ∧
      (isLowSurrogate u = true ↔ 0xDC00 ≤ u.toNat ∧ u.toNat ≤ 0xDFFF) := by
  unfold isHighSurrogate isLowSurrogate
  simp only [decide_eq_true_eq, UInt16.le_iff_toNat_le]
  exact ⟨Iff.rfl, Iff.rfl⟩

theorem utf16Units_ofNat {u : UInt16} (hhigh : isHighSurrogate u = false) (hlow : isLowSurrogate u = false) :
    utf16Units (Char.ofNat u.toNat) = [u] := by
  have hlt : u.toNat < 0x10000 := u.toNat_lt
  have hbounds := surrogate_bounds (u := u)
  rw [hhigh, hlow] at hbounds
  have hvalid : u.toNat.isValidChar := by
    unfold Nat.isValidChar
    simp only [Bool.false_eq_true, false_iff] at hbounds
    omega
  unfold utf16Units
  rw [toNat_ofNat_of_isValidChar hvalid, if_pos hlt, UInt16.ofNat_toNat]

theorem utf16Units_pairChar {u v : UInt16} (hhigh : isHighSurrogate u = true) (hlow : isLowSurrogate v = true) :
    utf16Units (pairChar u v) = [u, v] := by
  have hu := surrogate_bounds.1.mp hhigh
  have hv := surrogate_bounds.2.mp hlow
  have hvalid : (0x10000 + (u.toNat - 0xD800) * 0x400 + (v.toNat - 0xDC00)).isValidChar := by
    unfold Nat.isValidChar
    omega
  have hfirst : 0xD800 + (0x10000 + (u.toNat - 0xD800) * 0x400 + (v.toNat - 0xDC00) - 0x10000) / 0x400 = u.toNat := by
    omega
  have hsecond : 0xDC00 + (0x10000 + (u.toNat - 0xD800) * 0x400 + (v.toNat - 0xDC00) - 0x10000) % 0x400 = v.toNat := by
    omega
  have hlarge : ¬ 0x10000 + (u.toNat - 0xD800) * 0x400 + (v.toNat - 0xDC00) < 0x10000 := by omega
  unfold utf16Units pairChar
  rw [toNat_ofNat_of_isValidChar hvalid, if_neg hlarge, hfirst, hsecond, UInt16.ofNat_toNat, UInt16.ofNat_toNat]

/-- A well-formed string is the units of its characters. -/
theorem WellFormed.flatMap_utf16Chars {s : JsString} (h : WellFormed s) : (utf16Chars s).flatMap utf16Units = s := by
  induction h with
  | nil => rfl
  | unit hhigh hlow _ ih => rw [utf16Chars_cons hhigh hlow, List.flatMap_cons, utf16Units_ofNat hhigh hlow, ih]; rfl
  | @pair u v rest hhigh hlow _ ih =>
    have hchars : utf16Chars (u :: v :: rest) = pairChar u v :: utf16Chars rest := by
      simp [utf16Chars, hhigh, hlow]
    rw [hchars, List.flatMap_cons, utf16Units_pairChar hhigh hlow, ih]
    rfl

/-- The bytes of a well-formed string are decoded to it. -/
theorem WellFormed.stringOfUtf8_encodeUtf8 {s : JsString} (h : WellFormed s) : stringOfUtf8 (encodeUtf8 s) = s := by
  rw [stringOfUtf8, encodeUtf8, decodeUtf8_encode, h.flatMap_utf16Chars]

theorem WellFormed.encodeUtf8_inj {s t : JsString} (hs : WellFormed s) (ht : WellFormed t)
    (h : encodeUtf8 s = encodeUtf8 t) : s = t := by
  rw [← hs.stringOfUtf8_encodeUtf8, h, ht.stringOfUtf8_encodeUtf8]

theorem WellFormed.textDecode_encodeUtf8 {u : UInt16} {s : JsString} (h : WellFormed (u :: s)) (hu : u ≠ 0xFEFF) :
    textDecode (encodeUtf8 (u :: s)) = u :: s := by
  unfold textDecode
  rw [h.stringOfUtf8_encodeUtf8]
  split
  · rename_i rest heq
    exact absurd (List.cons.inj heq).1 hu
  · rfl

end Webchannel
