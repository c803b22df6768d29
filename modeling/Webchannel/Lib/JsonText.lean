import Mathlib.Data.Nat.Digits.Defs
import Webchannel.Lib.Json

/-!
# JSON text

`JSON.stringify` and `JSON.parse` on strings of UTF-16 code units, over any way of writing
numbers. A surrogate without its partner is written as an escape, so a text is always
well-formed; and what is written is read back.
-/

namespace Webchannel

namespace JsonText

/-! ## Strings -/

def hexDigit (n : Nat) : UInt16 := if n < 10 then UInt16.ofNat (48 + n) else UInt16.ofNat (87 + n)

def hexValue (u : UInt16) : Option Nat :=
  if 48 ≤ u ∧ u ≤ 57 then some (u.toNat - 48)
  else if 97 ≤ u ∧ u ≤ 102 then some (u.toNat - 87)
  else if 65 ≤ u ∧ u ≤ 70 then some (u.toNat - 55)
  else none

/-- `\uXXXX` -/
def escapeUnit (u : UInt16) : JsString :=
  [92, 117, hexDigit (u.toNat / 4096), hexDigit (u.toNat / 256 % 16), hexDigit (u.toNat / 16 % 16),
    hexDigit (u.toNat % 16)]

/-- A unit that is not a surrogate. -/
def quoteUnit (u : UInt16) : JsString :=
  if u = 34 then [92, 34]
  else if u = 92 then [92, 92]
  else if u = 8 then [92, 98]
  else if u = 12 then [92, 102]
  else if u = 10 then [92, 110]
  else if u = 13 then [92, 114]
  else if u = 9 then [92, 116]
  else if u < 32 then escapeUnit u
  else [u]

def quoteBody : JsString → JsString
  | [] => []
  | [u] => if isHighSurrogate u || isLowSurrogate u then escapeUnit u else quoteUnit u
  | u :: v :: rest =>
    if isHighSurrogate u && isLowSurrogate v then u :: v :: quoteBody rest
    else (if isHighSurrogate u || isLowSurrogate u then escapeUnit u else quoteUnit u) ++ quoteBody (v :: rest)

def quote (s : JsString) : JsString := 34 :: (quoteBody s ++ [34])

/-- What stands behind a backslash, other than `u`. -/
def unescape (e : UInt16) : Option UInt16 :=
  if e = 34 then some 34
  else if e = 92 then some 92
  else if e = 47 then some 47
  else if e = 98 then some 8
  else if e = 102 then some 12
  else if e = 110 then some 10
  else if e = 114 then some 13
  else if e = 116 then some 9
  else none

def hexUnit (a b c d : UInt16) : Option UInt16 := do
  let a ← hexValue a
  let b ← hexValue b
  let c ← hexValue c
  let d ← hexValue d
  return UInt16.ofNat (a * 4096 + b * 256 + c * 16 + d)

/-- The rest of a string, behind its opening quote. -/
def readString : JsString → Option (JsString × JsString)
  | [] => none
  | u :: rest =>
    if u = 34 then some ([], rest)
    else if u = 92 then
      match rest with
      | [] => none
      | e :: rest =>
        if e = 117 then
          match rest with
          | a :: b :: c :: d :: rest =>
            (hexUnit a b c d).bind fun v => (readString rest).map fun r => (v :: r.1, r.2)
          | _ => none
        else (unescape e).bind fun v => (readString rest).map fun r => (v :: r.1, r.2)
    else if u < 32 then none
    else (readString rest).map fun r => (u :: r.1, r.2)

/-! ## Values -/

def isWhitespace (u : UInt16) : Bool := u = 32 ∨ u = 9 ∨ u = 10 ∨ u = 13

def skipWhitespace (s : JsString) : JsString := s.dropWhile isWhitespace

/-- What may follow a value in a text without blanks. -/
def Delimited : JsString → Prop
  | [] => True
  | c :: _ => c = 44 ∨ c = 93 ∨ c = 125

/-- How numbers are written and read. -/
structure NumberFormat (ν : Type) where
  format : ν → JsString
  read : JsString → Option (ν × JsString)
  starts : ∀ n, ∃ c rest, format n = c :: rest ∧ (c = 45 ∨ 48 ≤ c ∧ c ≤ 57)
  ascii : ∀ n, ∀ u ∈ format n, u < 0x80
  read_format : ∀ n rest, Delimited rest → read (format n ++ rest) = some (n, rest)

variable {ν : Type} (f : NumberFormat ν)

mutual

/-- `JSON.stringify` -/
def stringify : Json ν → JsString
  | .null => js "null"
  | .bool true => js "true"
  | .bool false => js "false"
  | .num n => f.format n
  | .str s => quote s
  | .arr l => 91 :: (stringifyElements l ++ [93])
  | .obj l => 123 :: (stringifyMembers l ++ [125])

def stringifyElements : List (Json ν) → JsString
  | [] => []
  | [v] => stringify v
  | v :: w :: l => stringify v ++ 44 :: stringifyElements (w :: l)

def stringifyMembers : List (JsString × Json ν) → JsString
  | [] => []
  | [(k, v)] => quote k ++ 58 :: stringify v
  | (k, v) :: e :: l => quote k ++ 58 :: (stringify v ++ 44 :: stringifyMembers (e :: l))

end

def expect (literal s : JsString) : Option JsString :=
  if literal.isPrefixOf s then some (s.drop literal.length) else none

mutual

def parseValue : Nat → JsString → Option (Json ν × JsString)
  | 0, _ => none
  | fuel + 1, s =>
    match skipWhitespace s with
    | [] => none
    | c :: rest =>
      if c = 34 then (readString rest).map fun r => (.str r.1, r.2)
      else if c = 91 then
        match skipWhitespace rest with
        | [] => none
        | d :: rest =>
          if d = 93 then some (.arr [], rest)
          else (parseElements fuel (d :: rest)).map fun r => (.arr r.1, r.2)
      else if c = 123 then
        match skipWhitespace rest with
        | [] => none
        | d :: rest =>
          if d = 125 then some (.obj [], rest)
          else (parseMembers fuel (d :: rest)).map fun r => (.obj r.1, r.2)
      else if c = 110 then (expect (js "ull") rest).map fun r => (.null, r)
      else if c = 116 then (expect (js "rue") rest).map fun r => (.bool true, r)
      else if c = 102 then (expect (js "alse") rest).map fun r => (.bool false, r)
      else (f.read (c :: rest)).map fun r => (.num r.1, r.2)

/-- The elements of an array and its closing bracket. -/
def parseElements : Nat → JsString → Option (List (Json ν) × JsString)
  | 0, _ => none
  | fuel + 1, s =>
    (parseValue fuel s).bind fun r =>
      match skipWhitespace r.2 with
      | [] => none
      | d :: rest =>
        if d = 44 then (parseElements fuel rest).map fun t => (r.1 :: t.1, t.2)
        else if d = 93 then some ([r.1], rest)
        else none

/-- The members of an object and its closing brace. -/
def parseMembers : Nat → JsString → Option (List (JsString × Json ν) × JsString)
  | 0, _ => none
  | fuel + 1, s =>
    match skipWhitespace s with
    | [] => none
    | c :: rest =>
      if c = 34 then
        (readString rest).bind fun k =>
          match skipWhitespace k.2 with
          | [] => none
          | colon :: rest =>
            if colon = 58 then
              (parseValue fuel rest).bind fun r =>
                match skipWhitespace r.2 with
                | [] => none
                | d :: rest =>
                  if d = 44 then (parseMembers fuel rest).map fun t => ((k.1, r.1) :: t.1, t.2)
                  else if d = 125 then some ([(k.1, r.1)], rest)
                  else none
            else none
      else none

end

/-- `JSON.parse`; every value of the text takes at most two units of fuel. -/
def parse (s : JsString) : Option (Json ν) :=
  match parseValue f (2 * s.length + 1) s with
  | none => none
  | some (v, rest) => if skipWhitespace rest = [] then some v else none

/-! ## A string is read back -/

theorem hexValue_hexDigit : ∀ n < 16, hexValue (hexDigit n) = some n := by decide

theorem hexDigit_ascii : ∀ n < 16, hexDigit n < 0x80 := by decide

theorem readString_escapeUnit (u : UInt16) (s : JsString) :
    readString (escapeUnit u ++ s) = (readString s).map fun r => (u :: r.1, r.2) := by
  have hu : u.toNat < 65536 := u.toNat_lt
  have hunit : hexUnit (hexDigit (u.toNat / 4096)) (hexDigit (u.toNat / 256 % 16)) (hexDigit (u.toNat / 16 % 16))
      (hexDigit (u.toNat % 16)) = some u := by
    have hsum : u.toNat / 4096 * 4096 + u.toNat / 256 % 16 * 256 + u.toNat / 16 % 16 * 16 + u.toNat % 16 = u.toNat := by
      omega
    unfold hexUnit
    rw [hexValue_hexDigit _ (by omega), hexValue_hexDigit _ (by omega), hexValue_hexDigit _ (by omega),
      hexValue_hexDigit _ (by omega)]
    change some (UInt16.ofNat _) = some u
    rw [hsum, UInt16.ofNat_toNat]
  unfold escapeUnit
  simp only [List.cons_append, List.nil_append]
  rw [readString]
  simp only [show ¬ (92 : UInt16) = 34 by decide, if_false, if_true, hunit, Option.bind_some]

theorem readString_plain {u : UInt16} (hquote : u ≠ 34) (hslash : u ≠ 92) (hcontrol : ¬ u < 32) (s : JsString) :
    readString (u :: s) = (readString s).map fun r => (u :: r.1, r.2) := by
  rw [readString.eq_def]
  simp only [hquote, hslash, hcontrol, if_false]

theorem readString_short {e u : UInt16} (he : e ≠ 117) (h : unescape e = some u) (s : JsString) :
    readString (92 :: e :: s) = (readString s).map fun r => (u :: r.1, r.2) := by
  rw [readString.eq_def]
  simp only [show ¬ (92 : UInt16) = 34 by decide, he, h, if_false, if_true, Option.bind_some]

theorem readString_quoteUnit (u : UInt16) (s : JsString) :
    readString (quoteUnit u ++ s) = (readString s).map fun r => (u :: r.1, r.2) := by
  unfold quoteUnit
  split
  · subst_vars
    exact readString_short (by decide) (by decide) s
  split
  · subst_vars
    exact readString_short (by decide) (by decide) s
  split
  · subst_vars
    exact readString_short (by decide) (by decide) s
  split
  · subst_vars
    exact readString_short (by decide) (by decide) s
  split
  · subst_vars
    exact readString_short (by decide) (by decide) s
  split
  · subst_vars
    exact readString_short (by decide) (by decide) s
  split
  · subst_vars
    exact readString_short (by decide) (by decide) s
  split
  · exact readString_escapeUnit u s
  · exact readString_plain ‹_› ‹_› ‹_› s

theorem plain_of_surrogate {u : UInt16} (h : 0xD800 ≤ u.toNat) : u ≠ 34 ∧ u ≠ 92 ∧ ¬ u < 32 := by
  refine ⟨?_, ?_, ?_⟩
  · rintro rfl
    exact absurd h (by decide)
  · rintro rfl
    exact absurd h (by decide)
  · intro hlt
    have hnat : u.toNat < 32 := UInt16.lt_iff_toNat_lt.mp hlt
    omega

theorem readString_quoteBody (s rest : JsString) : readString (quoteBody s ++ 34 :: rest) = some (s, rest) := by
  induction s using quoteBody.induct with
  | case1 =>
    rw [quoteBody, List.nil_append, readString.eq_def]
    rfl
  | case2 u h =>
    rw [quoteBody, if_pos h, readString_escapeUnit, readString.eq_def]
    rfl
  | case3 u h =>
    rw [quoteBody, if_neg h, readString_quoteUnit, readString.eq_def]
    rfl
  | case4 u v s h ih =>
    rw [Bool.and_eq_true] at h
    have hu := plain_of_surrogate (surrogate_bounds.1.mp h.1).1
    have hv := plain_of_surrogate (Nat.le_trans (by omega) (surrogate_bounds.2.mp h.2).1)
    rw [quoteBody, if_pos (by rw [Bool.and_eq_true]; exact h), List.cons_append, List.cons_append,
      readString_plain hu.1 hu.2.1 hu.2.2, readString_plain hv.1 hv.2.1 hv.2.2, ih]
    rfl
  | case5 u v s h ih =>
    rw [quoteBody, if_neg h, List.append_assoc]
    split
    · rw [readString_escapeUnit, ih]
      rfl
    · rw [readString_quoteUnit, ih]
      rfl

/-! ## A text is well-formed -/

theorem wellFormed_escapeUnit (u : UInt16) : WellFormed (escapeUnit u) := by
  have hu : u.toNat < 65536 := u.toNat_lt
  refine WellFormed.ascii fun w hw => ?_
  simp only [escapeUnit, List.mem_cons, List.not_mem_nil, or_false] at hw
  obtain rfl | rfl | rfl | rfl | rfl | rfl := hw
  · decide
  · decide
  · exact hexDigit_ascii _ (by omega)
  · exact hexDigit_ascii _ (by omega)
  · exact hexDigit_ascii _ (by omega)
  · exact hexDigit_ascii _ (by omega)

theorem wellFormed_quoteUnit {u : UInt16} (h : (isHighSurrogate u || isLowSurrogate u) = false) :
    WellFormed (quoteUnit u) := by
  rw [Bool.or_eq_false_iff] at h
  have hshort (e : UInt16) (he : e < 0x80) : WellFormed [92, e] := by
    refine WellFormed.ascii fun w hw => ?_
    simp only [List.mem_cons, List.not_mem_nil, or_false] at hw
    obtain rfl | rfl := hw
    · decide
    · exact he
  unfold quoteUnit
  split
  · exact hshort 34 (by decide)
  split
  · exact hshort 92 (by decide)
  split
  · exact hshort 98 (by decide)
  split
  · exact hshort 102 (by decide)
  split
  · exact hshort 110 (by decide)
  split
  · exact hshort 114 (by decide)
  split
  · exact hshort 116 (by decide)
  split
  · exact wellFormed_escapeUnit u
  · exact .unit h.1 h.2 .nil

theorem wellFormed_quoteBody (s : JsString) : WellFormed (quoteBody s) := by
  induction s using quoteBody.induct with
  | case1 => exact .nil
  | case2 u h =>
    rw [quoteBody, if_pos h]
    exact wellFormed_escapeUnit u
  | case3 u h =>
    rw [quoteBody, if_neg h]
    exact wellFormed_quoteUnit (by simpa using h)
  | case4 u v s h ih =>
    rw [quoteBody, if_pos h]
    rw [Bool.and_eq_true] at h
    exact .pair h.1 h.2 ih
  | case5 u v s h ih =>
    rw [quoteBody, if_neg h]
    refine WellFormed.append ?_ ih
    split
    · exact wellFormed_escapeUnit u
    · rename_i hu
      exact wellFormed_quoteUnit (by simpa using hu)

theorem WellFormed.asciiUnit {u : UInt16} (h : u < 0x80) {s : JsString} (hs : WellFormed s) : WellFormed (u :: s) :=
  .unit (not_surrogate_of_ascii h).1 (not_surrogate_of_ascii h).2 hs

theorem wellFormed_quote (s : JsString) : WellFormed (quote s) :=
  WellFormed.asciiUnit (by decide) ((wellFormed_quoteBody s).append (WellFormed.asciiUnit (by decide) .nil))

mutual

theorem wellFormed_stringify : ∀ v : Json ν, WellFormed (stringify f v)
  | .null => WellFormed.ascii (by rw [stringify]; exact ascii_of_all (by decide))
  | .bool true => WellFormed.ascii (by rw [stringify]; exact ascii_of_all (by decide))
  | .bool false => WellFormed.ascii (by rw [stringify]; exact ascii_of_all (by decide))
  | .num n => WellFormed.ascii (f.ascii n)
  | .str s => wellFormed_quote s
  | .arr l => WellFormed.asciiUnit (by decide)
      ((wellFormed_stringifyElements l).append (WellFormed.asciiUnit (by decide) .nil))
  | .obj l => WellFormed.asciiUnit (by decide)
      ((wellFormed_stringifyMembers l).append (WellFormed.asciiUnit (by decide) .nil))

theorem wellFormed_stringifyElements : ∀ l : List (Json ν), WellFormed (stringifyElements f l)
  | [] => .nil
  | [v] => wellFormed_stringify v
  | v :: w :: l => (wellFormed_stringify v).append
      (WellFormed.asciiUnit (by decide) (wellFormed_stringifyElements (w :: l)))

theorem wellFormed_stringifyMembers : ∀ l : List (JsString × Json ν), WellFormed (stringifyMembers f l)
  | [] => .nil
  | [(k, v)] => (wellFormed_quote k).append (WellFormed.asciiUnit (by decide) (wellFormed_stringify v))
  | (k, v) :: e :: l => (wellFormed_quote k).append (WellFormed.asciiUnit (by decide)
      ((wellFormed_stringify v).append (WellFormed.asciiUnit (by decide) (wellFormed_stringifyMembers (e :: l)))))

end

/-! ## A value is read back -/

/-- A text of a value begins with a unit that is no blank, no closing bracket and no byte-order mark. -/
def Begins (s : JsString) : Prop := ∃ c rest, s = c :: rest ∧ isWhitespace c = false ∧ c ≠ 93 ∧ c ≠ 0xFEFF

theorem begins_stringify (v : Json ν) : Begins (stringify f v) := by
  cases v with
  | null => exact ⟨110, js "ull", rfl, by decide, by decide, by decide⟩
  | bool b =>
    cases b with
    | true => exact ⟨116, js "rue", rfl, by decide, by decide, by decide⟩
    | false => exact ⟨102, js "alse", rfl, by decide, by decide, by decide⟩
  | num n =>
    obtain ⟨c, rest, hformat, hc⟩ := f.starts n
    refine ⟨c, rest, hformat, ?_, ?_, ?_⟩
    · unfold isWhitespace
      obtain rfl | ⟨hlow, hhigh⟩ := hc
      · decide
      · rw [UInt16.le_iff_toNat_le] at hlow
        rw [decide_eq_false_iff_not]
        have hlow : 48 ≤ c.toNat := hlow
        rintro (rfl | rfl | rfl | rfl)
        · exact absurd hlow (by decide)
        · exact absurd hlow (by decide)
        · exact absurd hlow (by decide)
        · exact absurd hlow (by decide)
    · rintro rfl
      obtain hc | ⟨-, hhigh⟩ := hc
      · exact absurd hc (by decide)
      · exact absurd hhigh (by decide)
    · rintro rfl
      obtain hc | ⟨-, hhigh⟩ := hc
      · exact absurd hc (by decide)
      · exact absurd hhigh (by decide)
  | str s => exact ⟨34, _, rfl, by decide, by decide, by decide⟩
  | arr l => exact ⟨91, _, rfl, by decide, by decide, by decide⟩
  | obj l => exact ⟨123, _, rfl, by decide, by decide, by decide⟩

theorem skipWhitespace_cons {c : UInt16} (h : isWhitespace c = false) (s : JsString) :
    skipWhitespace (c :: s) = c :: s := by
  rw [skipWhitespace, List.dropWhile_cons_of_neg (by simp [h])]

theorem expect_append (literal s : JsString) : expect literal (literal ++ s) = some s := by
  rw [expect, if_pos (by simp), List.drop_left]

/-- The first unit of a number is none of those that begin another value. -/
theorem number_start {c : UInt16} (hc : c = 45 ∨ 48 ≤ c ∧ c ≤ 57) :
    c ≠ 34 ∧ c ≠ 91 ∧ c ≠ 123 ∧ c ≠ 110 ∧ c ≠ 116 ∧ c ≠ 102 := by
  obtain rfl | ⟨hlow, hhigh⟩ := hc
  · decide
  · have hlow : 48 ≤ c.toNat := UInt16.le_iff_toNat_le.mp hlow
    have hhigh : c.toNat ≤ 57 := UInt16.le_iff_toNat_le.mp hhigh
    refine ⟨?_, ?_, ?_, ?_, ?_, ?_⟩ <;>
      · rintro rfl
        revert hlow hhigh
        decide

mutual

theorem parseValue_stringify : ∀ (v : Json ν) (fuel : Nat) (rest : JsString),
    2 * (stringify f v).length + 1 ≤ fuel → Delimited rest →
      parseValue f fuel (stringify f v ++ rest) = some (v, rest)
  | v, 0, rest, hfuel, _ => by omega
  | .null, fuel + 1, rest, _, _ => by
    have h := expect_append (js "ull") rest
    change parseValue f (fuel + 1) (110 :: (js "ull" ++ rest)) = _
    rw [parseValue, skipWhitespace_cons (by decide)]
    simp [h]
  | .bool true, fuel + 1, rest, _, _ => by
    have h := expect_append (js "rue") rest
    change parseValue f (fuel + 1) (116 :: (js "rue" ++ rest)) = _
    rw [parseValue, skipWhitespace_cons (by decide)]
    simp [h]
  | .bool false, fuel + 1, rest, _, _ => by
    have h := expect_append (js "alse") rest
    change parseValue f (fuel + 1) (102 :: (js "alse" ++ rest)) = _
    rw [parseValue, skipWhitespace_cons (by decide)]
    simp [h]
  | .num n, fuel + 1, rest, _, hrest => by
    have hread := f.read_format n rest hrest
    obtain ⟨c, t, hformat, hc⟩ := f.starts n
    obtain ⟨_, _, hbegin, hblank, -, -⟩ := begins_stringify f (.num n)
    rw [stringify] at hbegin ⊢
    rw [hformat] at hread hbegin ⊢
    obtain ⟨rfl, rfl⟩ := List.cons.inj hbegin
    obtain ⟨h₁, h₂, h₃, h₄, h₅, h₆⟩ := number_start hc
    rw [List.cons_append] at hread ⊢
    rw [parseValue, skipWhitespace_cons hblank]
    simp [h₁, h₂, h₃, h₄, h₅, h₆, hread]
  | .str s, fuel + 1, rest, _, _ => by
    rw [stringify, quote, List.cons_append, List.append_assoc, parseValue, skipWhitespace_cons (by decide)]
    simp [readString_quoteBody]
  | .arr [], fuel + 1, rest, _, _ => by
    rw [stringify, stringifyElements, parseValue, List.nil_append, List.cons_append,
      skipWhitespace_cons (by decide)]
    simp [skipWhitespace_cons (show isWhitespace 93 = false by decide)]
  | .arr (v :: l), fuel + 1, rest, hfuel, _ => by
    have hlength : 2 * (stringifyElements f (v :: l)).length + 2 ≤ fuel := by
      rw [stringify, List.length_cons, List.length_append] at hfuel
      omega
    have helements := parseElements_stringify v l fuel rest hlength
    have hbegins : ∃ c t, stringifyElements f (v :: l) ++ 93 :: rest = c :: t ∧ isWhitespace c = false ∧ c ≠ 93 := by
      obtain ⟨c, t, hbegin, hblank, hbracket, -⟩ := begins_stringify f v
      cases l with
      | nil => exact ⟨c, t ++ 93 :: rest, by rw [stringifyElements, hbegin, List.cons_append], hblank, hbracket⟩
      | cons w l => exact ⟨c, _, by rw [stringifyElements, hbegin, List.cons_append, List.cons_append], hblank, hbracket⟩
    obtain ⟨c, t, hbegin, hblank, hbracket⟩ := hbegins
    rw [hbegin] at helements
    rw [stringify, List.cons_append, List.append_assoc, List.singleton_append, hbegin, parseValue,
      skipWhitespace_cons (by decide)]
    simp [skipWhitespace_cons hblank, hbracket, helements]
  | .obj [], fuel + 1, rest, _, _ => by
    rw [stringify, stringifyMembers, parseValue, List.nil_append, List.cons_append,
      skipWhitespace_cons (by decide)]
    simp [skipWhitespace_cons (show isWhitespace 125 = false by decide)]
  | .obj (e :: l), fuel + 1, rest, hfuel, _ => by
    have hlength : 2 * (stringifyMembers f (e :: l)).length + 2 ≤ fuel := by
      rw [stringify, List.length_cons, List.length_append] at hfuel
      omega
    have hmembers := parseMembers_stringify e l fuel rest hlength
    have hbegins : ∃ t, stringifyMembers f (e :: l) ++ 125 :: rest = 34 :: t := by
      obtain ⟨k, v⟩ := e
      cases l with
      | nil => exact ⟨_, by rw [stringifyMembers, quote, List.cons_append, List.cons_append]⟩
      | cons e l => exact ⟨_, by rw [stringifyMembers, quote, List.cons_append, List.cons_append]⟩
    obtain ⟨t, hbegin⟩ := hbegins
    rw [hbegin] at hmembers
    rw [stringify, List.cons_append, List.append_assoc, List.singleton_append, hbegin, parseValue,
      skipWhitespace_cons (by decide)]
    simp [skipWhitespace_cons (show isWhitespace 34 = false by decide), hmembers]

theorem parseElements_stringify : ∀ (v : Json ν) (l : List (Json ν)) (fuel : Nat) (rest : JsString),
    2 * (stringifyElements f (v :: l)).length + 2 ≤ fuel →
      parseElements f fuel (stringifyElements f (v :: l) ++ 93 :: rest) = some (v :: l, rest)
  | v, l, 0, rest, hfuel => by omega
  | v, [], fuel + 1, rest, hfuel => by
    have hvalue := parseValue_stringify v fuel (93 :: rest) (by rw [stringifyElements] at hfuel; omega) (.inr (.inl rfl))
    rw [stringifyElements, parseElements, hvalue]
    simp [skipWhitespace_cons (show isWhitespace 93 = false by decide)]
  | v, w :: l, fuel + 1, rest, hfuel => by
    rw [stringifyElements, List.length_append, List.length_cons] at hfuel
    have hvalue := parseValue_stringify v fuel (44 :: (stringifyElements f (w :: l) ++ 93 :: rest)) (by omega) (.inl rfl)
    have helements := parseElements_stringify w l fuel rest (by omega)
    rw [stringifyElements, List.append_assoc, List.cons_append, parseElements, hvalue]
    simp [skipWhitespace_cons (show isWhitespace 44 = false by decide), helements]

theorem parseMembers_stringify : ∀ (e : JsString × Json ν) (l : List (JsString × Json ν)) (fuel : Nat)
    (rest : JsString), 2 * (stringifyMembers f (e :: l)).length + 2 ≤ fuel →
      parseMembers f fuel (stringifyMembers f (e :: l) ++ 125 :: rest) = some (e :: l, rest)
  | e, l, 0, rest, hfuel => by omega
  | (k, v), [], fuel + 1, rest, hfuel => by
    simp only [stringifyMembers, quote, List.cons_append, List.length_cons, List.length_append] at hfuel
    have hvalue := parseValue_stringify v fuel (125 :: rest) (by omega) (.inr (.inr rfl))
    rw [stringifyMembers, quote, List.cons_append, List.append_assoc, List.cons_append, parseMembers,
      skipWhitespace_cons (by decide)]
    simp [readString_quoteBody, skipWhitespace_cons (show isWhitespace 58 = false by decide),
      skipWhitespace_cons (show isWhitespace 125 = false by decide), hvalue]
  | (k, v), e :: l, fuel + 1, rest, hfuel => by
    simp only [stringifyMembers, quote, List.cons_append, List.length_cons, List.length_append] at hfuel
    have hvalue := parseValue_stringify v fuel (44 :: (stringifyMembers f (e :: l) ++ 125 :: rest)) (by omega)
      (.inl rfl)
    have hmembers := parseMembers_stringify e l fuel rest (by omega)
    rw [stringifyMembers, quote, List.cons_append, List.append_assoc, List.cons_append, parseMembers,
      skipWhitespace_cons (by decide)]
    simp [readString_quoteBody, skipWhitespace_cons (show isWhitespace 58 = false by decide),
      skipWhitespace_cons (show isWhitespace 44 = false by decide), hvalue, hmembers]

end

/-- `JSON.parse` inverts `JSON.stringify`. -/
theorem parse_stringify (v : Json ν) : parse f (stringify f v) = some v := by
  have h := parseValue_stringify f v (2 * (stringify f v).length + 1) [] (Nat.le_refl _) trivial
  rw [List.append_nil] at h
  rw [parse, h]
  rfl

theorem stringify_injective {v w : Json ν} (h : stringify f v = stringify f w) : v = w :=
  Option.some.inj ((parse_stringify f v).symm.trans (h ▸ parse_stringify f w))

/-- The bytes of a text are decoded to it. -/
theorem stringOfUtf8_stringify (v : Json ν) : stringOfUtf8 (encodeUtf8 (stringify f v)) = stringify f v :=
  (wellFormed_stringify f v).stringOfUtf8_encodeUtf8

theorem textDecode_stringify (v : Json ν) : textDecode (encodeUtf8 (stringify f v)) = stringify f v := by
  have hwell := wellFormed_stringify f v
  obtain ⟨c, t, hbegin, -, -, hmark⟩ := begins_stringify f v
  rw [hbegin] at hwell ⊢
  exact hwell.textDecode_encodeUtf8 hmark

/-! ## Natural numbers -/

def isDigit (u : UInt16) : Bool := 48 ≤ u ∧ u ≤ 57

/-- The code unit of a decimal digit. -/
def digitUnit (d : Nat) : UInt16 := UInt16.ofNat (48 + d)

def formatNat (n : Nat) : JsString :=
  if n = 0 then [48] else (Nat.digits 10 n).reverse.map digitUnit

def readNat (s : JsString) : Option (Nat × JsString) :=
  match s.takeWhile isDigit with
  | [] => none
  | ds => some (Nat.ofDigits 10 (ds.reverse.map fun u => u.toNat - 48), s.dropWhile isDigit)

theorem isDigit_digitUnit : ∀ d < 10, isDigit (digitUnit d) = true ∧ (digitUnit d).toNat - 48 = d := by decide

theorem isDigit_formatNat {n : Nat} {u : UInt16} (hu : u ∈ formatNat n) : isDigit u = true := by
  unfold formatNat at hu
  split at hu
  · rw [List.mem_singleton.mp hu]
    decide
  · obtain ⟨d, hd, rfl⟩ := List.mem_map.mp hu
    exact (isDigit_digitUnit d (Nat.digits_lt_base (by decide) (List.mem_reverse.mp hd))).1

theorem formatNat_ne_nil (n : Nat) : formatNat n ≠ [] := by
  unfold formatNat
  split
  · exact List.cons_ne_nil _ _
  · rename_i hn
    simpa [Nat.digits_eq_nil_iff_eq_zero] using hn

theorem ofDigits_formatNat (n : Nat) :
    Nat.ofDigits 10 ((formatNat n).reverse.map fun u => u.toNat - 48) = n := by
  unfold formatNat
  split
  · rename_i hn
    rw [hn]
    rfl
  · have hdigits : ((Nat.digits 10 n).reverse.map digitUnit).reverse.map (fun u => u.toNat - 48) =
        Nat.digits 10 n := by
      rw [← List.map_reverse, List.reverse_reverse, List.map_map]
      refine (List.map_congr_left fun d hd => ?_).trans (List.map_id _)
      exact (isDigit_digitUnit d (Nat.digits_lt_base (by decide) hd)).2
    rw [hdigits, Nat.ofDigits_digits]

theorem span_digits {s rest : JsString} (hs : ∀ u ∈ s, isDigit u = true) (hrest : Delimited rest) :
    (s ++ rest).takeWhile isDigit = s ∧ (s ++ rest).dropWhile isDigit = rest := by
  have hstop : rest.takeWhile isDigit = [] ∧ rest.dropWhile isDigit = rest := by
    cases rest with
    | nil => exact ⟨rfl, rfl⟩
    | cons c rest =>
      have hc : ¬ isDigit c = true := by
        rcases hrest with rfl | rfl | rfl <;> decide
      exact ⟨List.takeWhile_cons_of_neg hc, List.dropWhile_cons_of_neg hc⟩
  rw [List.takeWhile_append_of_pos hs, List.dropWhile_append_of_pos hs, hstop.1, hstop.2, List.append_nil]
  exact ⟨rfl, rfl⟩

def natural : NumberFormat Nat where
  format := formatNat
  read := readNat
  starts n := by
    obtain ⟨c, rest, h⟩ := List.exists_cons_of_ne_nil (formatNat_ne_nil n)
    have hc : isDigit c = true := isDigit_formatNat (h ▸ List.mem_cons_self)
    exact ⟨c, rest, h, .inr (of_decide_eq_true hc)⟩
  ascii n u hu := by
    have hc : 48 ≤ u ∧ u ≤ 57 := of_decide_eq_true (isDigit_formatNat hu)
    exact UInt16.lt_of_le_of_lt hc.2 (by decide)
  read_format n rest hrest := by
    obtain ⟨htake, hdrop⟩ := span_digits (fun u hu => isDigit_formatNat (n := n) hu) hrest
    unfold readNat
    rw [htake, hdrop]
    split
    · exact absurd ‹_› (formatNat_ne_nil n)
    · rw [ofDigits_formatNat]

end JsonText

end Webchannel
