import Webchannel.Lib.JsonText

/-!
# Indented JSON text

`JSON.stringify(value, null, 2)`: every element and member on a line of its own, two blanks deeper than
what holds it. It is read back like the text without blanks.
-/

namespace Webchannel

namespace JsonText

variable {ν : Type} (f : NumberFormat ν)

/-- The next line, at some depth. -/
def newline (depth : Nat) : JsString := 10 :: List.replicate (2 * depth) 32

/-- The line of the closing bracket; nothing is broken when nothing is held. -/
def closing {α : Type} (depth : Nat) (l : List α) : JsString := if l.isEmpty then [] else newline depth

mutual

def stringifyIndented (depth : Nat) : Json ν → JsString
  | .null => js "null"
  | .bool true => js "true"
  | .bool false => js "false"
  | .num n => f.format n
  | .str s => quote s
  | .arr l => 91 :: (indentedElements (depth + 1) l ++ (closing depth l ++ [93]))
  | .obj l => 123 :: (indentedMembers (depth + 1) l ++ (closing depth l ++ [125]))

def indentedElements (depth : Nat) : List (Json ν) → JsString
  | [] => []
  | [v] => newline depth ++ stringifyIndented depth v
  | v :: w :: l => newline depth ++ (stringifyIndented depth v ++ 44 :: indentedElements depth (w :: l))

def indentedMembers (depth : Nat) : List (JsString × Json ν) → JsString
  | [] => []
  | [(k, v)] => newline depth ++ (quote k ++ 58 :: 32 :: stringifyIndented depth v)
  | (k, v) :: e :: l =>
    newline depth ++ (quote k ++ 58 :: 32 :: (stringifyIndented depth v ++ 44 :: indentedMembers depth (e :: l)))

end

/-! ## Blanks -/

theorem isWhitespace_newline {depth : Nat} {u : UInt16} (h : u ∈ newline depth) : isWhitespace u = true := by
  obtain rfl | h := List.mem_cons.mp h
  · decide
  · rw [(List.mem_replicate.mp h).2]
    decide

theorem skipWhitespace_newline (depth : Nat) (s : JsString) : skipWhitespace (newline depth ++ s) = skipWhitespace s :=
  List.dropWhile_append_of_pos fun _ h => isWhitespace_newline h

theorem parseValue_newline (fuel depth : Nat) (s : JsString) :
    parseValue f fuel (newline depth ++ s) = parseValue f fuel s := by
  cases fuel with
  | zero => rfl
  | succ fuel => rw [parseValue, parseValue, skipWhitespace_newline]

theorem parseValue_blank (fuel : Nat) (s : JsString) : parseValue f fuel (32 :: s) = parseValue f fuel s := by
  cases fuel with
  | zero => rfl
  | succ fuel =>
    rw [parseValue, parseValue]
    rfl

theorem parseElements_newline (fuel depth : Nat) (s : JsString) :
    parseElements f fuel (newline depth ++ s) = parseElements f fuel s := by
  cases fuel with
  | zero => rfl
  | succ fuel => rw [parseElements, parseElements, parseValue_newline]

theorem parseMembers_newline (fuel depth : Nat) (s : JsString) :
    parseMembers f fuel (newline depth ++ s) = parseMembers f fuel s := by
  cases fuel with
  | zero => rfl
  | succ fuel => rw [parseMembers, parseMembers, skipWhitespace_newline]

/-! ## A text is well-formed -/

theorem wellFormed_newline (depth : Nat) : WellFormed (newline depth) := by
  refine WellFormed.ascii fun u hu => ?_
  obtain rfl | hu := List.mem_cons.mp hu
  · decide
  · rw [(List.mem_replicate.mp hu).2]
    decide

theorem wellFormed_closing {α : Type} (depth : Nat) (l : List α) : WellFormed (closing depth l) := by
  unfold closing
  split
  · exact .nil
  · exact wellFormed_newline depth

mutual

theorem wellFormed_stringifyIndented : ∀ (depth : Nat) (v : Json ν), WellFormed (stringifyIndented f depth v)
  | _, .null => WellFormed.ascii (by rw [stringifyIndented]; exact ascii_of_all (by decide))
  | _, .bool true => WellFormed.ascii (by rw [stringifyIndented]; exact ascii_of_all (by decide))
  | _, .bool false => WellFormed.ascii (by rw [stringifyIndented]; exact ascii_of_all (by decide))
  | _, .num n => WellFormed.ascii (f.ascii n)
  | _, .str s => wellFormed_quote s
  | depth, .arr l => WellFormed.asciiUnit (by decide) ((wellFormed_indentedElements (depth + 1) l).append
      ((wellFormed_closing depth l).append (WellFormed.asciiUnit (by decide) .nil)))
  | depth, .obj l => WellFormed.asciiUnit (by decide) ((wellFormed_indentedMembers (depth + 1) l).append
      ((wellFormed_closing depth l).append (WellFormed.asciiUnit (by decide) .nil)))

theorem wellFormed_indentedElements : ∀ (depth : Nat) (l : List (Json ν)), WellFormed (indentedElements f depth l)
  | _, [] => .nil
  | depth, [v] => (wellFormed_newline depth).append (wellFormed_stringifyIndented depth v)
  | depth, v :: w :: l => (wellFormed_newline depth).append ((wellFormed_stringifyIndented depth v).append
      (WellFormed.asciiUnit (by decide) (wellFormed_indentedElements depth (w :: l))))

theorem wellFormed_indentedMembers : ∀ (depth : Nat) (l : List (JsString × Json ν)), WellFormed (indentedMembers f depth l)
  | _, [] => .nil
  | depth, [(k, v)] => (wellFormed_newline depth).append ((wellFormed_quote k).append (WellFormed.asciiUnit (by decide)
      (WellFormed.asciiUnit (by decide) (wellFormed_stringifyIndented depth v))))
  | depth, (k, v) :: e :: l => (wellFormed_newline depth).append ((wellFormed_quote k).append
      (WellFormed.asciiUnit (by decide) (WellFormed.asciiUnit (by decide) ((wellFormed_stringifyIndented depth v).append
        (WellFormed.asciiUnit (by decide) (wellFormed_indentedMembers depth (e :: l)))))))

end

/-! ## A value is read back -/

/-- What may follow a value in an indented text. -/
def Follows : JsString → Prop
  | [] => True
  | c :: _ => c = 44 ∨ c = 93 ∨ c = 125 ∨ c = 10

theorem begins_stringifyIndented (depth : Nat) (v : Json ν) : Begins (stringifyIndented f depth v) := by
  cases v with
  | null => exact begins_stringify f .null
  | bool b => cases b <;> exact ⟨_, _, rfl, by decide, by decide, by decide⟩
  | num n => exact begins_stringify f (.num n)
  | str s => exact begins_stringify f (.str s)
  | arr l => exact ⟨91, _, rfl, by decide, by decide, by decide⟩
  | obj l => exact ⟨123, _, rfl, by decide, by decide, by decide⟩

/-- A printed number is read back, whatever follows it in an indented text. -/
def ReadsBack : Prop := ∀ n rest, Follows rest → f.read (f.format n ++ rest) = some (n, rest)

variable {f}

mutual

theorem parseValue_indented (hf : ReadsBack f) : ∀ (v : Json ν) (fuel depth : Nat) (rest : JsString),
    2 * (stringifyIndented f depth v).length + 1 ≤ fuel → Follows rest →
      parseValue f fuel (stringifyIndented f depth v ++ rest) = some (v, rest)
  | v, 0, depth, rest, hfuel, _ => by omega
  | .null, fuel + 1, depth, rest, _, _ => by
    have h := expect_append (js "ull") rest
    change parseValue f (fuel + 1) (110 :: (js "ull" ++ rest)) = _
    rw [parseValue, skipWhitespace_cons (by decide)]
    simp [h]
  | .bool true, fuel + 1, depth, rest, _, _ => by
    have h := expect_append (js "rue") rest
    change parseValue f (fuel + 1) (116 :: (js "rue" ++ rest)) = _
    rw [parseValue, skipWhitespace_cons (by decide)]
    simp [h]
  | .bool false, fuel + 1, depth, rest, _, _ => by
    have h := expect_append (js "alse") rest
    change parseValue f (fuel + 1) (102 :: (js "alse" ++ rest)) = _
    rw [parseValue, skipWhitespace_cons (by decide)]
    simp [h]
  | .num n, fuel + 1, depth, rest, _, hrest => by
    have hread := hf n rest hrest
    obtain ⟨c, t, hformat, hc⟩ := f.starts n
    obtain ⟨_, _, hbegin, hblank, -, -⟩ := begins_stringifyIndented f depth (.num n)
    rw [stringifyIndented] at hbegin ⊢
    rw [hformat] at hread hbegin ⊢
    obtain ⟨rfl, rfl⟩ := List.cons.inj hbegin
    obtain ⟨h₁, h₂, h₃, h₄, h₅, h₆⟩ := number_start hc
    rw [List.cons_append] at hread ⊢
    rw [parseValue, skipWhitespace_cons hblank]
    simp [h₁, h₂, h₃, h₄, h₅, h₆, hread]
  | .str s, fuel + 1, depth, rest, _, _ => by
    rw [stringifyIndented, quote, List.cons_append, List.append_assoc, parseValue, skipWhitespace_cons (by decide)]
    simp [readString_quoteBody]
  | .arr [], fuel + 1, depth, rest, _, _ => by
    rw [stringifyIndented, indentedElements, List.nil_append, List.cons_append, parseValue, skipWhitespace_cons (by decide)]
    simp [closing, skipWhitespace_cons (show isWhitespace 93 = false by decide)]
  | .arr (v :: l), fuel + 1, depth, rest, hfuel, _ => by
    have hlength : 2 * (indentedElements f (depth + 1) (v :: l)).length + 2 ≤ fuel := by
      rw [stringifyIndented, List.length_cons, List.length_append, List.length_append] at hfuel
      simp only [List.length_singleton] at hfuel
      omega
    have helements := parseElements_indented hf v l fuel (depth + 1) depth rest hlength
    obtain ⟨body, hbody, c, t, hbegin, hblank, hbracket⟩ : ∃ body,
        indentedElements f (depth + 1) (v :: l) = newline (depth + 1) ++ body ∧
          ∃ c t, body = c :: t ∧ isWhitespace c = false ∧ c ≠ 93 := by
      obtain ⟨c, t, hbegin, hblank, hbracket, -⟩ := begins_stringifyIndented f (depth + 1) v
      cases l with
      | nil => exact ⟨_, by rw [indentedElements], c, _, hbegin, hblank, hbracket⟩
      | cons w l => exact ⟨_, by rw [indentedElements], c, _, by rw [hbegin, List.cons_append], hblank, hbracket⟩
    rw [hbody, List.append_assoc, parseElements_newline, hbegin, List.cons_append] at helements
    rw [stringifyIndented, hbody, hbegin, List.cons_append, List.append_assoc, List.append_assoc, parseValue,
      skipWhitespace_cons (by decide)]
    simp [closing, skipWhitespace_newline, skipWhitespace_cons hblank, hbracket, helements]
  | .obj [], fuel + 1, depth, rest, _, _ => by
    rw [stringifyIndented, indentedMembers, List.nil_append, List.cons_append, parseValue, skipWhitespace_cons (by decide)]
    simp [closing, skipWhitespace_cons (show isWhitespace 125 = false by decide)]
  | .obj (e :: l), fuel + 1, depth, rest, hfuel, _ => by
    have hlength : 2 * (indentedMembers f (depth + 1) (e :: l)).length + 2 ≤ fuel := by
      rw [stringifyIndented, List.length_cons, List.length_append, List.length_append] at hfuel
      simp only [List.length_singleton] at hfuel
      omega
    have hmembers := parseMembers_indented hf e l fuel (depth + 1) depth rest hlength
    obtain ⟨body, hbody⟩ : ∃ body, indentedMembers f (depth + 1) (e :: l) = newline (depth + 1) ++ 34 :: body := by
      obtain ⟨k, v⟩ := e
      cases l with
      | nil => exact ⟨_, by rw [indentedMembers, quote, List.cons_append]⟩
      | cons e l => exact ⟨_, by rw [indentedMembers, quote, List.cons_append]⟩
    rw [hbody, List.append_assoc, parseMembers_newline, List.cons_append] at hmembers
    rw [stringifyIndented, hbody, List.cons_append, List.append_assoc, List.append_assoc, List.cons_append, parseValue,
      skipWhitespace_cons (by decide)]
    simp [closing, skipWhitespace_newline, skipWhitespace_cons (show isWhitespace 34 = false by decide), hmembers]
termination_by structural _ fuel => fuel

theorem parseElements_indented (hf : ReadsBack f) : ∀ (v : Json ν) (l : List (Json ν)) (fuel depth outer : Nat)
    (rest : JsString), 2 * (indentedElements f depth (v :: l)).length + 2 ≤ fuel →
      parseElements f fuel (indentedElements f depth (v :: l) ++ (newline outer ++ 93 :: rest)) = some (v :: l, rest)
  | v, l, 0, depth, outer, rest, hfuel => by omega
  | v, [], fuel + 1, depth, outer, rest, hfuel => by
    rw [indentedElements, List.length_append] at hfuel
    have hvalue := parseValue_indented hf v fuel depth (newline outer ++ 93 :: rest) (by omega) (.inr (.inr (.inr rfl)))
    rw [indentedElements, List.append_assoc, parseElements_newline, parseElements, hvalue]
    simp [skipWhitespace_newline, skipWhitespace_cons (show isWhitespace 93 = false by decide)]
  | v, w :: l, fuel + 1, depth, outer, rest, hfuel => by
    rw [indentedElements, List.length_append, List.length_append, List.length_cons] at hfuel
    have hvalue := parseValue_indented hf v fuel depth
      (44 :: (indentedElements f depth (w :: l) ++ (newline outer ++ 93 :: rest))) (by omega) (.inl rfl)
    have helements := parseElements_indented hf w l fuel depth outer rest (by omega)
    rw [indentedElements, List.append_assoc, List.append_assoc, List.cons_append, parseElements_newline, parseElements, hvalue]
    simp [skipWhitespace_cons (show isWhitespace 44 = false by decide), helements]
termination_by structural _ _ fuel => fuel

theorem parseMembers_indented (hf : ReadsBack f) : ∀ (e : JsString × Json ν) (l : List (JsString × Json ν))
    (fuel depth outer : Nat) (rest : JsString), 2 * (indentedMembers f depth (e :: l)).length + 2 ≤ fuel →
      parseMembers f fuel (indentedMembers f depth (e :: l) ++ (newline outer ++ 125 :: rest)) = some (e :: l, rest)
  | e, l, 0, depth, outer, rest, hfuel => by omega
  | (k, v), [], fuel + 1, depth, outer, rest, hfuel => by
    simp only [indentedMembers, quote, List.cons_append, List.length_cons, List.length_append] at hfuel
    have hvalue := parseValue_indented hf v fuel depth (newline outer ++ 125 :: rest) (by omega) (.inr (.inr (.inr rfl)))
    rw [indentedMembers, quote, List.append_assoc, parseMembers_newline, List.cons_append, List.cons_append,
      List.append_assoc, List.append_assoc, List.cons_append, parseMembers, skipWhitespace_cons (by decide)]
    simp [readString_quoteBody, skipWhitespace_cons (show isWhitespace 58 = false by decide),
      skipWhitespace_cons (show isWhitespace 125 = false by decide), parseValue_blank, skipWhitespace_newline, hvalue]
  | (k, v), e :: l, fuel + 1, depth, outer, rest, hfuel => by
    simp only [indentedMembers, quote, List.cons_append, List.length_cons, List.length_append] at hfuel
    have hvalue := parseValue_indented hf v fuel depth
      (44 :: (indentedMembers f depth (e :: l) ++ (newline outer ++ 125 :: rest))) (by omega) (.inl rfl)
    have hmembers := parseMembers_indented hf e l fuel depth outer rest (by omega)
    rw [indentedMembers, quote, List.append_assoc, parseMembers_newline, List.cons_append, List.cons_append,
      List.append_assoc, List.append_assoc, List.cons_append, parseMembers, skipWhitespace_cons (by decide)]
    simp [readString_quoteBody, skipWhitespace_cons (show isWhitespace 58 = false by decide),
      skipWhitespace_cons (show isWhitespace 44 = false by decide), parseValue_blank, hvalue, hmembers]
termination_by structural _ _ fuel => fuel

end

/-- `JSON.parse` inverts the indented `JSON.stringify`. -/
theorem parse_stringifyIndented (hf : ReadsBack f) (v : Json ν) : parse f (stringifyIndented f 0 v) = some v := by
  have h := parseValue_indented hf v (2 * (stringifyIndented f 0 v).length + 1) 0 [] (Nat.le_refl _) trivial
  rw [List.append_nil] at h
  rw [parse, h]
  rfl

end JsonText

end Webchannel
