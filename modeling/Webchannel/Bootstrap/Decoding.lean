import Webchannel.Lib.Base64

/-!
# Two decoders of a public key

`base64UrlDecode` of `jwt.ts` pads its input and hands it to `atob`; the other side and the register hop read it with
`Buffer.from`. Which texts the first takes as 32 bytes, and that the second reads the same bytes of them.
-/

namespace Webchannel.Bootstrap

open Base64 (isWhitespace value ofUrl toUrl digit dropPadding octets sextets atob bufferFrom base64url)

/-- `none` where it throws. -/
def base64UrlDecode (input : JsString) : Option Bytes :=
  if input = [] then none
  else
    let std := input.map ofUrl
    match std.length % 4 with
    | 2 => atob (std ++ [61, 61])
    | 3 => atob (std ++ [61])
    | 1 => none
    | _ => atob std

/-- The units that are no blanks. -/
def visible (s : JsString) : JsString := s.filter fun u => ¬ isWhitespace u

def blanks (s : JsString) : Nat := s.length - (visible s).length

def isDigit (u : UInt16) : Bool := (value (ofUrl u)).isSome

/-- 43 digits of either alphabet, perhaps with a padding sign behind them and a number of blanks between them that
leaves the padding right. -/
structure PlainKey (s : JsString) : Prop where
  digits : (dropPadding (visible s)).length = 43
  alphabet : ∀ u ∈ dropPadding (visible s), isDigit u = true
  blanks : blanks s % 4 = 0 ∨ blanks s % 4 = 1 ∧ dropPadding (visible s) = visible s

instance (s : JsString) : Decidable (PlainKey s) :=
  decidable_of_iff
    ((dropPadding (visible s)).length = 43 ∧ (dropPadding (visible s)).all isDigit = true ∧
      (blanks s % 4 = 0 ∨ blanks s % 4 = 1 ∧ dropPadding (visible s) = visible s))
    ⟨fun h => ⟨h.1, List.all_eq_true.mp h.2.1, h.2.2⟩, fun h => ⟨h.digits, List.all_eq_true.mpr h.alphabet, h.blanks⟩⟩

/-! ## Digits, blanks and padding -/

theorem ofUrl_eq_pad {u : UInt16} : ofUrl u = 61 ↔ u = 61 := by
  unfold ofUrl
  split
  · rename_i h
    rw [h]
    decide
  · split
    · rename_i h
      rw [h]
      decide
    · exact Iff.rfl

theorem isWhitespace_ofUrl (u : UInt16) : isWhitespace (ofUrl u) = isWhitespace u := by
  unfold ofUrl
  split
  · rename_i h
    rw [h]
    decide
  · split
    · rename_i h
      rw [h]
      decide
    · rfl

theorem isDigit_plain {u : UInt16} (h : isDigit u = true) : u ≠ 61 ∧ isWhitespace u = false := by
  constructor
  · rintro rfl
    exact absurd h (by decide)
  · cases hblank : isWhitespace u with
    | false => rfl
    | true =>
      unfold isWhitespace at hblank
      obtain rfl | rfl | rfl | rfl | rfl := of_decide_eq_true hblank <;> exact absurd h (by decide)

theorem dropPadding_map (s : JsString) : dropPadding (s.map ofUrl) = (dropPadding s).map ofUrl := by
  have hlast : (s.map ofUrl).getLast? = some 61 ↔ s.getLast? = some 61 := by
    rw [List.getLast?_map, Option.map_eq_some_iff]
    constructor
    · rintro ⟨u, hu, h⟩
      rw [hu, ofUrl_eq_pad.mp h]
    · intro h
      exact ⟨61, h, rfl⟩
  unfold dropPadding
  by_cases h : s.getLast? = some 61
  · rw [if_pos h, if_pos (hlast.mpr h), List.map_dropLast]
  · rw [if_neg h, if_neg fun hp => h (hlast.mp hp)]

/-- What the padding leaves of a text, and the padding. -/
theorem dropPadding_cases (s : JsString) :
    dropPadding s = s ∧ s.getLast? ≠ some 61 ∨ s = dropPadding s ++ [61] := by
  unfold dropPadding
  by_cases h : s.getLast? = some 61
  · rw [if_pos h]
    exact .inr (List.dropLast_append_getLast? 61 h).symm
  · rw [if_neg h]
    exact .inl ⟨rfl, h⟩

theorem mapM_value_isSome {s : JsString} : (∃ l, s.mapM value = some l) ↔ ∀ u ∈ s, (value u).isSome = true := by
  induction s with
  | nil => exact iff_of_true ⟨[], rfl⟩ fun u hu => absurd hu List.not_mem_nil
  | cons u s ih =>
    rw [List.forall_mem_cons, ← ih, List.mapM_cons]
    cases hu : value u with
    | none => exact iff_of_false (fun ⟨l, h⟩ => by cases h) fun h => Bool.false_ne_true h.1
    | some n =>
      constructor
      · rintro ⟨l, h⟩
        cases hs : s.mapM value with
        | none =>
          rw [hs] at h
          cases h
        | some l' => exact ⟨rfl, l', rfl⟩
      · rintro ⟨-, l, hl⟩
        exact ⟨n :: l, by rw [hl]; rfl⟩

theorem mapM_value_length {s : JsString} {l : List Nat} (h : s.mapM value = some l) : l.length = s.length := by
  induction s generalizing l with
  | nil =>
    cases h
    rfl
  | cons u s ih =>
    rw [List.mapM_cons] at h
    obtain ⟨n, -, h⟩ := Option.bind_eq_some_iff.mp h
    obtain ⟨l', hl', h⟩ := Option.bind_eq_some_iff.mp h
    cases h
    rw [List.length_cons, List.length_cons, ih hl']

theorem mapM_value_filterMap {s : JsString} {l : List Nat} (h : s.mapM value = some l) : s.filterMap value = l := by
  induction s generalizing l with
  | nil =>
    cases h
    rfl
  | cons u s ih =>
    rw [List.mapM_cons] at h
    obtain ⟨n, hn, h⟩ := Option.bind_eq_some_iff.mp h
    obtain ⟨l', hl', h⟩ := Option.bind_eq_some_iff.mp h
    cases h
    rw [List.filterMap_cons_some hn, ih hl']

theorem length_octets : ∀ l : List Nat, (octets l).length = l.length / 4 * 3 + (l.length % 4 - 1)
  | [] => rfl
  | [_] => by simp [octets]
  | [_, _] => by simp [octets]
  | [_, _, _] => by simp [octets]
  | a :: b :: c :: d :: rest => by
    have ih := length_octets rest
    rw [octets, List.length_cons, List.length_cons, List.length_cons, ih, List.length_cons, List.length_cons, List.length_cons,
      List.length_cons]
    omega

/-- 32 bytes are what 43 digits stand for. -/
theorem length_octets_eq {l : List Nat} : (octets l).length = 32 ↔ l.length = 43 := by
  rw [length_octets]
  omega

/-! ## What `atob` takes -/

/-- What `atob` looks for digits in. -/
def unpadded (s : JsString) : JsString :=
  if (visible s).length % 4 = 0 then dropPadding (dropPadding (visible s)) else visible s

theorem atob_eq (s : JsString) :
    atob s = if (unpadded s).length % 4 = 1 then none else ((unpadded s).mapM value).map octets := rfl

theorem atob_32 {s : JsString} {bs : Bytes} : atob s = some bs ∧ bs.length = 32 ↔
    (unpadded s).length = 43 ∧ (∀ u ∈ unpadded s, (value u).isSome = true) ∧ bs = octets ((unpadded s).filterMap value) := by
  rw [atob_eq]
  constructor
  · rintro ⟨h, hlength⟩
    split at h
    · cases h
    · obtain ⟨l, hl, rfl⟩ := Option.map_eq_some_iff.mp h
      refine ⟨?_, mapM_value_isSome.mp ⟨l, hl⟩, by rw [mapM_value_filterMap hl]⟩
      rw [← mapM_value_length hl]
      exact length_octets_eq.mp hlength
  · rintro ⟨hlength, hvalues, rfl⟩
    obtain ⟨l, hl⟩ := mapM_value_isSome.mpr hvalues
    rw [if_neg (by omega), hl, mapM_value_filterMap hl]
    exact ⟨rfl, length_octets_eq.mpr ((mapM_value_length hl).trans hlength)⟩

/-! ## What `base64UrlDecode` takes -/

theorem visible_map (s : JsString) : visible (s.map ofUrl) = (visible s).map ofUrl := by
  unfold visible
  rw [List.filter_map]
  refine congrArg (List.map ofUrl) (List.filter_congr fun u _ => ?_)
  rw [Function.comp_apply, isWhitespace_ofUrl]

theorem visible_append_pad (s : JsString) (n : Nat) :
    visible (s ++ List.replicate n 61) = visible s ++ List.replicate n 61 := by
  unfold visible
  rw [List.filter_append]
  refine congrArg _ (List.filter_eq_self.mpr fun u hu => ?_)
  rw [(List.mem_replicate.mp hu).2]
  decide

/-- The padding that is added. -/
def padding (s : JsString) : Nat := (4 - s.length % 4) % 4

theorem base64UrlDecode_eq (s : JsString) : base64UrlDecode s =
    if s = [] ∨ s.length % 4 = 1 then none else atob (s.map ofUrl ++ List.replicate (padding s) 61) := by
  unfold base64UrlDecode padding
  by_cases hnil : s = []
  · rw [if_pos hnil, if_pos (.inl hnil)]
  · rw [if_neg hnil]
    dsimp only
    rw [List.length_map]
    obtain h | h | h | h : s.length % 4 = 0 ∨ s.length % 4 = 1 ∨ s.length % 4 = 2 ∨ s.length % 4 = 3 := by omega
    · rw [h, if_neg (by rintro (h' | h'); exacts [hnil h', by omega])]
      exact congrArg atob (List.append_nil _).symm
    · rw [h, if_pos (.inr rfl)]
      rfl
    · rw [h, if_neg (by rintro (h' | h'); exacts [hnil h', by omega])]
      rfl
    · rw [h, if_neg (by rintro (h' | h'); exacts [hnil h', by omega])]
      rfl

theorem dropPadding_of_digits {s : JsString} (h : ∀ u ∈ s, isDigit u = true) : dropPadding s = s := by
  unfold dropPadding
  rw [if_neg]
  intro hlast
  exact (isDigit_plain (h 61 (List.mem_of_getLast? hlast))).1 rfl

theorem values_map {s : JsString} : (∀ u ∈ s.map ofUrl, (value u).isSome = true) ↔ ∀ u ∈ s, isDigit u = true :=
  List.forall_mem_map

/-- What `atob` makes of the padded text of a plain key. -/
theorem unpadded_of_plain {s : JsString} (h : PlainKey s) :
    unpadded (s.map ofUrl ++ List.replicate (padding s) 61) = (dropPadding (visible s)).map ofUrl := by
  have hlength : (visible s).length ≤ s.length := List.length_filter_le _ _
  have hblanks := h.blanks
  have hdigits := dropPadding_of_digits h.alphabet
  unfold unpadded
  rw [visible_append_pad, visible_map]
  unfold blanks at hblanks
  unfold padding
  obtain ⟨hsame, -⟩ | hpadded := dropPadding_cases (visible s)
  · have hvisible : (visible s).length = 43 := hsame ▸ h.digits
    obtain hzero | ⟨hone, -⟩ := hblanks
    · rw [show (4 - s.length % 4) % 4 = 1 by omega, List.replicate_one, if_pos (by simp [hvisible]), Base64.dropPadding_append,
        dropPadding_map]
    · rw [show (4 - s.length % 4) % 4 = 0 by omega, List.replicate_zero, List.append_nil, if_neg (by simp [hvisible]), hsame]
  · have hvisible : (visible s).length = 44 := by
      rw [hpadded, List.length_append, h.digits]
      rfl
    have hzero : (s.length - (visible s).length) % 4 = 0 := by
      obtain hzero | ⟨-, hsame⟩ := hblanks
      · exact hzero
      · have hlong := congrArg List.length hsame
        rw [h.digits, hvisible] at hlong
        omega
    rw [show (4 - s.length % 4) % 4 = 0 by omega, List.replicate_zero, List.append_nil, if_pos (by simp [hvisible]),
      dropPadding_map, dropPadding_map, hdigits]

theorem length_dropPadding (s : JsString) : (dropPadding s).length = s.length ∧ dropPadding s = s ∨
    (dropPadding s).length + 1 = s.length := by
  obtain ⟨h, -⟩ | h := dropPadding_cases s
  · exact .inl ⟨by rw [h], h⟩
  · exact .inr (by conv_rhs => rw [h, List.length_append, List.length_singleton])

/-- Only a plain key is padded to a text of 43 digits. -/
theorem plain_of_unpadded {s : JsString} (hmod : s.length % 4 ≠ 1)
    (hlength : (unpadded (s.map ofUrl ++ List.replicate (padding s) 61)).length = 43)
    (hvalues : ∀ u ∈ unpadded (s.map ofUrl ++ List.replicate (padding s) 61), (value u).isSome = true) : PlainKey s := by
  have hle : (visible s).length ≤ s.length := List.length_filter_le _ _
  have hpadding : padding s = (4 - s.length % 4) % 4 := rfl
  unfold unpadded at hlength hvalues
  rw [visible_append_pad, visible_map] at hlength hvalues
  have htotal : ((visible s).map ofUrl ++ List.replicate (padding s) 61).length = (visible s).length + padding s := by
    rw [List.length_append, List.length_map, List.length_replicate]
  by_cases hfour : ((visible s).map ofUrl ++ List.replicate (padding s) 61).length % 4 = 0
  · rw [if_pos hfour] at hlength hvalues
    rw [htotal] at hfour
    obtain hp | hp | hp : padding s = 0 ∨ padding s = 1 ∨ padding s = 2 := by omega
    · rw [hp, List.replicate_zero, List.append_nil, dropPadding_map, dropPadding_map, List.length_map] at hlength
      rw [hp, List.replicate_zero, List.append_nil, dropPadding_map, dropPadding_map] at hvalues
      obtain ⟨-, heq⟩ | hsecond := length_dropPadding (dropPadding (visible s))
      · rw [heq] at hlength hvalues
        refine ⟨hlength, values_map.mp hvalues, .inl ?_⟩
        obtain ⟨hfirst, -⟩ | hfirst := length_dropPadding (visible s)
        · omega
        · unfold blanks
          omega
      · obtain ⟨-, heq⟩ | hfirst := length_dropPadding (visible s)
        · rw [heq, heq] at hsecond
          omega
        · omega
    · rw [hp, List.replicate_one, Base64.dropPadding_append, dropPadding_map, List.length_map] at hlength
      rw [hp, List.replicate_one, Base64.dropPadding_append, dropPadding_map] at hvalues
      refine ⟨hlength, values_map.mp hvalues, .inl ?_⟩
      have hfirst := length_dropPadding (visible s)
      unfold blanks
      omega
    · rw [hp, List.replicate_succ', List.replicate_one, ← List.append_assoc, Base64.dropPadding_append,
        Base64.dropPadding_append, List.length_map] at hlength
      omega
  · rw [if_neg hfour] at hlength hvalues
    have hnone : padding s = 0 := by
      by_contra hne
      have hpad := hvalues 61 (List.mem_append_right _ (List.mem_replicate.mpr ⟨hne, rfl⟩))
      exact absurd hpad (by decide)
    rw [hnone, List.replicate_zero, List.append_nil] at hvalues
    have hdigits := values_map.mp hvalues
    have hsame := dropPadding_of_digits hdigits
    rw [htotal, hnone] at hlength
    refine ⟨by rw [hsame]; exact hlength, by rw [hsame]; exact hdigits, .inr ⟨?_, hsame⟩⟩
    unfold blanks
    omega

theorem takeWhile_visible (s : JsString) : (s.takeWhile (· ≠ 61)).filter (fun u => ¬ isWhitespace u) =
    (visible s).takeWhile (· ≠ 61) := by
  unfold visible
  induction s with
  | nil => rfl
  | cons u s ih =>
    by_cases hpad : u = 61
    · rw [hpad, List.takeWhile_cons_of_neg (by decide), List.filter_cons_of_pos (by decide), List.takeWhile_cons_of_neg (by decide)]
      rfl
    · rw [List.takeWhile_cons_of_pos (by simpa using hpad)]
      by_cases hblank : isWhitespace u = true
      · rw [List.filter_cons_of_neg (by simpa using hblank), List.filter_cons_of_neg (by simpa using hblank), ih]
      · rw [List.filter_cons_of_pos (by simpa using hblank), List.filter_cons_of_pos (by simpa using hblank), ih,
          List.takeWhile_cons_of_pos (by simpa using hpad)]

theorem filterMap_visible (s : JsString) : (s.filter fun u => ¬ isWhitespace u).filterMap (fun u => value (ofUrl u)) =
    s.filterMap fun u => value (ofUrl u) := by
  induction s with
  | nil => rfl
  | cons u s ih =>
    by_cases hblank : isWhitespace u = true
    · have hvalue : value (ofUrl u) = none := by
        cases hvalue : value (ofUrl u) with
        | none => rfl
        | some n =>
          have hplain := (@isDigit_plain u (by unfold isDigit; rw [hvalue]; rfl)).2
          rw [hplain] at hblank
          cases hblank
      rw [List.filter_cons_of_neg (by simpa using hblank), ih]
      exact (@List.filterMap_cons_none _ _ (fun u => value (ofUrl u)) u s hvalue).symm
    · rw [List.filter_cons_of_pos (by simpa using hblank), List.filterMap_cons, List.filterMap_cons, ih]

/-- `Buffer.from` reads the digits of a plain key. -/
theorem bufferFrom_plain {s : JsString} (h : PlainKey s) :
    bufferFrom s = octets (((dropPadding (visible s)).map ofUrl).filterMap value) := by
  have htake : (visible s).takeWhile (· ≠ 61) = dropPadding (visible s) := by
    have hall : ∀ u ∈ dropPadding (visible s), decide (u ≠ 61) = true := fun u hu =>
      decide_eq_true (isDigit_plain (h.alphabet u hu)).1
    obtain ⟨hsame, -⟩ | hpadded := dropPadding_cases (visible s)
    · rw [hsame] at hall
      rw [hsame, List.takeWhile_eq_self_iff]
      exact hall
    · rw [hpadded, List.takeWhile_append_of_pos hall, List.takeWhile_cons_of_neg (by decide), List.append_nil, ← hpadded]
  unfold bufferFrom
  rw [← filterMap_visible, takeWhile_visible, htake, List.filterMap_map]
  rfl

/-- `base64UrlDecode` reads 32 bytes of a plain key and of no other text, and they are those that `Buffer.from` reads. -/
theorem base64UrlDecode_32 {s : JsString} {bs : Bytes} :
    base64UrlDecode s = some bs ∧ bs.length = 32 ↔ PlainKey s ∧ bs = bufferFrom s := by
  rw [base64UrlDecode_eq]
  constructor
  · rintro ⟨h, hlength⟩
    by_cases hstop : s = [] ∨ s.length % 4 = 1
    · rw [if_pos hstop] at h
      cases h
    · rw [if_neg hstop] at h
      obtain ⟨h43, hvalues, rfl⟩ := atob_32.mp ⟨h, hlength⟩
      have hplain := plain_of_unpadded (fun hmod => hstop (.inr hmod)) h43 hvalues
      exact ⟨hplain, by rw [bufferFrom_plain hplain, unpadded_of_plain hplain]⟩
  · rintro ⟨hplain, rfl⟩
    have hmod : ¬ (s = [] ∨ s.length % 4 = 1) := by
      have hle : (visible s).length ≤ s.length := List.length_filter_le _ _
      have hdigits := hplain.digits
      have hblanks := hplain.blanks
      have hdrop := length_dropPadding (visible s)
      unfold blanks at hblanks
      rintro (rfl | hone)
      · exact absurd hdigits (by decide)
      · obtain ⟨hsame, -⟩ | hshort := hdrop
        · omega
        · obtain hzero | ⟨-, heq⟩ := hblanks
          · omega
          · rw [heq] at hshort
            omega
    rw [if_neg hmod, atob_32, unpadded_of_plain hplain, List.length_map]
    exact ⟨hplain.digits, values_map.mpr hplain.alphabet, bufferFrom_plain hplain⟩

/-- A segment that was encoded is decoded. -/
theorem base64UrlDecode_base64url {bs : Bytes} (h : bs ≠ []) : base64UrlDecode (base64url bs) = some bs := by
  have hdigits : (base64url bs).map ofUrl = (sextets bs).map digit := by
    unfold base64url
    rw [List.map_map]
    exact List.map_congr_left fun n hn => Base64.ofUrl_toUrl_digit n (Base64.sextets_lt n hn)
  have hlength : (base64url bs).length = (sextets bs).length := List.length_map _
  have hatob := Base64.atob_digits (@Base64.sextets_lt bs) (Base64.length_sextets_mod bs)
  rw [base64UrlDecode_eq, if_neg, hdigits, padding, hlength, hatob, Base64.octets_sextets]
  rw [hlength, Base64.base64url_eq_nil]
  rintro (h' | h')
  · exact h h'
  · exact Base64.length_sextets_mod bs h'

end Webchannel.Bootstrap
