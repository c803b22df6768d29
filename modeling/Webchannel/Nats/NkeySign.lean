import Mathlib.Data.List.DropRight
import Webchannel.Crypto.ChaCha20Poly1305
import Webchannel.Lib.Bits
import Webchannel.Storage.Identity

/-!
# The seed of an NKEY

`nkey-sign.ts`. The decoder shifts five bits of every letter into an accumulator that is never
masked, so the accumulator wraps around as a signed 32-bit integer; the bits it still has to
write are always among the lowest twelve. Letters are those of RFC 4648 without padding.
-/

namespace Webchannel.Nats

open Webchannel.Crypto (shl ushr bor shiftCount)
open Webchannel.Bits
open Webchannel.Storage (trim isTrimmed)

/-- `a & b` -/
def band (a b : Int) : Int := (BitVec.ofInt 32 a &&& BitVec.ofInt 32 b).toInt

def nkeyBase32Alphabet : JsString := js "ABCDEFGHIJKLMNOPQRSTUVWXYZ234567"

/-- `s.indexOf(search)`; `none` for -1. -/
def indexOf (s search : JsString) : Option Nat := s.tails.findIdx? fun rest => search.isPrefixOf rest

/-- The strings that `for … of` takes from a string: a surrogate pair is one of them. -/
def codePoints : JsString → List JsString
  | [] => []
  | [u] => [[u]]
  | u :: v :: rest =>
    if isHighSurrogate u && isLowSurrogate v then [u, v] :: codePoints rest else [u] :: codePoints (v :: rest)

structure Base32State where
  bits : Int := 0
  value : Int := 0
  out : List Int := []

/-- The loop body after the index has been found. -/
def Base32State.take (st : Base32State) (idx : Nat) : Base32State :=
  let value := bor (shl st.value 5) idx
  let bits := st.bits + 5
  if 8 ≤ bits then ⟨bits - 8, value, st.out ++ [band (ushr value (bits - 8)) 0xff]⟩ else ⟨bits, value, st.out⟩

def Base32State.read (st : Base32State) (ch : JsString) : Base32State :=
  match indexOf nkeyBase32Alphabet ch with
  | none => st
  | some idx => st.take idx

def base32Decode (input : JsString) : Bytes := ((codePoints input).foldl Base32State.read {}).out.map UInt8.ofInt

def nkeySeedToRawEd25519Seed (nkeySeed : JsString) : Except JsString Bytes :=
  let decoded := base32Decode (trim nkeySeed)
  if decoded.length < 34 then
    .error (js "nkey-sign: NKEY seed decoded to " ++ js (toString decoded.length) ++ js " bytes (expected >= 34)")
  else .ok ((decoded.take 34).drop 2)

/-! ## The encoding -/

def digit (q : Nat) : UInt16 := nkeyBase32Alphabet.getD q 0

/-- The bits of some bytes. -/
def bitStream (b : Bytes) : List Bool := b.flatMap fun x => bits 8 x.toNat

/-- RFC 4648 base32 without padding. -/
def base32Encode (b : Bytes) : JsString := (quintets (bitStream b)).map fun q => digit (ofBits q)

/-- What is left of a string without the characters outside the alphabet. -/
def withoutStrays (s : JsString) : JsString := s.filter (· ∈ nkeyBase32Alphabet)

/-! ## Characters -/

theorem indexOf_eq_none {s : JsString} {u : UInt16} (h : u ∉ s) (rest : JsString) : indexOf s (u :: rest) = none := by
  unfold indexOf
  rw [List.findIdx?_eq_none_iff]
  intro t ht
  have hsuffix : t <:+ s := (List.mem_tails t s).mp ht
  cases t with
  | nil => rfl
  | cons v t =>
    have hne : u ≠ v := by
      rintro rfl
      exact h (hsuffix.subset (.head _))
    show (u == v && rest.isPrefixOf t) = false
    simp [hne]

/-- A letter of the alphabet is found where it stands. -/
theorem indexOf_digit : ∀ q < 32, indexOf nkeyBase32Alphabet [digit q] = some q ∧ digit q ∈ nkeyBase32Alphabet := by
  decide +kernel

theorem not_surrogate_of_mem {u : UInt16} (h : u ∈ nkeyBase32Alphabet) :
    isHighSurrogate u = false ∧ isLowSurrogate u = false :=
  not_surrogate_of_ascii (ascii_of_all (by decide) u h)

/-- Characters outside the alphabet are passed over. -/
theorem read_codePoints (s : JsString) (st : Base32State) :
    (codePoints s).foldl Base32State.read st = (withoutStrays s).foldl (fun st u => st.read [u]) st := by
  -- A unit on its own is read or, as a stray, leaves the state alone.
  have hone (u : UInt16) (rest : JsString) (st : Base32State)
      (ih : ∀ st, (codePoints rest).foldl Base32State.read st = (withoutStrays rest).foldl (fun st u => st.read [u]) st) :
      (codePoints rest).foldl Base32State.read (st.read [u]) =
        (withoutStrays (u :: rest)).foldl (fun st u => st.read [u]) st := by
    by_cases hu : u ∈ nkeyBase32Alphabet
    · rw [withoutStrays, List.filter_cons_of_pos (by simpa using hu), List.foldl_cons]
      exact ih _
    · have hskip : st.read [u] = st := by rw [Base32State.read, indexOf_eq_none hu]
      rw [withoutStrays, List.filter_cons_of_neg (by simpa using hu), hskip]
      exact ih st
  induction s using codePoints.induct generalizing st with
  | case1 => rfl
  | case2 u => exact hone u [] st fun _ => rfl
  | case3 u v rest hpair ih =>
    obtain ⟨hhigh, hlow⟩ := Bool.and_eq_true_iff.mp hpair
    have hu : u ∉ nkeyBase32Alphabet := fun h => by simp [not_surrogate_of_mem h] at hhigh
    have hv : v ∉ nkeyBase32Alphabet := fun h => by simp [not_surrogate_of_mem h] at hlow
    have hskip : st.read [u, v] = st := by rw [Base32State.read, indexOf_eq_none hu]
    rw [codePoints, if_pos hpair, List.foldl_cons, hskip, ih, withoutStrays, withoutStrays,
      List.filter_cons_of_neg (by simpa using hu), List.filter_cons_of_neg (by simpa using hv)]
  | case4 u v rest hpair ih =>
    rw [codePoints, if_neg hpair, List.foldl_cons]
    exact hone u (v :: rest) st ih

theorem read_digits (qs : List (List Bool)) (h : ∀ q ∈ qs, q.length = 5) (st : Base32State) :
    (qs.map fun q => digit (ofBits q)).foldl (fun st u => st.read [u]) st =
      qs.foldl (fun st q => st.take (ofBits q)) st := by
  induction qs generalizing st with
  | nil => rfl
  | cons q qs ih =>
    have hq : ofBits q < 32 := by
      have hlt := ofBits_lt q
      rwa [h q (.head _)] at hlt
    rw [List.map_cons, List.foldl_cons, List.foldl_cons, Base32State.read, (indexOf_digit _ hq).1]
    exact ih (fun q hq => h q (.tail _ hq)) _

/-! ## The accumulator -/

/-- What has been read is what has been written and fewer than eight bits more; the accumulator
holds the last 32 bits of it. -/
structure Holds (seen : List Bool) (st : Base32State) (rest : List Bool) : Prop where
  written : bitStream (st.out.map UInt8.ofInt) ++ rest = seen
  bits : st.bits = rest.length
  few : rest.length < 8
  value : BitVec.ofInt 32 st.value = BitVec.ofNat 32 (ofBits seen)

theorem value_take {value : Int} {seen q : List Bool} (hvalue : BitVec.ofInt 32 value = BitVec.ofNat 32 (ofBits seen))
    (hq : q.length = 5) :
    BitVec.ofInt 32 (bor (shl value 5) (ofBits q)) = BitVec.ofNat 32 (ofBits (seen ++ q)) := by
  have hlt : ofBits q < 2 ^ 5 := hq ▸ ofBits_lt q
  have hcount : shiftCount 5 = 5 := by decide
  apply BitVec.eq_of_toNat_eq
  rw [bor, BitVec.ofInt_toInt, shl, BitVec.ofInt_toInt, hvalue, hcount, ofBits_append, hq]
  simp only [BitVec.toNat_or, BitVec.toNat_shiftLeft, BitVec.toNat_ofNat, BitVec.ofInt_natCast]
  rw [Nat.mod_eq_of_lt (show ofBits q < 2 ^ 32 by omega)]
  have hshift : (ofBits seen % 2 ^ 32) <<< 5 % 2 ^ 32 = (ofBits seen % 2 ^ 27) <<< 5 := by
    simp only [Nat.shiftLeft_eq]
    omega
  rw [hshift, ← Nat.shiftLeft_add_eq_or_of_lt hlt, Nat.shiftLeft_eq]
  omega

/-- The byte that is written lies in the middle of what has been read. -/
theorem byte_written {value : Int} {high byte low : List Bool}
    (hvalue : BitVec.ofInt 32 value = BitVec.ofNat 32 (ofBits (high ++ byte ++ low))) (hbyte : byte.length = 8)
    (hlow : low.length < 8) : band (ushr value low.length) 0xff = ofBits byte := by
  have hmiddle := ofBits_middle high byte low (w := 32) (by omega)
  have hcount : shiftCount low.length = low.length := by
    unfold shiftCount
    simp only [BitVec.ofInt_natCast, BitVec.toNat_ofNat]
    omega
  have hlt : ofBits byte < 256 := by
    have h := ofBits_lt byte
    rwa [hbyte] at h
  have hnat : (BitVec.ofInt 32 (ushr value low.length) &&& BitVec.ofInt 32 0xff).toNat = ofBits byte := by
    rw [ushr, hvalue, hcount]
    simp only [BitVec.ofInt_natCast, BitVec.toNat_and, BitVec.toNat_ofNat, BitVec.toNat_ushiftRight]
    have hmask (n : Nat) : n &&& 255 = n % 2 ^ 8 := Nat.and_two_pow_sub_one_eq_mod n 8
    have hlow32 : ofBits (high ++ byte ++ low) % 2 ^ 32 / 2 ^ low.length < 2 ^ 32 :=
      (Nat.div_le_self _ _).trans_lt (Nat.mod_lt _ (by decide))
    rw [Nat.shiftRight_eq_div_pow, Nat.mod_eq_of_lt hlow32]
    exact (hmask _).trans (hbyte ▸ hmiddle)
  rw [band, BitVec.toInt_eq_toNat_of_lt (by omega), hnat]

theorem bitStream_append (a b : Bytes) : bitStream (a ++ b) = bitStream a ++ bitStream b := List.flatMap_append

theorem length_bitStream (b : Bytes) : (bitStream b).length = 8 * b.length := by
  induction b with
  | nil => rfl
  | cons x b ih =>
    rw [bitStream, List.flatMap_cons, List.length_append, length_bits, List.length_cons]
    unfold bitStream at ih
    omega

/-- Eight bits are the stream of the byte they spell. -/
theorem bitStream_ofBits {byte : List Bool} (h : byte.length = 8) :
    bitStream [UInt8.ofInt (ofBits byte)] = byte := by
  have hlt : ofBits byte < 256 := by
    have hlt := ofBits_lt byte
    rwa [h] at hlt
  have hbyte : (UInt8.ofInt (ofBits byte)).toNat = ofBits byte := by
    have hmod : ((ofBits byte : Int) % 2 ^ 8).toNat = ofBits byte := by omega
    rw [UInt8.ofInt, hmod, UInt8.toNat_ofNat', Nat.mod_eq_of_lt hlt]
  rw [bitStream, List.flatMap_singleton, hbyte]
  conv_rhs => rw [← bits_ofBits byte, h]

theorem Holds.take {seen rest q : List Bool} {st : Base32State} (h : Holds seen st rest) (hq : q.length = 5) :
    ∃ rest, Holds (seen ++ q) (st.take (ofBits q)) rest := by
  have hvalue := value_take h.value hq
  have hbits : st.bits + 5 = (rest ++ q).length := by
    rw [h.bits, List.length_append, hq]
    rfl
  unfold Base32State.take
  dsimp only
  split
  case isTrue hfull =>
    -- Eight of the bits that were waiting are a byte; the others keep waiting.
    have hlen : 8 ≤ (rest ++ q).length := by omega
    have hbyte : ((rest ++ q).take 8).length = 8 := List.length_take_of_le hlen
    have hlow : ((rest ++ q).drop 8).length < 8 := by
      have hfew := h.few
      simp only [List.length_drop, List.length_append]
      omega
    have hseen : bitStream (st.out.map UInt8.ofInt) ++ (rest ++ q).take 8 ++ (rest ++ q).drop 8 = seen ++ q := by
      rw [List.append_assoc, List.take_append_drop, ← List.append_assoc, h.written]
    have hleft : st.bits + 5 - 8 = (((rest ++ q).drop 8).length : Int) := by
      rw [List.length_drop]
      omega
    rw [hleft]
    have hwritten := byte_written (hseen ▸ hvalue) hbyte hlow
    refine ⟨(rest ++ q).drop 8, ⟨?_, rfl, hlow, hvalue⟩⟩
    have hback : bitStream [UInt8.ofInt (ofBits ((rest ++ q).take 8))] = (rest ++ q).take 8 := bitStream_ofBits hbyte
    rw [hwritten, List.map_append, bitStream_append, List.map_singleton, hback]
    exact hseen
  case isFalse hfull =>
    refine ⟨rest ++ q, ⟨?_, hbits, by omega, hvalue⟩⟩
    rw [← List.append_assoc, h.written]

theorem Holds.run {seen rest : List Bool} {st : Base32State} (h : Holds seen st rest) (qs : List (List Bool))
    (hqs : ∀ q ∈ qs, q.length = 5) :
    ∃ rest, Holds (seen ++ qs.flatten) (qs.foldl (fun st q => st.take (ofBits q)) st) rest := by
  induction qs generalizing seen rest st with
  | nil => exact ⟨rest, by simpa using h⟩
  | cons q qs ih =>
    obtain ⟨rest', hq⟩ := h.take (hqs q (.head _))
    rw [List.flatten_cons, ← List.append_assoc]
    exact ih hq fun q hq => hqs q (.tail _ hq)

theorem holds_start : Holds [] {} [] where
  written := rfl
  bits := rfl
  few := by decide
  value := by decide

/-! ## Decoding what has been encoded -/

/-- A stream that goes on with less than a byte tells its bytes. -/
theorem bitStream_inj {a b : Bytes} {rest pad : List Bool} (h : bitStream a ++ rest = bitStream b ++ pad)
    (hrest : rest.length < 8) (hpad : pad.length < 8) : a = b := by
  induction a generalizing b with
  | nil =>
    cases b with
    | nil => rfl
    | cons x b =>
      have hlen := congrArg List.length h
      simp only [List.length_append, length_bitStream, List.length_cons, List.length_nil] at hlen
      omega
  | cons y a ih =>
    cases b with
    | nil =>
      have hlen := congrArg List.length h
      simp only [List.length_append, length_bitStream, List.length_cons, List.length_nil] at hlen
      omega
    | cons x b =>
      rw [bitStream, bitStream, List.flatMap_cons, List.flatMap_cons, List.append_assoc, List.append_assoc] at h
      obtain ⟨hbyte, htail⟩ := List.append_inj h (by simp)
      have hnat : y.toNat = x.toNat := by
        have hspell := congrArg ofBits hbyte
        rwa [ofBits_bits, ofBits_bits, Nat.mod_eq_of_lt y.toNat_lt, Nat.mod_eq_of_lt x.toNat_lt] at hspell
      rw [UInt8.toNat_inj.mp hnat, ih htail]

/-- Whatever strays stand between the letters, the decoder finds the bytes. -/
theorem base32Decode_of_withoutStrays {s : JsString} {b : Bytes} (h : withoutStrays s = base32Encode b) :
    base32Decode s = b := by
  obtain ⟨pad, hpad, hflat⟩ := flatten_quintets (bitStream b)
  obtain ⟨rest, hrun⟩ := holds_start.run (quintets (bitStream b)) fun q hq => length_of_mem_quintets hq
  rw [base32Decode, read_codePoints, h, base32Encode, read_digits _ fun q hq => length_of_mem_quintets hq]
  rw [List.nil_append, hflat] at hrun
  exact bitStream_inj hrun.written hrun.few (by omega)

theorem withoutStrays_base32Encode (b : Bytes) : withoutStrays (base32Encode b) = base32Encode b := by
  apply List.filter_eq_self.mpr
  intro u hu
  obtain ⟨q, hq, rfl⟩ := List.mem_map.mp hu
  have hlt := ofBits_lt q
  rw [length_of_mem_quintets hq] at hlt
  exact decide_eq_true (indexOf_digit _ hlt).2

/-! ## The seed -/

theorem filter_dropWhile {p q : UInt16 → Bool} (h : ∀ u, p u = true → q u = false) (s : JsString) :
    (s.dropWhile p).filter q = s.filter q := by
  induction s with
  | nil => rfl
  | cons u s ih =>
    by_cases hu : p u = true
    · rw [List.dropWhile_cons_of_pos hu, ih, List.filter_cons_of_neg (by simp [h u hu])]
    · rw [List.dropWhile_cons_of_neg hu]

/-- What `trim` removes is stray. -/
theorem withoutStrays_trim (s : JsString) : withoutStrays (trim s) = withoutStrays s := by
  have hstray : ∀ u, isTrimmed u = true → decide (u ∈ nkeyBase32Alphabet) = false := by
    intro u hu
    have hall : nkeyBase32Alphabet.any isTrimmed = false := by decide
    exact decide_eq_false fun hmem => by simp [List.any_eq_false.mp hall u hmem] at hu
  unfold withoutStrays trim List.rdropWhile
  rw [← List.reverse_inj, ← List.filter_reverse, List.reverse_reverse, filter_dropWhile hstray, List.filter_reverse,
    filter_dropWhile hstray]

/-- Decoding undoes the encoding of any bytes, with characters outside the alphabet anywhere in
it; of two, 32 and two bytes the 32 in the middle are the seed. -/
theorem base32Decode_exact (b : Bytes) :
    base32Decode (base32Encode b) = b ∧
      ∀ s, withoutStrays s = base32Encode b → base32Decode s = b ∧
        ∀ kind seed checksum, b = kind ++ seed ++ checksum → kind.length = 2 → seed.length = 32 →
          checksum.length = 2 → nkeySeedToRawEd25519Seed s = .ok seed := by
  refine ⟨base32Decode_of_withoutStrays (withoutStrays_base32Encode b), fun s hs => ⟨base32Decode_of_withoutStrays hs, ?_⟩⟩
  intro kind seed checksum hb hkind hseed hchecksum
  have hdecoded : base32Decode (trim s) = b := base32Decode_of_withoutStrays ((withoutStrays_trim s).trans hs)
  have hlen : ¬ b.length < 34 := by
    rw [hb]
    simp only [List.length_append]
    omega
  have htake : b.take 34 = kind ++ seed := by
    rw [hb]
    exact List.take_left' (by simp [hkind, hseed])
  unfold nkeySeedToRawEd25519Seed
  dsimp only
  rw [hdecoded, if_neg hlen, htake, List.drop_left' hkind]

/-- A seed with a tab in front, a line break at the end and a hyphen after every letter. -/
theorem base32Decode_exact_strewn :
    nkeySeedToRawEd25519Seed (9 :: (base32Encode ([149, 0] ++ List.replicate 32 171 ++ [7, 255])).flatMap (fun u => [u, 45]) ++
      [10]) = .ok (List.replicate 32 171) :=
  ((base32Decode_exact ([149, 0] ++ List.replicate 32 171 ++ [7, 255])).2 _ (by decide +kernel)).2 [149, 0]
    (List.replicate 32 171) [7, 255] rfl rfl rfl rfl

end Webchannel.Nats
