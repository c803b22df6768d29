import Mathlib.Data.List.TakeWhile
import Webchannel.Lib.JsString

/-!
# Base64

`btoa` and `atob` as in the browser, and the unpadded URL alphabet. Three bytes are four digits
of six bits; the decoder drops the bits that are left over at the end.
-/

namespace Webchannel

namespace Base64

/-- The digits of some bytes. -/
def sextets : Bytes → List Nat
  | [] => []
  | [a] => [a.toNat / 4, a.toNat % 4 * 16]
  | [a, b] => [a.toNat / 4, a.toNat % 4 * 16 + b.toNat / 16, b.toNat % 16 * 4]
  | a :: b :: c :: rest =>
    a.toNat / 4 :: (a.toNat % 4 * 16 + b.toNat / 16) :: (b.toNat % 16 * 4 + c.toNat / 64) :: (c.toNat % 64) ::
      sextets rest

/-- The bytes of some digits. -/
def octets : List Nat → Bytes
  | a :: b :: c :: d :: rest =>
    UInt8.ofNat (a * 4 + b / 16) :: UInt8.ofNat (b % 16 * 16 + c / 4) :: UInt8.ofNat (c % 4 * 64 + d) :: octets rest
  | [a, b, c] => [UInt8.ofNat (a * 4 + b / 16), UInt8.ofNat (b % 16 * 16 + c / 4)]
  | [a, b] => [UInt8.ofNat (a * 4 + b / 16)]
  | _ => []

/-- A digit of the standard alphabet. -/
def digit (n : Nat) : UInt16 :=
  if n < 26 then UInt16.ofNat (65 + n)
  else if n < 52 then UInt16.ofNat (71 + n)
  else if n < 62 then UInt16.ofNat (n - 4)
  else if n = 62 then 43
  else 47

def value (u : UInt16) : Option Nat :=
  if 65 ≤ u ∧ u ≤ 90 then some (u.toNat - 65)
  else if 97 ≤ u ∧ u ≤ 122 then some (u.toNat - 71)
  else if 48 ≤ u ∧ u ≤ 57 then some (u.toNat + 4)
  else if u = 43 then some 62
  else if u = 47 then some 63
  else none

def btoa (bs : Bytes) : JsString :=
  (sextets bs).map digit ++ List.replicate ((4 - (sextets bs).length % 4) % 4) 61

/-- One padding sign at the end. -/
def dropPadding (s : JsString) : JsString := if s.getLast? = some 61 then s.dropLast else s

def isWhitespace (u : UInt16) : Bool := u = 9 ∨ u = 10 ∨ u = 12 ∨ u = 13 ∨ u = 32

/-- Forgiving decoding; `none` where it throws. -/
def atob (s : JsString) : Option Bytes :=
  let s := s.filter fun u => ¬ isWhitespace u
  let s := if s.length % 4 = 0 then dropPadding (dropPadding s) else s
  if s.length % 4 = 1 then none else (s.mapM value).map octets

/-- `+` and `/` become `-` and `_`. -/
def toUrl (u : UInt16) : UInt16 := if u = 43 then 45 else if u = 47 then 95 else u

def ofUrl (u : UInt16) : UInt16 := if u = 45 then 43 else if u = 95 then 47 else u

/-- The unpadded encoding with the URL alphabet. -/
def base64url (bs : Bytes) : JsString := (sextets bs).map fun n => toUrl (digit n)

/-- `Buffer.from(s, "base64url")`: either alphabet, up to the first padding sign, whatever else it holds skipped. -/
def bufferFrom (s : JsString) : Bytes := octets ((s.takeWhile (· ≠ 61)).filterMap fun u => value (ofUrl u))

/-! ## The round trip -/

theorem sextets_lt {bs : Bytes} : ∀ n ∈ sextets bs, n < 64 := by
  induction bs using sextets.induct with
  | case1 => simp [sextets]
  | case2 a =>
    have := a.toNat_lt
    simp only [sextets, List.mem_cons, List.not_mem_nil, or_false, forall_eq_or_imp, forall_eq]
    omega
  | case3 a b =>
    have := a.toNat_lt
    have := b.toNat_lt
    simp only [sextets, List.mem_cons, List.not_mem_nil, or_false, forall_eq_or_imp, forall_eq]
    omega
  | case4 a b c rest ih =>
    have := a.toNat_lt
    have := b.toNat_lt
    have := c.toNat_lt
    simp only [sextets, List.mem_cons, forall_eq_or_imp]
    exact ⟨by omega, by omega, by omega, by omega, ih⟩

theorem octets_sextets (bs : Bytes) : octets (sextets bs) = bs := by
  induction bs using sextets.induct with
  | case1 => rfl
  | case2 a =>
    have := a.toNat_lt
    rw [sextets, octets, show a.toNat / 4 * 4 + a.toNat % 4 * 16 / 16 = a.toNat by omega, UInt8.ofNat_toNat]
  | case3 a b =>
    have := a.toNat_lt
    have := b.toNat_lt
    rw [sextets, octets, show a.toNat / 4 * 4 + (a.toNat % 4 * 16 + b.toNat / 16) / 16 = a.toNat by omega,
      show (a.toNat % 4 * 16 + b.toNat / 16) % 16 * 16 + b.toNat % 16 * 4 / 4 = b.toNat by omega,
      UInt8.ofNat_toNat, UInt8.ofNat_toNat]
  | case4 a b c rest ih =>
    have := a.toNat_lt
    have := b.toNat_lt
    have := c.toNat_lt
    rw [sextets, octets, show a.toNat / 4 * 4 + (a.toNat % 4 * 16 + b.toNat / 16) / 16 = a.toNat by omega,
      show (a.toNat % 4 * 16 + b.toNat / 16) % 16 * 16 + (b.toNat % 16 * 4 + c.toNat / 64) / 4 = b.toNat by omega,
      show (b.toNat % 16 * 4 + c.toNat / 64) % 4 * 64 + c.toNat % 64 = c.toNat by omega,
      UInt8.ofNat_toNat, UInt8.ofNat_toNat, UInt8.ofNat_toNat, ih]

/-- No encoding leaves one digit over. -/
theorem length_sextets_mod (bs : Bytes) : (sextets bs).length % 4 ≠ 1 := by
  induction bs using sextets.induct with
  | case1 => simp [sextets]
  | case2 a => simp [sextets]
  | case3 a b => simp [sextets]
  | case4 a b c rest ih =>
    simp only [sextets, List.length_cons]
    omega

theorem sextets_eq_nil {bs : Bytes} : sextets bs = [] ↔ bs = [] := by
  constructor
  · intro h
    rw [← octets_sextets bs, h]
    rfl
  · rintro rfl
    rfl

theorem value_digit : ∀ n < 64, value (digit n) = some n := by decide

theorem digit_plain : ∀ n < 64, isWhitespace (digit n) = false ∧ digit n ≠ 61 := by decide

theorem ofUrl_toUrl_digit : ∀ n < 64, ofUrl (toUrl (digit n)) = digit n := by decide

theorem mapM_value {l : List Nat} (h : ∀ n ∈ l, n < 64) : (l.map digit).mapM value = some l := by
  induction l with
  | nil => rfl
  | cons n l ih =>
    rw [List.map_cons, List.mapM_cons, value_digit n (h n (.head _)), ih fun m hm => h m (.tail _ hm)]
    rfl

theorem dropPadding_digits {l : List Nat} (h : ∀ n ∈ l, n < 64) : dropPadding (l.map digit) = l.map digit := by
  unfold dropPadding
  rw [if_neg]
  intro hlast
  obtain ⟨n, hn, hdigit⟩ := List.mem_map.mp (List.mem_of_getLast? hlast)
  exact (digit_plain n (h n hn)).2 hdigit

theorem dropPadding_append (s : JsString) : dropPadding (s ++ [61]) = s := by
  unfold dropPadding
  rw [if_pos (by simp), List.dropLast_concat]

/-- At most two padding signs behind the digits are dropped again. -/
theorem dropPadding_dropPadding {l : List Nat} (h : ∀ n ∈ l, n < 64) {k : Nat} (hk : k ≤ 2) :
    dropPadding (dropPadding (l.map digit ++ List.replicate k 61)) = l.map digit := by
  obtain rfl | rfl | rfl : k = 0 ∨ k = 1 ∨ k = 2 := by omega
  · rw [List.replicate_zero, List.append_nil, dropPadding_digits h, dropPadding_digits h]
  · rw [List.replicate_one, dropPadding_append, dropPadding_digits h]
  · rw [List.replicate_succ', List.replicate_one, ← List.append_assoc, dropPadding_append, dropPadding_append]

theorem atob_digits {l : List Nat} (h : ∀ n ∈ l, n < 64) (hmod : l.length % 4 ≠ 1) :
    atob (l.map digit ++ List.replicate ((4 - l.length % 4) % 4) 61) = some (octets l) := by
  have hfilter : (l.map digit ++ List.replicate ((4 - l.length % 4) % 4) 61).filter (fun u => ¬ isWhitespace u) =
      l.map digit ++ List.replicate ((4 - l.length % 4) % 4) 61 := by
    refine List.filter_eq_self.mpr fun u hu => ?_
    obtain hu | hu := List.mem_append.mp hu
    · obtain ⟨n, hn, rfl⟩ := List.mem_map.mp hu
      simp [(digit_plain n (h n hn)).1]
    · rw [(List.mem_replicate.mp hu).2]
      decide
  have hlength : (l.map digit ++ List.replicate ((4 - l.length % 4) % 4) 61).length % 4 = 0 := by
    rw [List.length_append, List.length_map, List.length_replicate]
    omega
  unfold atob
  dsimp only
  rw [hfilter, if_pos hlength, dropPadding_dropPadding h (by omega), List.length_map, if_neg hmod, mapM_value h]
  rfl

theorem base64url_eq_nil {bs : Bytes} : base64url bs = [] ↔ bs = [] := by
  rw [base64url, List.map_eq_nil_iff, sextets_eq_nil]

theorem value_ofUrl_toUrl_digit : ∀ n < 64, value (ofUrl (toUrl (digit n))) = some n ∧ toUrl (digit n) ≠ 61 := by decide

theorem bufferFrom_digits {l : List Nat} (h : ∀ n ∈ l, n < 64) : bufferFrom (l.map fun n => toUrl (digit n)) = octets l := by
  have htake : (l.map fun n => toUrl (digit n)).takeWhile (· ≠ 61) = l.map fun n => toUrl (digit n) := by
    rw [List.takeWhile_eq_self_iff]
    intro u hu
    obtain ⟨n, hn, rfl⟩ := List.mem_map.mp hu
    exact decide_eq_true (value_ofUrl_toUrl_digit n (h n hn)).2
  have hvalues : (l.map fun n => toUrl (digit n)).filterMap (fun u => value (ofUrl u)) = l := by
    rw [List.filterMap_map]
    refine (List.filterMap_congr fun n hn => ?_).trans List.filterMap_some
    exact (value_ofUrl_toUrl_digit n (h n hn)).1
  unfold bufferFrom
  rw [htake, hvalues]

/-- What is encoded is decoded. -/
theorem bufferFrom_base64url (bs : Bytes) : bufferFrom (base64url bs) = bs := by
  unfold base64url
  rw [bufferFrom_digits sextets_lt, octets_sextets]

end Base64

end Webchannel
