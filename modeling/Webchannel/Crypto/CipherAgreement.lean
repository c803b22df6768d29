import Webchannel.Crypto.ChaCha20Poly1305

/-!
# The browser cipher is the RFC's

Each part of the cipher is compared with its definition in the RFC: a step on numbers with the
operation on words, a loop over an array with the string it leaves, and the masks and carries of
the MAC with arithmetic modulo the prime.
-/

namespace Webchannel.Crypto

open Webchannel.Rfc8439 (leNum leBytes Word State blockNum blocks evalBlocks prime clampMask macData padding)

/-! ## Words -/

theorem ofInt_ushr (n r : Int) : BitVec.ofInt 32 (ushr n r) = BitVec.ofInt 32 n >>> shiftCount r := by
  rw [ushr, BitVec.ofInt_natCast, BitVec.ofNat_toNat, BitVec.setWidth_eq]

theorem ofInt_ushr_zero (n : Int) : BitVec.ofInt 32 (ushr n 0) = BitVec.ofInt 32 n := by
  rw [ofInt_ushr]
  exact BitVec.ushiftRight_zero _

theorem ofInt_bxor (a b : Int) : BitVec.ofInt 32 (bxor a b) = BitVec.ofInt 32 a ^^^ BitVec.ofInt 32 b :=
  BitVec.ofInt_toInt

theorem shiftCount_of_lt {r : Nat} (h : r < 32) : shiftCount r = r := by
  rw [shiftCount, BitVec.ofInt_natCast, BitVec.toNat_ofNat, Nat.mod_eq_of_lt (Nat.lt_of_lt_of_le h (by decide)),
    Nat.mod_eq_of_lt h]

/-- A rotation by two shifts of a signed number is the rotation of the word. -/
theorem ofInt_rotl32 (n : Int) {r : Nat} (h₀ : 0 < r) (h : r < 32) :
    BitVec.ofInt 32 (rotl32 n r) = (BitVec.ofInt 32 n).rotateLeft r := by
  have hsub : (32 - (r : Int)) = ((32 - r : Nat) : Int) := by omega
  unfold rotl32
  rw [ofInt_ushr_zero, bor, BitVec.ofInt_toInt, shl, BitVec.ofInt_toInt, ofInt_ushr, hsub, shiftCount_of_lt h,
    shiftCount_of_lt (by omega), BitVec.rotateLeft_def, Nat.mod_eq_of_lt h]

@[simp] theorem ofInt_read (s : Uint32Array) (i : Fin 16) : BitVec.ofInt 32 (s.read i) = s i := by
  rw [Uint32Array.read, BitVec.ofInt_natCast, BitVec.ofNat_toNat, BitVec.setWidth_eq]

theorem write_add (s : Uint32Array) (a b : Fin 16) :
    s.write a (ushr (s.read a + s.read b) 0) = Function.update s a (s a + s b) := by
  rw [Uint32Array.write, ofInt_ushr_zero, BitVec.ofInt_add, ofInt_read, ofInt_read]

theorem write_rotl32 (s : Uint32Array) (d a : Fin 16) {r : Nat} (h₀ : 0 < r) (h : r < 32) :
    s.write d (rotl32 (bxor (s.read d) (s.read a)) r) = Function.update s d ((s d ^^^ s a).rotateLeft r) := by
  rw [Uint32Array.write, ofInt_rotl32 _ h₀ h, ofInt_bxor, ofInt_read, ofInt_read]

/-- Four distinct elements are replaced as in the RFC. -/
theorem quarterRound_eq (s : Uint32Array) {a b c d : Fin 16} (hab : a ≠ b) (hac : a ≠ c) (had : a ≠ d)
    (hbc : b ≠ c) (hbd : b ≠ d) (hcd : c ≠ d) :
    quarterRound s a b c d = Rfc8439.quarterRoundAt s a b c d := by
  have h16 (s : Uint32Array) (d a : Fin 16) :
      s.write d (rotl32 (bxor (s.read d) (s.read a)) 16) = Function.update s d ((s d ^^^ s a).rotateLeft 16) :=
    write_rotl32 s d a (r := 16) (by decide) (by decide)
  have h12 (s : Uint32Array) (d a : Fin 16) :
      s.write d (rotl32 (bxor (s.read d) (s.read a)) 12) = Function.update s d ((s d ^^^ s a).rotateLeft 12) :=
    write_rotl32 s d a (r := 12) (by decide) (by decide)
  have h8 (s : Uint32Array) (d a : Fin 16) :
      s.write d (rotl32 (bxor (s.read d) (s.read a)) 8) = Function.update s d ((s d ^^^ s a).rotateLeft 8) :=
    write_rotl32 s d a (r := 8) (by decide) (by decide)
  have h7 (s : Uint32Array) (d a : Fin 16) :
      s.write d (rotl32 (bxor (s.read d) (s.read a)) 7) = Function.update s d ((s d ^^^ s a).rotateLeft 7) :=
    write_rotl32 s d a (r := 7) (by decide) (by decide)
  funext i
  simp only [quarterRound, Rfc8439.quarterRoundAt, Rfc8439.quarterRound, write_add, h16, h12, h8, h7,
    Function.update_apply, hab, hac, had, hbc, hbd, hcd, hab.symm, hac.symm, had.symm, hbc.symm, hbd.symm,
    hcd.symm, if_true, if_false]
  by_cases ha : i = a
  · subst ha
    simp [hab, hac, had]
  · by_cases hb : i = b
    · subst hb
      simp [ha]
    · by_cases hc : i = c
      · subst hc
        simp [ha, hb]
      · by_cases hd : i = d
        · subst hd
          simp [ha, hb, hc]
        · simp [ha, hb, hc, hd]

theorem doubleRound_eq (s : Uint32Array) : doubleRound s = Rfc8439.innerBlock s := by
  unfold doubleRound Rfc8439.innerBlock
  rw [quarterRound_eq s, quarterRound_eq, quarterRound_eq, quarterRound_eq, quarterRound_eq, quarterRound_eq,
    quarterRound_eq, quarterRound_eq]
  all_goals decide

theorem foldl_doubleRound (n : Nat) (s : Uint32Array) :
    (List.range n).foldl (fun s _ => doubleRound s) s = Rfc8439.innerBlock^[n] s := by
  induction n with
  | zero => rfl
  | succ n ih =>
    rw [List.range_succ, List.foldl_append, ih, Function.iterate_succ_apply']
    exact doubleRound_eq _

/-! ## Arrays that are filled from left to right -/

theorem setAt_append (done rest src : Bytes) :
    setAt (done ++ rest) done.length src = done ++ src ++ rest.drop src.length := by
  rw [setAt, List.take_left, List.drop_append, List.drop_of_length_le (Nat.le_add_right _ _),
    Nat.add_sub_cancel_left, List.nil_append]

theorem foldl_setAt {ι : Type} {k : Nat} (off : ι → Nat) (f : ι → Bytes) (hf : ∀ i, (f i).length = k)
    (l : List ι) (done : Bytes) (hoff : ∀ j (h : j < l.length), off l[j] = done.length + k * j) :
    l.foldl (fun out i => setAt out (off i) (f i)) (done ++ List.replicate (k * l.length) 0) =
      done ++ l.flatMap f := by
  induction l generalizing done with
  | nil => simp
  | cons a l ih =>
    have hfirst : off a = done.length := by simpa using hoff 0 (Nat.zero_lt_succ _)
    have hrest : (List.replicate (k * (a :: l).length) (0 : UInt8)).drop (f a).length =
        List.replicate (k * l.length) 0 := by
      rw [List.drop_replicate, hf, List.length_cons, Nat.mul_succ, Nat.add_sub_cancel]
    rw [List.foldl_cons, hfirst, setAt_append, hrest, ih (done ++ f a) fun j hj => ?_, List.flatMap_cons,
      List.append_assoc]
    have hnext := hoff (j + 1) (Nat.succ_lt_succ hj)
    rw [List.getElem_cons_succ] at hnext
    rw [hnext, List.length_append, hf, Nat.mul_succ]
    omega

/-! ## The block function -/

theorem initialWords_eq (key : Vector UInt8 32) (counter : Int) (nonce : Vector UInt8 12) :
    (fun i : Fin 16 => BitVec.ofInt 32 ((initialWords key counter nonce).getD i.val 0)) =
      Rfc8439.initState key (BitVec.ofInt 32 counter) nonce := by
  funext i
  fin_cases i <;> simp [initialWords, Rfc8439.initState, ofInt_ushr_zero, getUint32, Rfc8439.wordAt]

theorem toNat_ushr_add (s t : Uint32Array) (i : Fin 16) :
    (ushr (s.read i + t.read i) 0).toNat = (s i + t i).toNat := by
  have hword : BitVec.ofInt 32 (s.read i + t.read i) = s i + t i := by
    rw [BitVec.ofInt_add, ofInt_read, ofInt_read]
  rw [ushr, hword]
  rfl

theorem foldl_serialize (s : State) :
    (List.finRange 16).foldl (fun out i => setAt out (4 * i.val) (leBytes 4 (s i).toNat))
      (List.replicate 64 0) = Rfc8439.serialize s := by
  have hfill := foldl_setAt (fun i : Fin 16 => 4 * i.val) (fun i => leBytes 4 (s i).toNat)
    (fun i => Rfc8439.length_leBytes 4 _) (List.finRange 16) [] fun j hj => by simp
  rw [List.length_finRange, List.nil_append, List.nil_append] at hfill
  exact hfill

theorem chacha20Block_eq (key : Vector UInt8 32) (counter : Int) (nonce : Vector UInt8 12) :
    chacha20Block key counter nonce = Rfc8439.block key (BitVec.ofInt 32 counter) nonce := by
  unfold chacha20Block Rfc8439.block
  rw [initialWords_eq]
  dsimp only
  rw [foldl_doubleRound]
  simp only [toNat_ushr_add]
  rw [foldl_serialize]

/-! ## The stream -/

theorem foldl_set (g : Nat → UInt8) (out : Bytes) (base n : Nat) (h : base + n ≤ out.length) :
    (List.range n).foldl (fun out i => out.set (base + i) (g i)) out =
      out.take base ++ (List.range n).map g ++ out.drop (base + n) := by
  induction n with
  | zero => simp
  | succ n ih =>
    have hlen : (out.take base ++ (List.range n).map g).length = base + n := by
      rw [List.length_append, List.length_take, List.length_map, List.length_range, Nat.min_eq_left (by omega)]
    have hdrop : out.drop (base + n) = out[base + n] :: out.drop (base + (n + 1)) := List.drop_eq_getElem_cons h
    rw [List.range_succ, List.foldl_append, ih (by omega), List.foldl_cons, List.foldl_nil, hdrop,
      List.set_append_right _ _ (by omega), hlen, Nat.sub_self, List.set_cons_zero, List.map_append,
      List.map_cons, List.map_nil]
    simp

/-- The piece of the encrypted data that one block covers. -/
theorem take_drop_encrypt (key : Vector UInt8 32) (nonce : Vector UInt8 12) (counter : Nat) (data : Bytes)
    (b : Nat) :
    ((Rfc8439.encrypt key (BitVec.ofNat 32 counter) nonce data).drop (b * 64)).take 64 =
      (List.range (min 64 (data.length - b * 64))).map fun i => data.getD (b * 64 + i) 0 ^^^
        (chacha20Block key ((counter + b : Nat) : Int) nonce).getD i 0 := by
  refine List.ext_getElem (by simp) fun i h₁ h₂ => ?_
  have hi : i < 64 := by simp at h₁; omega
  have hdata : b * 64 + i < data.length := by simp at h₁; omega
  have hblock : (b * 64 + i) / 64 = b := by omega
  have hbyte : (b * 64 + i) % 64 = i := by omega
  have hget : data.getD (b * 64 + i) 0 = data[b * 64 + i] := by simp [List.getD, hdata]
  have hencrypt := Rfc8439.getElem_encrypt key (BitVec.ofNat 32 counter) nonce data hdata
  rw [List.get_eq_getElem] at hencrypt
  rw [List.getElem_take, List.getElem_drop, List.getElem_map, List.getElem_range, hencrypt, hget,
    Rfc8439.keystream, hblock, hbyte, chacha20Block_eq, BitVec.ofInt_natCast, BitVec.ofNat_add]

/-- One block: the prefix that is encrypted grows by its bytes. -/
theorem xorBlock_eq (key : Vector UInt8 32) (nonce : Vector UInt8 12) (counter : Nat) (data : Bytes) (b : Nat)
    (h : b * 64 ≤ data.length) :
    xorBlock data (chacha20Block key ((counter + b : Nat) : Int) nonce)
        ((Rfc8439.encrypt key (BitVec.ofNat 32 counter) nonce data).take (b * 64) ++
          List.replicate (data.length - b * 64) 0) (b * 64) =
      (Rfc8439.encrypt key (BitVec.ofNat 32 counter) nonce data).take ((b + 1) * 64) ++
        List.replicate (data.length - (b + 1) * 64) 0 := by
  have hprefix : ((Rfc8439.encrypt key (BitVec.ofNat 32 counter) nonce data).take (b * 64)).length = b * 64 := by
    rw [List.length_take, Rfc8439.length_encrypt]
    omega
  have hrest : ((Rfc8439.encrypt key (BitVec.ofNat 32 counter) nonce data).take (b * 64) ++
      List.replicate (data.length - b * 64) (0 : UInt8)).drop (b * 64 + min 64 (data.length - b * 64)) =
        List.replicate (data.length - (b + 1) * 64) 0 := by
    rw [List.drop_append, hprefix, List.drop_of_length_le (by omega), List.nil_append, List.drop_replicate]
    congr 1
    omega
  unfold xorBlock
  rw [foldl_set _ _ _ _ (by rw [List.length_append, hprefix, List.length_replicate]; omega), hrest,
    List.take_left' hprefix, ← take_drop_encrypt, Nat.add_mul, Nat.one_mul, List.take_add]

theorem chacha20Loop_eq (key : Vector UInt8 32) (nonce : Vector UInt8 12) (counter : Nat) (data : Bytes)
    (b : Nat) :
    chacha20Loop key nonce counter data b
      ((Rfc8439.encrypt key (BitVec.ofNat 32 counter) nonce data).take (b * 64) ++
        List.replicate (data.length - b * 64) 0) =
      Rfc8439.encrypt key (BitVec.ofNat 32 counter) nonce data := by
  -- Induction on the bytes that are left.
  induction hn : data.length - b * 64 using Nat.strongRecOn generalizing b with
  | ind n ih =>
    rw [chacha20Loop]
    split
    · rename_i hlt
      dsimp only
      rw [← hn, xorBlock_eq key nonce counter data b (Nat.le_of_lt hlt)]
      exact ih _ (by omega) (b + 1) rfl
    · rw [List.take_of_length_le (by rw [Rfc8439.length_encrypt]; omega), show n = 0 by omega]
      simp

theorem chacha20_eq (key : Vector UInt8 32) (nonce : Vector UInt8 12) (counter : Nat) (data : Bytes) :
    chacha20 key nonce counter data = Rfc8439.encrypt key (BitVec.ofNat 32 counter) nonce data := by
  have hloop := chacha20Loop_eq key nonce counter data 0
  rw [Nat.zero_mul, List.take_zero, List.nil_append, Nat.sub_zero] at hloop
  exact hloop

/-! ## The MAC -/

/-- Disjoint bits are added by the or. -/
theorem or_shiftLeft {x n : Nat} (h : x < 2 ^ n) (y : Nat) : x ||| (y <<< n) = x + y * 2 ^ n := by
  rw [Nat.or_comm, ← Nat.shiftLeft_add_eq_or_of_lt h, Nat.shiftLeft_eq, Nat.add_comm]

theorem decodeLE_eq (bs : Bytes) (n : Nat) (h : n ≤ bs.length) : decodeLE bs n = leNum (bs.take n) := by
  induction n with
  | zero => rfl
  | succ n ih =>
    have hlen : (bs.take n).length = n := by rw [List.length_take, Nat.min_eq_left (by omega)]
    have hlt := Rfc8439.leNum_lt (bs.take n)
    have hget : bs.getD n 0 = bs[n] := by simp [List.getD, Nat.lt_of_succ_le h]
    rw [hlen, show (256 : Nat) = 2 ^ 8 from rfl, ← Nat.pow_mul, Nat.mul_comm] at hlt
    have hstep : decodeLE bs (n + 1) = decodeLE bs n ||| ((bs.getD n 0).toNat <<< (n * 8)) := by
      unfold decodeLE
      rw [List.range_succ, List.foldl_append]
      rfl
    rw [hstep, ih (by omega), or_shiftLeft hlt, List.take_succ_eq_append_getElem h, Rfc8439.leNum_append, hlen,
      hget, Rfc8439.leNum, Rfc8439.leNum, Nat.mul_comm n 8, Nat.pow_mul]
    ring

theorem encodeTag_eq (n a : Nat) : encodeTag n a = leBytes n a := by
  induction n generalizing a with
  | zero => rfl
  | succ n ih =>
    have hbyte : UInt8.ofNat (a &&& 0xff) = UInt8.ofNat a := by
      rw [show (0xff : Nat) = 2 ^ 8 - 1 from rfl, Nat.and_two_pow_sub_one_eq_mod]
      exact UInt8.ofNat_mod_size
    rw [encodeTag, leBytes, hbyte, ih, Nat.shiftRight_eq_div_pow]

/-- Two numbers whose low bytes are split off meet byte by byte. -/
theorem and_add_mul (x y : UInt8) (m n : Nat) :
    (x.toNat + 256 * m) &&& (y.toNat + 256 * n) = (x &&& y).toNat + 256 * (m &&& n) := by
  have hx : x.toNat < 2 ^ 8 := x.toNat_lt
  have hy : y.toNat < 2 ^ 8 := y.toNat_lt
  have hxy : (x &&& y).toNat < 2 ^ 8 := (x &&& y).toNat_lt
  rw [Nat.mul_comm 256 m, Nat.mul_comm 256 n, Nat.mul_comm 256, show (256 : Nat) = 2 ^ 8 from rfl,
    ← or_shiftLeft hx, ← or_shiftLeft hy, ← or_shiftLeft hxy]
  refine Nat.eq_of_testBit_eq fun i => ?_
  simp only [Nat.testBit_and, Nat.testBit_or, Nat.testBit_shiftLeft, UInt8.toNat_and]
  rcases Nat.lt_or_ge i 8 with hi | hi
  · simp [Nat.not_le.mpr hi]
  · have high (z : Nat) (hz : z < 2 ^ 8) : z.testBit i = false :=
      Nat.testBit_lt_two_pow (Nat.lt_of_lt_of_le hz (Nat.pow_le_pow_right (by omega) hi))
    simp [hi, high _ hx, high _ hy]

/-- A mask on every byte is a mask on the number. -/
theorem leNum_zipWith_and (xs ys : Bytes) (h : xs.length = ys.length) :
    leNum (List.zipWith (· &&& ·) xs ys) = leNum xs &&& leNum ys := by
  induction xs generalizing ys with
  | nil => simp [leNum]
  | cons x xs ih =>
    cases ys with
    | nil => cases h
    | cons y ys =>
      rw [List.zipWith_cons_cons, leNum, leNum, leNum, ih ys (Nat.succ.inj h), and_add_mul]

/-- The masks of `clampBytes`, byte by byte. -/
def clampMasks : Bytes :=
  [0xff, 0xff, 0xff, 0x0f, 0xfc, 0xff, 0xff, 0x0f, 0xfc, 0xff, 0xff, 0x0f, 0xfc, 0xff, 0xff, 0x0f]

theorem clampBytes_eq (bs : Bytes) (h : bs.length = 16) : clampBytes bs = List.zipWith (· &&& ·) bs clampMasks := by
  obtain ⟨b₀, b₁, b₂, b₃, b₄, b₅, b₆, b₇, b₈, b₉, b₁₀, b₁₁, b₁₂, b₁₃, b₁₄, b₁₅, rfl⟩ :
      ∃ b₀ b₁ b₂ b₃ b₄ b₅ b₆ b₇ b₈ b₉ b₁₀ b₁₁ b₁₂ b₁₃ b₁₄ b₁₅,
        bs = [b₀, b₁, b₂, b₃, b₄, b₅, b₆, b₇, b₈, b₉, b₁₀, b₁₁, b₁₂, b₁₃, b₁₄, b₁₅] := by
    match bs, h with
    | [b₀, b₁, b₂, b₃, b₄, b₅, b₆, b₇, b₈, b₉, b₁₀, b₁₁, b₁₂, b₁₃, b₁₄, b₁₅], _ =>
      exact ⟨b₀, b₁, b₂, b₃, b₄, b₅, b₆, b₇, b₈, b₉, b₁₀, b₁₁, b₁₂, b₁₃, b₁₄, b₁₅, rfl⟩
  have hone (b : UInt8) : b &&& 0xff = b := UInt8.and_neg_one
  simp [clampBytes, maskByte, clampMasks, hone]

/-- The clamped first half of the key. -/
theorem decodeLE_clampBytes (bs : Bytes) (h : bs.length = 16) :
    decodeLE (clampBytes bs) 16 = leNum bs &&& clampMask := by
  have hlen : (List.zipWith (· &&& ·) bs clampMasks).length = 16 := by
    rw [List.length_zipWith, h]
    rfl
  rw [clampBytes_eq bs h, decodeLE_eq _ _ (by omega), List.take_of_length_le (by omega),
    leNum_zipWith_and bs clampMasks (by rw [h]; rfl), show leNum clampMasks = clampMask by decide]

/-- A chunk with the padding bit. -/
theorem decodeLE_padding (c : Bytes) : decodeLE c c.length ||| (1 <<< (c.length * 8)) = blockNum c := by
  have hlt := Rfc8439.leNum_lt c
  rw [show (256 : Nat) = 2 ^ 8 from rfl, ← Nat.pow_mul, Nat.mul_comm] at hlt
  rw [decodeLE_eq c _ (Nat.le_refl _), List.take_length, or_shiftLeft hlt, Nat.one_mul, blockNum,
    show (256 : Nat) = 2 ^ 8 from rfl, ← Nat.pow_mul, Nat.mul_comm c.length 8]

/-- The loop is Horner's rule for the polynomial of what is left. -/
theorem accumulate_eq (r : Nat) (msg : Bytes) (i a : Nat) :
    ((accumulate r msg i a : Nat) : ZMod prime) =
      a * (r : ZMod prime) ^ (blocks (msg.drop i)).length + evalBlocks r (blocks (msg.drop i)) := by
  -- Induction on the bytes that are left.
  induction hn : msg.length - i using Nat.strongRecOn generalizing i a with
  | ind n ih =>
    rw [accumulate]
    split
    · rename_i hlt
      have hne : msg.drop i ≠ [] := by
        intro h
        have := congrArg List.length h
        rw [List.length_drop, List.length_nil] at this
        omega
      have hchunk : (msg.take (min (i + 16) msg.length)).drop i = (msg.drop i).take 16 := by
        rw [List.take_drop, Nat.add_comm i 16]
        congr 1
        rcases Nat.le_total (16 + i) msg.length with h | h
        · rw [Nat.min_eq_left h]
        · rw [Nat.min_eq_right h, List.take_length, List.take_of_length_le h]
      have hcast (n : Nat) : ((n % (1 <<< 130 - 5) : Nat) : ZMod prime) = n := by
        rw [show 1 <<< 130 - 5 = prime by decide, ZMod.natCast_mod]
      have hblocks : blocks (msg.drop i) = (msg.drop i).take 16 :: blocks (msg.drop (i + 16)) := by
        rw [blocks, if_neg hne, List.drop_drop]
      dsimp only
      rw [ih _ (by omega) (i + 16) _ rfl, hcast, hchunk, decodeLE_padding, hblocks, evalBlocks, List.length_cons]
      push_cast
      ring
    · have hnil : msg.drop i = [] := List.drop_of_length_le (by omega)
      rw [hnil, blocks, if_pos rfl]
      simp [evalBlocks]

theorem accumulate_lt (r : Nat) (msg : Bytes) (i a : Nat) (h : a < prime) : accumulate r msg i a < prime := by
  induction hn : msg.length - i using Nat.strongRecOn generalizing i a with
  | ind n ih =>
    rw [accumulate]
    split
    · dsimp only
      exact ih _ (by omega) (i + 16) _ (Nat.mod_lt _ (by decide)) rfl
    · exact h

theorem poly1305_eq (key msg : Bytes) (h : key.length = 32) : poly1305 key msg = Rfc8439.poly1305 key msg := by
  have hr : (key.take 16).length = 16 := by rw [List.length_take]; omega
  have hs : (key.drop 16).length = 16 := by rw [List.length_drop]; omega
  have hacc := accumulate_eq (leNum (key.take 16) &&& clampMask) msg 0 0
  rw [Nat.cast_zero, zero_mul, zero_add, List.drop_zero] at hacc
  have hval := congrArg ZMod.val hacc
  rw [ZMod.val_natCast, Nat.mod_eq_of_lt (accumulate_lt _ _ _ _ (by decide))] at hval
  unfold poly1305 Rfc8439.poly1305
  dsimp only
  rw [decodeLE_clampBytes _ hr, decodeLE_eq _ _ (by omega), hval, encodeTag_eq,
    show (0xFFFFFFFFFFFFFFFFFFFFFFFFFFFFFFFF : Nat) = 2 ^ 128 - 1 from rfl, Nat.and_two_pow_sub_one_eq_mod]

/-! ## The AEAD -/

/-- Zeros that are overwritten from the left. -/
theorem setAt_zeros (done src : Bytes) (n : Nat) :
    setAt (done ++ List.replicate (src.length + n) 0) done.length src = done ++ src ++ List.replicate n 0 := by
  rw [setAt_append, List.drop_replicate, Nat.add_sub_cancel_left]

theorem buildMacInput_eq (aad ciphertext : Bytes) : buildMacInput aad ciphertext = macData aad ciphertext := by
  have hlens : setAt (setAt (List.replicate 16 0) 0 (leBytes 8 aad.length)) 8 (leBytes 8 ciphertext.length) =
      leBytes 8 aad.length ++ leBytes 8 ciphertext.length := by
    have hfirst := setAt_zeros [] (leBytes 8 aad.length) 8
    have hsecond := setAt_zeros (leBytes 8 aad.length) (leBytes 8 ciphertext.length) 0
    rw [Rfc8439.length_leBytes] at hfirst hsecond
    rw [Rfc8439.length_leBytes, List.replicate_zero, List.append_nil] at hsecond
    exact (congrArg (setAt · 8 _) hfirst).trans hsecond
  have haad := setAt_zeros [] aad (pad16 aad.length + (ciphertext.length + (pad16 ciphertext.length + 16)))
  have hciphertext := setAt_zeros (aad ++ padding aad) ciphertext (pad16 ciphertext.length + 16)
  have hlast := setAt_zeros (aad ++ padding aad ++ ciphertext ++ padding ciphertext)
    (leBytes 8 aad.length ++ leBytes 8 ciphertext.length) 0
  have hpad (bs : Bytes) : (padding bs).length = pad16 bs.length := List.length_replicate
  have hgap (done bs : Bytes) (n : Nat) :
      done ++ List.replicate (pad16 bs.length + n) 0 = done ++ padding bs ++ List.replicate n 0 := by
    rw [List.replicate_add, ← List.append_assoc]
    rfl
  rw [List.nil_append, List.length_nil, List.nil_append, hgap] at haad
  rw [hgap, List.length_append, hpad] at hciphertext
  rw [List.length_append, List.length_append, List.length_append, List.length_append, hpad, hpad, Rfc8439.length_leBytes, Rfc8439.length_leBytes, Nat.add_zero, List.replicate_zero, List.append_nil,
    ← List.append_assoc] at hlast
  have htotal : aad.length + pad16 aad.length + ciphertext.length + pad16 ciphertext.length + 16 =
      aad.length + (pad16 aad.length + (ciphertext.length + (pad16 ciphertext.length + 16))) := by omega
  unfold buildMacInput macData
  dsimp only
  rw [hlens, htotal, haad, hciphertext]
  exact hlast

theorem foldl_or_eq_zero {ι : Type} (f : ι → Nat) (l : List ι) (d : Nat) :
    l.foldl (fun d i => d ||| f i) d = 0 ↔ d = 0 ∧ ∀ i ∈ l, f i = 0 := by
  induction l generalizing d with
  | nil => simp
  | cons a l ih => rw [List.foldl_cons, ih, Nat.or_eq_zero_iff, List.forall_mem_cons, and_assoc]

/-- The comparison goes over all the bytes. -/
theorem timingSafeEqual_iff (a b : Bytes) : timingSafeEqual a b = true ↔ a = b := by
  unfold timingSafeEqual
  split
  · rename_i hne
    constructor
    · intro h
      cases h
    · rintro rfl
      exact absurd rfl hne
  · rename_i hlen
    have hlen : a.length = b.length := not_not.mp hlen
    rw [decide_eq_true_iff, foldl_or_eq_zero]
    constructor
    · intro ⟨_, h⟩
      refine List.ext_getElem hlen fun i h₁ h₂ => ?_
      have hi := h i (List.mem_range.mpr h₁)
      rw [← UInt8.toNat_xor] at hi
      have := UInt8.xor_eq_zero_iff.mp (UInt8.toNat_inj.mp hi)
      simpa [List.getD, h₁, h₂] using this
    · rintro rfl
      exact ⟨rfl, fun i _ => Nat.xor_self _⟩

/-- The one-time key of both directions. -/
theorem poly1305_otk (key : Vector UInt8 32) (nonce : Vector UInt8 12) (ciphertext aad : Bytes) :
    poly1305 ((chacha20Block key 0 nonce).take 32) (buildMacInput aad ciphertext) =
      Rfc8439.tag key nonce ciphertext aad := by
  have hblock := chacha20Block_eq key 0 nonce
  rw [hblock, buildMacInput_eq, poly1305_eq _ _ (by rw [List.length_take, Rfc8439.length_block]; rfl)]
  rfl

theorem chacha20poly1305Encrypt_eq (key : Vector UInt8 32) (nonce : Vector UInt8 12) (plaintext aad : Bytes) :
    chacha20poly1305Encrypt key nonce plaintext aad =
      ⟨Rfc8439.encrypt key 1 nonce plaintext,
        Rfc8439.tag key nonce (Rfc8439.encrypt key 1 nonce plaintext) aad⟩ := by
  unfold chacha20poly1305Encrypt
  dsimp only
  rw [poly1305_otk, chacha20_eq]
  rfl

theorem chacha20poly1305Decrypt_eq (key : Vector UInt8 32) (nonce : Vector UInt8 12)
    (ciphertext tag aad : Bytes) :
    chacha20poly1305Decrypt key nonce ciphertext tag aad =
      if tag = Rfc8439.tag key nonce ciphertext aad then .ok (Rfc8439.encrypt key 1 nonce ciphertext)
      else .error .authenticationFailed := by
  unfold chacha20poly1305Decrypt
  dsimp only
  rw [poly1305_otk, chacha20_eq]
  by_cases h : tag = Rfc8439.tag key nonce ciphertext aad
  · rw [if_pos h, if_neg (by rw [(timingSafeEqual_iff _ _).mpr h]; decide)]
    rfl
  · rw [if_neg h, if_pos (Bool.not_eq_true _ ▸ fun ht => h ((timingSafeEqual_iff _ _).mp ht))]

/-- The browser cipher is the AEAD of the RFC: what it seals is the RFC's ciphertext and tag and opens
again, and it opens exactly what carries the RFC's tag. -/
theorem chacha20poly1305_rfc8439 (key : Vector UInt8 32) (nonce : Vector UInt8 12) :
    (∀ plaintext aad : Bytes,
      let box := chacha20poly1305Encrypt key nonce plaintext aad
      (box.ciphertext, box.tag) = Rfc8439.aeadEncrypt key nonce plaintext aad ∧
        chacha20poly1305Decrypt key nonce box.ciphertext box.tag aad = .ok plaintext) ∧
    ∀ ciphertext tag aad : Bytes,
      ((∃ plaintext, chacha20poly1305Decrypt key nonce ciphertext tag aad = .ok plaintext) ↔
        tag.length = 16 ∧ tag = Rfc8439.tag key nonce ciphertext aad) ∧
      (¬ (tag.length = 16 ∧ tag = Rfc8439.tag key nonce ciphertext aad) →
        chacha20poly1305Decrypt key nonce ciphertext tag aad = .error .authenticationFailed) := by
  refine ⟨fun plaintext aad => ?_, fun ciphertext tag aad => ?_⟩
  · dsimp only
    rw [chacha20poly1305Encrypt_eq, chacha20poly1305Decrypt_eq, if_pos rfl, Rfc8439.encrypt_encrypt]
    exact ⟨rfl, rfl⟩
  · have hlen (h : tag = Rfc8439.tag key nonce ciphertext aad) : tag.length = 16 := by
      rw [h, Rfc8439.length_tag]
    rw [chacha20poly1305Decrypt_eq]
    by_cases h : tag = Rfc8439.tag key nonce ciphertext aad
    · rw [if_pos h]
      exact ⟨⟨fun _ => ⟨hlen h, h⟩, fun _ => ⟨_, rfl⟩⟩, fun hn => absurd ⟨hlen h, h⟩ hn⟩
    · rw [if_neg h]
      refine ⟨⟨?_, fun ⟨_, ht⟩ => absurd ht h⟩, fun _ => rfl⟩
      rintro ⟨_, ⟨⟩⟩

end Webchannel.Crypto
