import Mathlib.Algebra.BigOperators.Group.List.Basic
import Mathlib.Data.ZMod.Basic
import Mathlib.Logic.Function.Iterate
import Mathlib.Tactic.Ring
import Webchannel.Lib.Utf8

/-!
# ChaCha20-Poly1305

The AEAD of RFC 8439 over mathematical objects: 32-bit words with their additions modulo 2^32
and their rotations for the cipher, the ring of integers modulo 2^130 - 5 for the MAC, and byte
strings as little-endian numbers. The RFC limits a message to 2^32 - 1 blocks; the block counter
is a word here and wraps beyond that.
-/

namespace Webchannel.Rfc8439

/-! ## Little-endian numbers -/

/-- The number that the bytes denote, the first byte the least significant. -/
def leNum : Bytes → Nat
  | [] => 0
  | b :: rest => b.toNat + 256 * leNum rest

/-- The `n` least significant bytes of a number. -/
def leBytes : Nat → Nat → Bytes
  | 0, _ => []
  | n + 1, x => UInt8.ofNat x :: leBytes n (x / 256)

@[simp] theorem length_leBytes (n x : Nat) : (leBytes n x).length = n := by
  induction n generalizing x with
  | zero => rfl
  | succ n ih => rw [leBytes, List.length_cons, ih]

theorem leNum_lt (bs : Bytes) : leNum bs < 256 ^ bs.length := by
  induction bs with
  | nil => simp [leNum]
  | cons b bs ih =>
    have hb : b.toNat < 256 := b.toNat_lt
    rw [leNum, List.length_cons, Nat.pow_succ]
    omega

theorem leNum_append (xs ys : Bytes) : leNum (xs ++ ys) = leNum xs + 256 ^ xs.length * leNum ys := by
  induction xs with
  | nil => simp [leNum]
  | cons x xs ih =>
    rw [List.cons_append, leNum, leNum, ih, List.length_cons, Nat.pow_succ]
    ring

/-! ## ChaCha20 -/

abbrev Word := BitVec 32

abbrev State := Fin 16 → Word

/-- The indices of a state are literals. -/
instance neZero_sixteen : NeZero 16 := ⟨Nat.succ_ne_zero 15⟩

def quarterRound (a b c d : Word) : Word × Word × Word × Word :=
  let a₁ := a + b
  let d₁ := (d ^^^ a₁).rotateLeft 16
  let c₁ := c + d₁
  let b₁ := (b ^^^ c₁).rotateLeft 12
  let a₂ := a₁ + b₁
  let d₂ := (d₁ ^^^ a₂).rotateLeft 8
  let c₂ := c₁ + d₂
  let b₂ := (b₁ ^^^ c₂).rotateLeft 7
  (a₂, b₂, c₂, d₂)

/-- `QUARTERROUND(x, y, z, w)`: the other words stay. -/
def quarterRoundAt (s : State) (x y z w : Fin 16) : State :=
  let r := quarterRound (s x) (s y) (s z) (s w)
  fun i => if i = x then r.1 else if i = y then r.2.1 else if i = z then r.2.2.1 else
    if i = w then r.2.2.2 else s i

/-- A column round and a diagonal round. -/
def innerBlock (s : State) : State :=
  let s := quarterRoundAt s 0 4 8 12
  let s := quarterRoundAt s 1 5 9 13
  let s := quarterRoundAt s 2 6 10 14
  let s := quarterRoundAt s 3 7 11 15
  let s := quarterRoundAt s 0 5 10 15
  let s := quarterRoundAt s 1 6 11 12
  let s := quarterRoundAt s 2 7 8 13
  quarterRoundAt s 3 4 9 14

/-- Word `i` of a byte string. -/
def wordAt (bs : Bytes) (i : Nat) : Word := BitVec.ofNat 32 (leNum ((bs.drop (4 * i)).take 4))

/-- The constants are the text "expand 32-byte k". -/
def initState (key : Vector UInt8 32) (counter : Word) (nonce : Vector UInt8 12) : State := fun i =>
  if i.val = 0 then 0x61707865 else if i.val = 1 then 0x3320646e
  else if i.val = 2 then 0x79622d32 else if i.val = 3 then 0x6b206574
  else if i.val < 12 then wordAt key.toList (i.val - 4)
  else if i.val = 12 then counter
  else wordAt nonce.toList (i.val - 13)

/-- The words one after the other. -/
def serialize (s : State) : Bytes := (List.finRange 16).flatMap fun i => leBytes 4 (s i).toNat

def block (key : Vector UInt8 32) (counter : Word) (nonce : Vector UInt8 12) : Bytes :=
  let init := initState key counter nonce
  let s := innerBlock^[10] init
  serialize fun i => s i + init i

/-- Byte `j` of the key stream that begins with block `counter`. -/
def keystream (key : Vector UInt8 32) (counter : Word) (nonce : Vector UInt8 12) (j : Nat) : UInt8 :=
  (block key (counter + BitVec.ofNat 32 (j / 64)) nonce).getD (j % 64) 0

def encrypt (key : Vector UInt8 32) (counter : Word) (nonce : Vector UInt8 12) (data : Bytes) : Bytes :=
  data.mapIdx fun j b => b ^^^ keystream key counter nonce j

theorem length_serialize (s : State) : (serialize s).length = 64 := by
  simp [serialize, List.length_flatMap]

@[simp] theorem length_block (key : Vector UInt8 32) (counter : Word) (nonce : Vector UInt8 12) :
    (block key counter nonce).length = 64 := length_serialize _

@[simp] theorem length_encrypt (key : Vector UInt8 32) (counter : Word) (nonce : Vector UInt8 12)
    (data : Bytes) : (encrypt key counter nonce data).length = data.length := List.length_mapIdx

theorem getElem_encrypt (key : Vector UInt8 32) (counter : Word) (nonce : Vector UInt8 12) (data : Bytes)
    {j : Nat} (h : j < data.length) :
    (encrypt key counter nonce data).get ⟨j, by simpa using h⟩ = data[j] ^^^ keystream key counter nonce j := by
  simp [encrypt]

/-- The cipher is its own inverse. -/
theorem encrypt_encrypt (key : Vector UInt8 32) (counter : Word) (nonce : Vector UInt8 12) (data : Bytes) :
    encrypt key counter nonce (encrypt key counter nonce data) = data := by
  unfold encrypt
  rw [List.mapIdx_mapIdx]
  refine List.ext_getElem (by simp) fun j h₁ h₂ => ?_
  rw [List.getElem_mapIdx]
  change (data[j] ^^^ _) ^^^ _ = _
  rw [UInt8.xor_assoc, UInt8.xor_self, UInt8.xor_zero]

/-! ## Poly1305 -/

def prime : Nat := 2 ^ 130 - 5

instance : NeZero prime := ⟨by decide⟩

def clampMask : Nat := 0x0ffffffc0ffffffc0ffffffc0fffffff

/-- The message in blocks of 16 bytes, the last one possibly shorter. -/
def blocks (msg : Bytes) : List Bytes :=
  if msg = [] then [] else msg.take 16 :: blocks (msg.drop 16)
termination_by msg.length
decreasing_by
  have : 0 < msg.length := List.length_pos_iff.mpr ‹_›
  rw [List.length_drop]
  omega

/-- A block with a one behind its last byte. -/
def blockNum (b : Bytes) : Nat := leNum b + 256 ^ b.length

/-- The polynomial of the message at `r`: the first block has the highest power, the last one the
first power. -/
def evalBlocks (r : ZMod prime) : List Bytes → ZMod prime
  | [] => 0
  | b :: rest => blockNum b * r ^ (rest.length + 1) + evalBlocks r rest

def poly1305 (key msg : Bytes) : Bytes :=
  let r := leNum (key.take 16) &&& clampMask
  let s := leNum ((key.drop 16).take 16)
  leBytes 16 (((evalBlocks r (blocks msg)).val + s) % 2 ^ 128)

@[simp] theorem length_poly1305 (key msg : Bytes) : (poly1305 key msg).length = 16 := length_leBytes 16 _

/-! ## The AEAD -/

/-- As many zeros as complete a block of 16 bytes. -/
def padding (bs : Bytes) : Bytes := List.replicate ((16 - bs.length % 16) % 16) 0

def macData (aad ciphertext : Bytes) : Bytes :=
  aad ++ padding aad ++ ciphertext ++ padding ciphertext ++ leBytes 8 aad.length ++
    leBytes 8 ciphertext.length

/-- The tag of a ciphertext: the one-time key is the first half of block 0. -/
def tag (key : Vector UInt8 32) (nonce : Vector UInt8 12) (ciphertext aad : Bytes) : Bytes :=
  poly1305 ((block key 0 nonce).take 32) (macData aad ciphertext)

def aeadEncrypt (key : Vector UInt8 32) (nonce : Vector UInt8 12) (plaintext aad : Bytes) : Bytes × Bytes :=
  let ciphertext := encrypt key 1 nonce plaintext
  (ciphertext, tag key nonce ciphertext aad)

@[simp] theorem length_tag (key : Vector UInt8 32) (nonce : Vector UInt8 12) (ciphertext aad : Bytes) :
    (tag key nonce ciphertext aad).length = 16 := length_poly1305 _ _

end Webchannel.Rfc8439
