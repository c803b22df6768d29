import Webchannel.Lib.Rfc8439

/-!
# The browser cipher

`chacha20poly1305.ts`. A JavaScript number is an integer here (all of them stay below 2^53), and
the shifts and the bitwise operators go through signed 32-bit integers as in the language; a
`Uint32Array` keeps the low 32 bits of what is stored, and a big integer is a natural number.
-/

namespace Webchannel.Crypto

open Webchannel.Rfc8439

/-! ## JavaScript arithmetic -/

/-- The count of a shift: the low five bits. -/
def shiftCount (r : Int) : Nat := (BitVec.ofInt 32 r).toNat % 32

/-- `n << r` -/
def shl (n r : Int) : Int := (BitVec.ofInt 32 n <<< shiftCount r).toInt

/-- `n >>> r` -/
def ushr (n r : Int) : Int := (BitVec.ofInt 32 n >>> shiftCount r).toNat

/-- `a | b` -/
def bor (a b : Int) : Int := (BitVec.ofInt 32 a ||| BitVec.ofInt 32 b).toInt

/-- `a ^ b` -/
def bxor (a b : Int) : Int := (BitVec.ofInt 32 a ^^^ BitVec.ofInt 32 b).toInt

/-- The 16 elements of the state array. -/
abbrev Uint32Array := Fin 16 → BitVec 32

def Uint32Array.read (s : Uint32Array) (i : Fin 16) : Int := (s i).toNat

def Uint32Array.write (s : Uint32Array) (i : Fin 16) (n : Int) : Uint32Array :=
  Function.update s i (BitVec.ofInt 32 n)

/-- `TypedArray.prototype.set`. -/
def setAt (out : Bytes) (off : Nat) (src : Bytes) : Bytes := out.take off ++ src ++ out.drop (off + src.length)

/-! ## ChaCha20 -/

def rotl32 (n r : Int) : Int := ushr (bor (shl n r) (ushr n (32 - r))) 0

def quarterRound (s : Uint32Array) (a b c d : Fin 16) : Uint32Array :=
  let s := s.write a (ushr (s.read a + s.read b) 0)
  let s := s.write d (rotl32 (bxor (s.read d) (s.read a)) 16)
  let s := s.write c (ushr (s.read c + s.read d) 0)
  let s := s.write b (rotl32 (bxor (s.read b) (s.read c)) 12)
  let s := s.write a (ushr (s.read a + s.read b) 0)
  let s := s.write d (rotl32 (bxor (s.read d) (s.read a)) 8)
  let s := s.write c (ushr (s.read c + s.read d) 0)
  s.write b (rotl32 (bxor (s.read b) (s.read c)) 7)

def doubleRound (s : Uint32Array) : Uint32Array :=
  let s := quarterRound s 0 4 8 12
  let s := quarterRound s 1 5 9 13
  let s := quarterRound s 2 6 10 14
  let s := quarterRound s 3 7 11 15
  let s := quarterRound s 0 5 10 15
  let s := quarterRound s 1 6 11 12
  let s := quarterRound s 2 7 8 13
  quarterRound s 3 4 9 14

/-- `getUint32(4 * i, true)` of a view of the bytes. -/
def getUint32 (bs : Bytes) (i : Nat) : Int := leNum ((bs.drop (4 * i)).take 4)

/-- `new Uint32Array([...])` -/
def initialWords (key : Vector UInt8 32) (counter : Int) (nonce : Vector UInt8 12) : List Int :=
  [0x61707865, 0x3320646e, 0x79622d32, 0x6b206574,
    getUint32 key.toList 0, getUint32 key.toList 1, getUint32 key.toList 2, getUint32 key.toList 3,
    getUint32 key.toList 4, getUint32 key.toList 5, getUint32 key.toList 6, getUint32 key.toList 7,
    ushr counter 0, getUint32 nonce.toList 0, getUint32 nonce.toList 1, getUint32 nonce.toList 2]

def chacha20Block (key : Vector UInt8 32) (counter : Int) (nonce : Vector UInt8 12) : Bytes :=
  let init : Uint32Array := fun i => BitVec.ofInt 32 ((initialWords key counter nonce).getD i.val 0)
  let s := (List.range 10).foldl (fun s _ => doubleRound s) init
  (List.finRange 16).foldl
    (fun out i => setAt out (4 * i.val) (leBytes 4 (ushr (s.read i + init.read i) 0).toNat))
    (List.replicate 64 0)

/-- The bytes of one block. -/
def xorBlock (data block out : Bytes) (base : Nat) : Bytes :=
  (List.range (min 64 (data.length - base))).foldl
    (fun out i => out.set (base + i) (data.getD (base + i) 0 ^^^ block.getD i 0)) out

/-- The loop over the blocks, from `blockIdx` on. -/
def chacha20Loop (key : Vector UInt8 32) (nonce : Vector UInt8 12) (counter : Nat) (data : Bytes)
    (blockIdx : Nat) (out : Bytes) : Bytes :=
  if blockIdx * 64 < data.length then
    let block := chacha20Block key ((counter + blockIdx : Nat) : Int) nonce
    chacha20Loop key nonce counter data (blockIdx + 1) (xorBlock data block out (blockIdx * 64))
  else out
termination_by data.length - blockIdx * 64

def chacha20 (key : Vector UInt8 32) (nonce : Vector UInt8 12) (counter : Nat) (data : Bytes) : Bytes :=
  chacha20Loop key nonce counter data 0 (List.replicate data.length 0)

/-! ## Poly1305 -/

/-- The loop that decodes `n` bytes as a little-endian big integer. -/
def decodeLE (bs : Bytes) (n : Nat) : Nat :=
  (List.range n).foldl (fun r i => r ||| ((bs.getD i 0).toNat <<< (i * 8))) 0

def maskByte (bs : Bytes) (i : Nat) (mask : UInt8) : Bytes := bs.set i (bs.getD i 0 &&& mask)

def clampBytes (rBytes : Bytes) : Bytes :=
  let rBytes := maskByte rBytes 3 0x0f
  let rBytes := maskByte rBytes 7 0x0f
  let rBytes := maskByte rBytes 11 0x0f
  let rBytes := maskByte rBytes 15 0x0f
  let rBytes := maskByte rBytes 4 0xfc
  let rBytes := maskByte rBytes 8 0xfc
  maskByte rBytes 12 0xfc

/-- The loop over the message, from byte `i` on. -/
def accumulate (r : Nat) (msg : Bytes) (i : Nat) (a : Nat) : Nat :=
  if i < msg.length then
    let chunk := (msg.take (min (i + 16) msg.length)).drop i
    let n := decodeLE chunk chunk.length ||| (1 <<< (chunk.length * 8))
    accumulate r msg (i + 16) (((a + n) * r) % (1 <<< 130 - 5))
  else a
termination_by msg.length - i

/-- The loop that writes the tag. -/
def encodeTag : Nat → Nat → Bytes
  | 0, _ => []
  | n + 1, a => UInt8.ofNat (a &&& 0xff) :: encodeTag n (a >>> 8)

def poly1305 (key msg : Bytes) : Bytes :=
  let r := decodeLE (clampBytes (key.take 16)) 16
  let s := decodeLE (key.drop 16) 16
  let a := accumulate r msg 0 0
  encodeTag 16 ((a + s) &&& 0xFFFFFFFFFFFFFFFFFFFFFFFFFFFFFFFF)

def timingSafeEqual (a b : Bytes) : Bool :=
  if a.length ≠ b.length then false
  else (List.range a.length).foldl (fun diff i => diff ||| ((a.getD i 0).toNat ^^^ (b.getD i 0).toNat)) 0 = 0

/-! ## The AEAD -/

def pad16 (len : Nat) : Nat := (16 - len % 16) % 16

def buildMacInput (aad ciphertext : Bytes) : Bytes :=
  let aadPad := pad16 aad.length
  let ctPad := pad16 ciphertext.length
  let lens := setAt (setAt (List.replicate 16 0) 0 (leBytes 8 aad.length)) 8 (leBytes 8 ciphertext.length)
  let out := List.replicate (aad.length + aadPad + ciphertext.length + ctPad + 16) 0
  let out := setAt out 0 aad
  let out := setAt out (aad.length + aadPad) ciphertext
  setAt out (aad.length + aadPad + ciphertext.length + ctPad) lens

structure Sealed where
  ciphertext : Bytes
  tag : Bytes
  deriving DecidableEq, Repr

def chacha20poly1305Encrypt (key : Vector UInt8 32) (nonce : Vector UInt8 12) (plaintext aad : Bytes) : Sealed :=
  let otk := (chacha20Block key 0 nonce).take 32
  let ciphertext := chacha20 key nonce 1 plaintext
  ⟨ciphertext, poly1305 otk (buildMacInput aad ciphertext)⟩

inductive CipherError where
  | authenticationFailed
  deriving DecidableEq, Repr

def chacha20poly1305Decrypt (key : Vector UInt8 32) (nonce : Vector UInt8 12) (ciphertext tag aad : Bytes) :
    Except CipherError Bytes :=
  let otk := (chacha20Block key 0 nonce).take 32
  let expectedTag := poly1305 otk (buildMacInput aad ciphertext)
  if timingSafeEqual tag expectedTag = false then .error .authenticationFailed
  else .ok (chacha20 key nonce 1 ciphertext)

end Webchannel.Crypto
