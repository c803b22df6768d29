import Webchannel.Storage.Documents

/-!
# The digest of a rotation target

`rotationTargetDigest` commits to a tuple and a set of peers: every component is written as UTF-8 behind its length, the
peers in the order of their code units. The hash is a parameter.
-/

namespace Webchannel.Rotation

open Storage (StorageScope)

/-- `writeUInt32BE` -/
def uint32BE (n : Nat) : Bytes :=
  [UInt8.ofNat (n / 2 ^ 24), UInt8.ofNat (n / 2 ^ 16), UInt8.ofNat (n / 2 ^ 8), UInt8.ofNat n]

/-- `none` where the length does not fit and `writeUInt32BE` throws. -/
def frameUtf8 (value : JsString) : Option Bytes :=
  let bytes := encodeUtf8 value
  if bytes.length < 2 ^ 32 then some (uint32BE bytes.length ++ bytes) else none

/-- The order of `sort`. -/
def unitsLe : JsString → JsString → Bool
  | [], _ => true
  | _ :: _, [] => false
  | u :: a, v :: b => u < v || (u = v && unitsLe a b)

def sortUnits (peerIds : List JsString) : List JsString := peerIds.mergeSort unitsLe

/-- What is hashed. -/
def digestInput (scope : StorageScope) (peerIds : List JsString) : Option Bytes :=
  ((js "openclaw-webchannel/rotation-target/v2" :: scope.tenant :: scope.accountId :: sortUnits peerIds).mapM frameUtf8).map
    List.flatten

def rotationTargetDigest (sha256Hex : Bytes → JsString) (scope : StorageScope) (peerIds : List JsString) : Option JsString :=
  (digestInput scope peerIds).map sha256Hex

/-! ## Frames can be told apart -/

theorem uint32BE_inj {m n : Nat} (hm : m < 2 ^ 32) (hn : n < 2 ^ 32) (h : uint32BE m = uint32BE n) : m = n := by
  have hbyte {a b : Nat} (heq : UInt8.ofNat a = UInt8.ofNat b) : a % 256 = b % 256 := by
    have hnat := congrArg UInt8.toNat heq
    rwa [UInt8.toNat_ofNat', UInt8.toNat_ofNat'] at hnat
  unfold uint32BE at h
  simp only [List.cons.injEq, and_true] at h
  obtain ⟨h₁, h₂, h₃, h₄⟩ := h
  have h₁ := hbyte h₁
  have h₂ := hbyte h₂
  have h₃ := hbyte h₃
  have h₄ := hbyte h₄
  omega

theorem frameUtf8_append_inj {a b : JsString} {x y s t : Bytes} (ha : frameUtf8 a = some x) (hb : frameUtf8 b = some y)
    (h : x ++ s = y ++ t) : encodeUtf8 a = encodeUtf8 b ∧ s = t := by
  unfold frameUtf8 at ha hb
  dsimp only at ha hb
  split at ha
  · split at hb
    · rename_i hla hlb
      cases ha
      cases hb
      rw [List.append_assoc, List.append_assoc] at h
      obtain ⟨hlength, hrest⟩ := List.append_inj h rfl
      exact List.append_inj hrest (uint32BE_inj hla hlb hlength)
    · cases hb
  · cases ha

theorem frameUtf8_ne_nil {a : JsString} {x : Bytes} (h : frameUtf8 a = some x) : x ≠ [] := by
  unfold frameUtf8 at h
  dsimp only at h
  split at h
  · cases h
    exact List.cons_ne_nil _ _
  · cases h

/-- A sequence of frames determines what was framed, up to the encoding. -/
theorem frames_inj {l l' : List JsString} {fs fs' : List Bytes} (hl : l.mapM frameUtf8 = some fs)
    (hl' : l'.mapM frameUtf8 = some fs') (h : fs.flatten = fs'.flatten) : l.map encodeUtf8 = l'.map encodeUtf8 := by
  induction l generalizing l' fs fs' with
  | nil =>
    cases hl
    cases l' with
    | nil => rfl
    | cons b l' =>
      rw [List.mapM_cons] at hl'
      obtain ⟨y, hy, hl'⟩ := Option.bind_eq_some_iff.mp hl'
      obtain ⟨ys, -, hl'⟩ := Option.bind_eq_some_iff.mp hl'
      cases hl'
      exact absurd (List.append_eq_nil_iff.mp h.symm).1 (frameUtf8_ne_nil hy)
  | cons a l ih =>
    rw [List.mapM_cons] at hl
    obtain ⟨x, hx, hl⟩ := Option.bind_eq_some_iff.mp hl
    obtain ⟨xs, hxs, hl⟩ := Option.bind_eq_some_iff.mp hl
    cases hl
    cases l' with
    | nil =>
      cases hl'
      exact absurd (List.append_eq_nil_iff.mp h).1 (frameUtf8_ne_nil hx)
    | cons b l' =>
      rw [List.mapM_cons] at hl'
      obtain ⟨y, hy, hl'⟩ := Option.bind_eq_some_iff.mp hl'
      obtain ⟨ys, hys, hl'⟩ := Option.bind_eq_some_iff.mp hl'
      cases hl'
      obtain ⟨hsame, hrest⟩ := frameUtf8_append_inj hx hy h
      rw [List.map_cons, List.map_cons, hsame, ih hxs hys hrest]

/-- The digest's input determines the tuple and the peers, up to the encoding and in their order. -/
theorem digestInput_inj {scope scope' : StorageScope} {P P' : List JsString} {x : Bytes} (h : digestInput scope P = some x)
    (h' : digestInput scope' P' = some x) :
    encodeUtf8 scope.tenant = encodeUtf8 scope'.tenant ∧ encodeUtf8 scope.accountId = encodeUtf8 scope'.accountId ∧
      (sortUnits P).map encodeUtf8 = (sortUnits P').map encodeUtf8 := by
  obtain ⟨fs, hfs, rfl⟩ := Option.map_eq_some_iff.mp h
  obtain ⟨fs', hfs', heq⟩ := Option.map_eq_some_iff.mp h'
  have hmap := frames_inj hfs hfs' heq.symm
  rw [List.map_cons, List.map_cons, List.map_cons, List.map_cons, List.map_cons, List.map_cons] at hmap
  obtain ⟨-, hmap⟩ := List.cons.inj hmap
  obtain ⟨htenant, hmap⟩ := List.cons.inj hmap
  obtain ⟨haccount, hmap⟩ := List.cons.inj hmap
  exact ⟨htenant, haccount, hmap⟩

theorem map_encodeUtf8_inj {l l' : List JsString} (hl : ∀ s ∈ l, WellFormed s) (hl' : ∀ s ∈ l', WellFormed s)
    (h : l.map encodeUtf8 = l'.map encodeUtf8) : l = l' := by
  induction l generalizing l' with
  | nil =>
    cases l' with
    | nil => rfl
    | cons b l' => cases h
  | cons a l ih =>
    cases l' with
    | nil => cases h
    | cons b l' =>
      rw [List.map_cons, List.map_cons] at h
      obtain ⟨hhead, htail⟩ := List.cons.inj h
      have hab := (hl a List.mem_cons_self).encodeUtf8_inj (hl' b List.mem_cons_self) hhead
      rw [hab, ih (fun s hs => hl s (List.mem_cons_of_mem _ hs)) (fun s hs => hl' s (List.mem_cons_of_mem _ hs)) htail]

/-- Peers whose names are well-formed are determined by the digest's input, whatever order they were stored in. -/
theorem digestInput_perm {scope scope' : StorageScope} {P P' : List JsString} {x : Bytes} (hP : ∀ s ∈ P, WellFormed s)
    (hP' : ∀ s ∈ P', WellFormed s) (h : digestInput scope P = some x) (h' : digestInput scope' P' = some x) : P.Perm P' := by
  have hsort (l : List JsString) : (sortUnits l).Perm l := List.mergeSort_perm l unitsLe
  have heq := map_encodeUtf8_inj (fun s hs => hP s ((hsort P).mem_iff.mp hs)) (fun s hs => hP' s ((hsort P').mem_iff.mp hs))
    (digestInput_inj h h').2.2
  exact (hsort P).symm.trans (heq ▸ hsort P')

end Webchannel.Rotation
