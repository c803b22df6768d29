import Webchannel.Lib.JsString

/-!
# Private files

`private-file.ts`, for one path: its directory and what stands under it, with the attributes
that are checked. Nothing else touches the path during a call, and the operating system carries
out what it is asked to; a check that is repeated finds what it found before.
-/

namespace Webchannel.TrustChain

inductive FileKind where
  | file
  | directory
  | symbolicLink
  | other
  deriving DecidableEq, Repr

/-- `Stats`; `mode` is the permission bits. -/
structure Stats where
  kind : FileKind
  mode : Nat
  uid : Nat
  dev : Nat
  ino : Nat
  deriving DecidableEq, Repr

/-- A directory, and a file in it with its bytes. -/
structure Place where
  directory : Option Stats
  entry : Option (Stats × Bytes)

/-- The user that a process runs as; not every platform has `process.getuid`. -/
structure User where
  uid : Nat
  hasGetuid : Bool

/-- What is wrong with a path. -/
inductive StorageFault where
  | notDirectory
  | directoryUnavailable
  | wrongOwner
  | writableByOthers
  | directoryChanged
  | symbolicLink
  | notRegular
  | looseMode
  | fileChanged
  deriving DecidableEq, Repr

variable (user : User)

def assertCurrentOwner (entry : Stats) : Except StorageFault Unit :=
  if user.hasGetuid ∧ entry.uid ≠ user.uid then .error .wrongOwner else .ok ()

def assertSafeOwnedDirectory (place : Place) : Except StorageFault Stats :=
  match place.directory with
  | none => .error .directoryUnavailable
  | some entry => do
    if entry.kind ≠ .directory then throw .notDirectory
    assertCurrentOwner user entry
    if entry.mode &&& 0o022 ≠ 0 then throw .writableByOthers
    return entry

def assertSameSafeOwnedDirectory (place : Place) (expected : Stats) : Except StorageFault Unit := do
  let current ← assertSafeOwnedDirectory user place
  if current.dev ≠ expected.dev ∨ current.ino ≠ expected.ino ∨ current.uid ≠ expected.uid then throw .directoryChanged

/-- `inode` is what the file system gives to a new directory. -/
def ensurePrivateDirectory (inode : Nat × Nat) (place : Place) : Except StorageFault Place := do
  let place :=
    match place.directory with
    | none => { place with directory := some ⟨.directory, 0o700, user.uid, inode.1, inode.2⟩ }
    | some _ => place
  let _ ← assertSafeOwnedDirectory user place
  return place

def assertSecurePrivateFile (entry : Stats) : Except StorageFault Unit := do
  if entry.kind ≠ .file then throw .notRegular
  assertCurrentOwner user entry
  if entry.mode &&& 0o777 ≠ 0o600 then throw .looseMode

def assertSameFileIdentity (expected current : Stats) : Except StorageFault Unit :=
  if expected.dev ≠ current.dev ∨ expected.ino ≠ current.ino then .error .fileChanged else .ok ()

def assertReplaceableDestination (place : Place) : Except StorageFault Unit :=
  match place.entry with
  | none => .ok ()
  | some (entry, _) =>
    if entry.kind = .symbolicLink then .error .symbolicLink
    else if entry.kind ≠ .file then .error .notRegular
    else .ok ()

/-- The text of the file, where there is one. -/
def readPrivateFileIfExists (place : Place) : Except StorageFault (Option JsString) := do
  let initialDirectory ← assertSafeOwnedDirectory user place
  match place.entry with
  | none =>
    assertSameSafeOwnedDirectory user place initialDirectory
    return none
  | some (initialEntry, contents) =>
    -- The descriptor, before and after the read, and the path afterwards.
    let opened := initialEntry
    assertSecurePrivateFile user initialEntry
    assertSecurePrivateFile user opened
    assertSameFileIdentity initialEntry opened
    assertSameSafeOwnedDirectory user place initialDirectory
    assertSecurePrivateFile user opened
    assertSecurePrivateFile user initialEntry
    assertSameFileIdentity opened initialEntry
    assertSameSafeOwnedDirectory user place initialDirectory
    return some (stringOfUtf8 contents)

/-- `inode` is what the file system gives to the temporary file. -/
def atomicWritePrivateFile (inode : Nat × Nat) (place : Place) (data : JsString) : Except StorageFault Place := do
  let initialDirectory ← assertSafeOwnedDirectory user place
  assertReplaceableDestination place
  let temporary : Stats := ⟨.file, 0o600, user.uid, inode.1, inode.2⟩
  assertSameSafeOwnedDirectory user place initialDirectory
  assertReplaceableDestination place
  -- The bytes are in the temporary file now, and the checks are made once more before the rename.
  assertSameSafeOwnedDirectory user place initialDirectory
  assertReplaceableDestination place
  let place := { place with entry := some (temporary, encodeUtf8 data) }
  assertSameSafeOwnedDirectory user place initialDirectory
  assertSecurePrivateFile user temporary
  return place

/-! ## What is written is read -/

variable {user}

theorem assertCurrentOwner_self {entry : Stats} (h : entry.uid = user.uid) : assertCurrentOwner user entry = .ok () :=
  if_neg fun hne => hne.2 h

theorem assertSameSafeOwnedDirectory_self {place : Place} {directory : Stats}
    (h : assertSafeOwnedDirectory user place = .ok directory) :
    assertSameSafeOwnedDirectory user place directory = .ok () := by
  unfold assertSameSafeOwnedDirectory
  rw [h]
  dsimp only [Bind.bind, Except.bind]
  exact if_neg (by simp)

theorem assertSameFileIdentity_self (entry : Stats) : assertSameFileIdentity entry entry = .ok () := if_neg (by simp)

theorem assertSecurePrivateFile_new (dev ino : Nat) :
    assertSecurePrivateFile user ⟨.file, 0o600, user.uid, dev, ino⟩ = .ok () := by
  unfold assertSecurePrivateFile
  rw [if_neg (by simp), assertCurrentOwner_self rfl]
  exact if_neg (show ¬ 0o600 &&& 0o777 ≠ 0o600 by decide)

/-- A call leaves a safe directory behind, and the file alone. -/
theorem ensurePrivateDirectory_ok {inode : Nat × Nat} {place place' : Place}
    (h : ensurePrivateDirectory user inode place = .ok place') :
    place'.entry = place.entry ∧ ∀ inode', ensurePrivateDirectory user inode' place' = .ok place' := by
  -- What comes out has a directory, and it is safe.
  have hkept {place : Place} {entry directory : Stats} (hdirectory : place.directory = some entry)
      (hsafe : assertSafeOwnedDirectory user place = .ok directory) (inode : Nat × Nat) :
      ensurePrivateDirectory user inode place = .ok place := by
    unfold ensurePrivateDirectory
    dsimp only
    rw [hdirectory]
    dsimp only
    rw [hsafe]
    rfl
  unfold ensurePrivateDirectory at h
  dsimp only at h
  cases hdirectory : place.directory with
  | none =>
    rw [hdirectory] at h
    dsimp only at h
    cases hsafe : assertSafeOwnedDirectory user
        { place with directory := some ⟨.directory, 0o700, user.uid, inode.1, inode.2⟩ } with
    | error e => rw [hsafe] at h; cases h
    | ok directory =>
      rw [hsafe] at h
      cases h
      exact ⟨rfl, hkept rfl hsafe⟩
  | some entry =>
    rw [hdirectory] at h
    dsimp only at h
    cases hsafe : assertSafeOwnedDirectory user place with
    | error e => rw [hsafe] at h; cases h
    | ok directory =>
      rw [hsafe] at h
      cases h
      exact ⟨rfl, hkept hdirectory hsafe⟩

/-- Only a file that is there has a text. -/
theorem readPrivateFileIfExists_none {place : Place} (h : place.entry ≠ none) :
    readPrivateFileIfExists user place ≠ .ok none := by
  intro hread
  unfold readPrivateFileIfExists at hread
  cases hsafe : assertSafeOwnedDirectory user place with
  | error e => rw [hsafe] at hread; cases hread
  | ok directory =>
    obtain ⟨⟨entry, contents⟩, hentry⟩ := Option.ne_none_iff_exists'.mp h
    rw [hsafe, hentry] at hread
    dsimp only [Bind.bind, Except.bind] at hread
    rw [assertSameFileIdentity_self, assertSameSafeOwnedDirectory_self hsafe] at hread
    cases hsecure : assertSecurePrivateFile user entry with
    | error e => rw [hsecure] at hread; cases hread
    | ok _ => rw [hsecure] at hread; cases hread

theorem readPrivateFileIfExists_some {place : Place} {text : JsString}
    (hread : readPrivateFileIfExists user place = .ok (some text)) : place.entry ≠ none := by
  intro hentry
  unfold readPrivateFileIfExists at hread
  cases hsafe : assertSafeOwnedDirectory user place with
  | error e => rw [hsafe] at hread; cases hread
  | ok directory =>
    rw [hsafe, hentry] at hread
    dsimp only [Bind.bind, Except.bind] at hread
    rw [assertSameSafeOwnedDirectory_self hsafe] at hread
    cases hread

/-- A file that has been written is read back. -/
theorem readPrivateFileIfExists_written {inode : Nat × Nat} {place place' : Place} {data : JsString} (hdata : WellFormed data)
    (h : atomicWritePrivateFile user inode place data = .ok place') :
    readPrivateFileIfExists user place' = .ok (some data) ∧
      place' = { place with entry := some (⟨.file, 0o600, user.uid, inode.1, inode.2⟩, encodeUtf8 data) } := by
  unfold atomicWritePrivateFile at h
  cases hsafe : assertSafeOwnedDirectory user place with
  | error e => rw [hsafe] at h; cases h
  | ok directory =>
    have hsafe' (entry : Option (Stats × Bytes)) : assertSafeOwnedDirectory user { place with entry := entry } = .ok directory :=
      hsafe
    rw [hsafe] at h
    cases hreplace : assertReplaceableDestination place with
    | error e => rw [hreplace] at h; cases h
    | ok _ =>
      dsimp only [Bind.bind, Except.bind] at h
      rw [hreplace, assertSameSafeOwnedDirectory_self hsafe, assertSameSafeOwnedDirectory_self (hsafe' _),
        assertSecurePrivateFile_new] at h
      cases h
      refine ⟨?_, rfl⟩
      unfold readPrivateFileIfExists
      rw [hsafe' _]
      dsimp only [Bind.bind, Except.bind]
      rw [assertSecurePrivateFile_new, assertSameSafeOwnedDirectory_self (hsafe' _), hdata.stringOfUtf8_encodeUtf8]
      rw [assertSameFileIdentity_self]
      rfl

end Webchannel.TrustChain
