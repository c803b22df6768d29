import Webchannel.Keys.Rotator
import Webchannel.Keys.Stability

/-!
# Documents of a newer release

After a rollback the files may be ones that a newer release wrote. A read that succeeds, or that
fails in any other way than with the version, shows that a document is not one of them; each
operation is followed up to its writes with what its reads have shown.
-/

namespace Webchannel.Keys

open Webchannel.Effect Webchannel.Runs

variable {Key : Type} {maxKeys : Nat} {start d d' : Disk Key} {s : Machine Key}

/-! ## What a read shows -/

theorem read_of_isNewer {α : Type} {supported : Int} {content : FileContent α}
    (h : content.isNewer supported = true) :
    content.read supported = some (.error .versionTooNew) := by
  cases content with
  | document doc =>
    have hv : doc.version.any (supported < ·) = true := h
    simp only [FileContent.read, Document.parse, assertDocumentVersionNotFromFuture, hv, if_true]
    rfl
  | _ => cases h

/-- A newer document is as it was, and a newer key document has not been linked aside either. -/
structure Intact (start d : Disk Key) : Prop where
  keys : start.keys.isNewer keyVersion = true → d.keys = start.keys ∧ d.archives = start.archives
  generations : start.generations.isNewer generationVersion = true → d.generations = start.generations

theorem Intact.refl (d : Disk Key) : Intact d d := ⟨fun _ => ⟨rfl, rfl⟩, fun _ => rfl⟩

theorem Intact.trans {d₁ d₂ d₃ : Disk Key} (h : Intact d₁ d₂) (h' : Intact d₂ d₃) : Intact d₁ d₃ := by
  refine ⟨fun hn => ?_, fun hn => ?_⟩
  · obtain ⟨hkeys, harchives⟩ := h.keys hn
    obtain ⟨hkeys', harchives'⟩ := h'.keys (by rw [hkeys]; exact hn)
    exact ⟨hkeys'.trans hkeys, harchives'.trans harchives⟩
  · have hg := h.generations hn
    exact (h'.generations (by rw [hg]; exact hn)).trans hg

/-- Every durable state of the call is intact. -/
def Spared (start : Disk Key) (s : Machine Key) : Prop :=
  Intact start s.disk ∧ ∀ e ∈ s.history, Intact start e.2

/-- Whatever happens in the call, newer documents are spared. -/
def Spares {α : Type} (start : Disk Key) (m : Op Key α) : Prop :=
  Triple (Spared start) m (fun _ => Spared start) (fun _ => Spared start)

/-- The keys that the call sees are not a newer document. -/
def KeysKnown (start : Disk Key) : Prop := start.keys.isNewer keyVersion = false

def SidecarKnown (start : Disk Key) : Prop := start.generations.isNewer generationVersion = false

theorem spares_change {w : Write} {f : Disk Key → Disk Key} (h : ∀ d, Intact start d → Intact start (f d)) :
    Spares start (change w f) := by
  have hcommit {s : Machine Key} (hs : Spared start s) : Spared start (s.commit w f) := by
    refine ⟨h _ hs.1, fun e he => ?_⟩
    cases he with
    | head => exact h _ hs.1
    | tail _ he => exact hs.2 e he
  refine .get_bind fun s hs => ?_
  cases s.writes with
  | nil => exact .throw _ fun t ht => by rw [ht]; exact hs
  | cons outcome rest =>
    refine .modify_bind (R := Spared start) (fun t ht => by rw [ht]; exact hs) ?_
    cases outcome with
    | written => exact .modify fun t ht => hcommit ht
    | failed => exact .throw _ fun t ht => ht
    | stoppedBefore => exact .throw _ fun t ht => ht
    | stoppedAfter => exact .modify_bind (fun t ht => hcommit ht) (.throw _ fun t ht => ht)

theorem spares_persistKeys (h : KeysKnown start) (w : Write) (keys : OrderedMap String Key) :
    Spares start (persistSerializedKeys w keys) := by
  refine spares_change fun d hd => ⟨fun hn => ?_, hd.generations⟩
  rw [h] at hn
  cases hn

theorem spares_persistGenerations (h : SidecarKnown start)
    (generations : OrderedMap String ConversationKeyGeneration) :
    Spares start (persistGenerations generations) := by
  refine spares_change fun d hd => ⟨hd.keys, fun hn => ?_⟩
  rw [h] at hn
  cases hn

theorem keysKnown_of_read (hs : Spared start s)
    (h : s.disk.keys.read keyVersion ≠ some (.error .versionTooNew)) : KeysKnown start := by
  refine Bool.eq_false_iff.mpr fun hn => h ?_
  rw [(hs.1.keys hn).1]
  exact read_of_isNewer hn

theorem sidecarKnown_of_read (hs : Spared start s)
    (h : s.disk.generations.read generationVersion ≠ some (.error .versionTooNew)) : SidecarKnown start := by
  refine Bool.eq_false_iff.mpr fun hn => h ?_
  rw [hs.1.generations hn]
  exact read_of_isNewer hn

theorem readStoreFile_shows :
    Triple (Spared start) readStoreFile (fun _ s => Spared start s ∧ KeysKnown start)
      (fun e s => Spared start s ∧ (e ≠ .document .versionTooNew → KeysKnown start)) := by
  refine .get_bind fun s hs => ?_
  cases hread : s.disk.keys.read keyVersion with
  | none => exact .pure _ fun t ht => by rw [ht]; exact ⟨hs, keysKnown_of_read hs (by simp [hread])⟩
  | some result =>
    cases result with
    | ok keys => exact .pure _ fun t ht => by rw [ht]; exact ⟨hs, keysKnown_of_read hs (by simp [hread])⟩
    | error code =>
      refine .throw _ fun t ht => ?_
      rw [ht]
      refine ⟨hs, fun hne => keysKnown_of_read hs fun h => hne ?_⟩
      rw [hread] at h
      cases h
      rfl

theorem readFresh_shows :
    Triple (Spared start) readFresh (fun _ s => Spared start s ∧ KeysKnown start)
      (fun _ => Spared start) := by
  refine .bind (readStoreFile_shows.conseq (fun _ h => h) (fun _ _ h => h) fun _ _ h => h.1) fun keys => ?_
  cases keys with
  | none => exact .pure _ fun _ hs => hs
  | some keys => exact .pure _ fun _ hs => hs

theorem readGenerationFile_shows :
    Triple (Spared start) readGenerationFile (fun _ s => Spared start s ∧ SidecarKnown start)
      (fun e s => Spared start s ∧ (e ≠ .document .versionTooNew → SidecarKnown start)) := by
  refine .get_bind fun s hs => ?_
  cases hread : s.disk.generations.read generationVersion with
  | none => exact .pure _ fun t ht => by rw [ht]; exact ⟨hs, sidecarKnown_of_read hs (by simp [hread])⟩
  | some result =>
    cases result with
    | ok generations =>
      exact .pure _ fun t ht => by rw [ht]; exact ⟨hs, sidecarKnown_of_read hs (by simp [hread])⟩
    | error code =>
      refine .throw _ fun t ht => ?_
      rw [ht]
      refine ⟨hs, fun hne => sidecarKnown_of_read hs fun h => hne ?_⟩
      rw [hread] at h
      cases h
      rfl

theorem assertGenerationsNotFromFuture_shows :
    Triple (Spared start) assertGenerationsNotFromFuture
      (fun _ s => Spared start s ∧ SidecarKnown start) (fun _ => Spared start) := by
  refine catching_spec (.bind readGenerationFile_shows fun _ => .pure _ fun _ hs => hs)
    (fun _ hs => hs.1) fun e _ => ?_
  exact .ite (fun _ => .throw _ fun _ hs => hs.1) fun he => .pure _ fun _ hs => ⟨hs.1, hs.2 he⟩

theorem readGenerationsAuditOnly_shows :
    Triple (Spared start) readGenerationsAuditOnly
      (fun _ s => Spared start s ∧ SidecarKnown start) (fun _ => Spared start) := by
  refine catching_spec (.bind readGenerationFile_shows fun generations => ?_) (fun _ hs => hs.1) fun e _ => ?_
  · cases generations with
    | none => exact .pure _ fun _ hs => hs
    | some generations => exact .pure _ fun _ hs => hs
  · exact .ite (fun _ => .throw _ fun _ hs => hs.1) fun he => .pure _ fun _ hs => ⟨hs.1, hs.2 he⟩

/-! ## The store -/

theorem spares_pure {α : Type} (a : α) : Spares start (pure a : Op Key α) := .pure _ fun _ hs => hs

theorem spares_throw {α : Type} (e : Failure) : Spares start (throw e : Op Key α) := .throw _ fun _ hs => hs

theorem spares_assertPeerId (peerId : String) : Spares start (assertPeerId peerId : Op Key Unit) :=
  .ite (fun _ => spares_throw _) fun _ => spares_pure _

theorem spares_randomKey : Spares start (randomKey : Op Key Key) := by
  refine .get_bind fun s hs => ?_
  cases s.random with
  | nil => exact .throw _ fun t ht => by rw [ht]; exact hs
  | cons key rest =>
    exact .modify_bind (R := Spared start) (fun t ht => by rw [ht]; exact hs) (spares_pure _)

theorem spares_readNowSec : Spares start (readNowSec : Op Key Nat) := by
  refine .get_bind fun s hs => ?_
  cases s.clock with
  | nil => exact .throw _ fun t ht => by rw [ht]; exact hs
  | cons value rest =>
    exact .modify_bind (R := Spared start) (fun t ht => by rw [ht]; exact hs)
      (.ite (fun _ => spares_throw _) fun _ => spares_pure _)

theorem spares_epochAfter (current : Option ConversationKeyGeneration) :
    Spares start (epochAfter current : Op Key Nat) := by
  cases current with
  | none => exact spares_pure _
  | some current => exact .ite (fun _ => spares_throw _) fun _ => spares_pure _

theorem spares_catching {α : Type} {m : Op Key α} {handler : Failure → Op Key α} (hm : Spares start m)
    (hh : ∀ e, Spares start (handler e)) : Spares start (catching m handler) :=
  catching_spec hm (fun _ hs => hs) fun e _ => hh e

theorem spares_archiveKeys (h : KeysKnown start) : Spares start (archiveKeys : Op Key Unit) := by
  have hkeys {p : Prop} (hn : start.keys.isNewer keyVersion = true) : p := by
    rw [h] at hn
    cases hn
  exact .bind (spares_change fun d hd => ⟨hkeys, hd.generations⟩)
    fun _ => spares_change fun d hd => ⟨hkeys, hd.generations⟩

/-- The keys that a call finds behind its migration. -/
def foundKeys (s : Machine Key) : OrderedMap String Key :=
  match s.disk.keys, s.migrationPrepared, s.migrations with
  | .absent, false, .done (some keys) :: _ => keys
  | _, _, _ => s.disk.keyMap

/-- The migration publishes only where there is no key document. -/
theorem prepareMigration_finds (hs : Spared start s) :
    Triple (· = s) prepareMigration (fun _ t => Spared start t ∧ t.disk.keyMap = foundKeys s)
      (fun _ => Spared start) := by
  have hold (h : ∀ keys rest, s.disk.keys = .absent → s.migrationPrepared = false →
      s.migrations ≠ .done (some keys) :: rest) : s.disk.keyMap = foundKeys s := by
    unfold foundKeys
    split
    · rename_i hkeys hprepared hm
      exact absurd hm (h _ _ hkeys hprepared)
    · rfl
  refine .get_bind fun s' hs' => ?_
  subst hs'
  refine .ite (fun hp => .pure _ fun t ht => ?_) fun hp => ?_
  · rw [ht]
    exact ⟨hs, hold fun _ _ _ hnot => by rw [hp] at hnot; cases hnot⟩
  refine .get_bind fun s'' hs'' => ?_
  subst hs''
  cases hm : s''.migrations with
  | nil => exact .throw _ fun t ht => by rw [ht]; exact hs
  | cons migration rest =>
    refine .modify_bind (R := (· = { s'' with migrations := rest })) (fun t ht => by rw [ht]) ?_
    cases migration with
    | stopped => exact .throw _ fun t ht => by rw [ht]; exact hs
    | failed => exact .throw _ fun t ht => by rw [ht]; exact hs
    | done published =>
      refine .get_bind fun u hu => ?_
      subst hu
      cases published with
      | none =>
        refine .modify fun t ht => ?_
        rw [ht]
        exact ⟨hs, hold fun _ _ _ _ h => by rw [hm] at h; cases h⟩
      | some keys =>
        have hpresent (hne : s''.disk.keys ≠ .absent) :
            Triple (· = { s'' with migrations := rest })
              (modify ({ · with migrationPrepared := true }) : Op Key PUnit)
              (fun _ t => Spared start t ∧ t.disk.keyMap = foundKeys s'') (fun _ => Spared start) := by
          refine .modify fun t ht => ?_
          rw [ht]
          exact ⟨hs, hold fun _ _ h _ => absurd h hne⟩
        cases hkeys : s''.disk.keys with
        | absent =>
          have hintact : Intact start { s''.disk with keys := .serialize keyVersion keys } := by
            refine ⟨fun hn => ?_, hs.1.generations⟩
            rw [← (hs.1.keys hn).1, hkeys] at hn
            cases hn
          have hfound : foundKeys s'' = keys := by
            unfold foundKeys
            rw [hkeys, Bool.eq_false_iff.mpr hp, hm]
          refine .modify_bind (R := fun t => Spared start t ∧ t.disk.keyMap = foundKeys s'') (fun t ht => ?_)
            (.modify fun t ht => ht)
          rw [ht, hfound]
          refine ⟨⟨hintact, fun e he => ?_⟩, keyMap_serialize keys⟩
          cases he with
          | head => exact hintact
          | tail _ he => exact hs.2 e he
        | unreadable => exact hpresent (by rw [hkeys]; simp)
        | garbage => exact hpresent (by rw [hkeys]; simp)
        | document doc => exact hpresent (by rw [hkeys]; simp)

theorem spares_prepareMigration : Spares start (prepareMigration : Op Key Unit) :=
  .pointwise fun _ hs => (prepareMigration_finds hs).conseq (fun _ h => h) (fun _ _ h => h.1) fun _ _ h => h

theorem spares_load : Spares start (load : Op Key (OrderedMap String Key)) := by
  refine .get_bind fun s hs => ?_
  cases s.cache with
  | some keys => exact .pure _ fun t ht => by rw [ht]; exact hs
  | none =>
    refine .bind (R := fun _ => Spared start) (spares_prepareMigration.conseq (fun t ht => by rw [ht]; exact hs)
      (fun _ _ h => h) fun _ _ h => h) fun _ => ?_
    refine .bind assertGenerationsNotFromFuture_shows fun _ => .of_pre fun hsidecar => ?_
    refine catching_spec (R := fun e s => Spared start s ∧ (e ≠ .document .versionTooNew → KeysKnown start))
      ?_ (fun _ hs => hs.1) fun e _ => ?_
    · refine .bind readStoreFile_shows fun keys => .of_pre fun _ => ?_
      exact .modify_bind (R := Spared start) (fun _ hs => hs) (.pure _ fun _ hs => hs)
    · refine .ite (fun _ => .throw _ fun _ hs => hs.1) fun he => ?_
      have heq : e = .document .invalidDocument := by simpa using he
      refine .of_pre fun hkeys => ?_
      have hknown : KeysKnown start := hkeys (by rw [heq]; simp)
      refine .bind (spares_catching (spares_archiveKeys hknown) fun _ => spares_throw _) fun _ => ?_
      refine .modify_bind (R := Spared start) (fun _ hs => hs) ?_
      refine .bind (spares_persistKeys hknown _ _) fun _ => ?_
      refine .bind (spares_catching (spares_persistGenerations hsidecar _) fun _ => spares_pure _) fun _ => ?_
      exact spares_pure _

theorem spares_recordInitialGenerationBestEffort (peerId : String) :
    Spares start (recordInitialGenerationBestEffort maxKeys peerId : Op Key Unit) := by
  refine spares_catching ?_ fun _ => spares_pure _
  refine .bind readGenerationsAuditOnly_shows fun generations => .of_pre fun hsidecar => ?_
  refine .ite (fun _ => spares_pure _) fun _ => ?_
  refine .bind readFresh_shows fun keys => .of_pre fun _ => ?_
  refine .ite (fun _ => spares_pure _) fun _ => ?_
  exact .bind spares_readNowSec fun _ => spares_persistGenerations hsidecar _

theorem spares_getOrCreate (peerId : String) : Spares start (getOrCreate maxKeys peerId : Op Key Key) := by
  refine .bind (spares_assertPeerId peerId) fun _ => .bind spares_load fun keys => ?_
  cases keys.get peerId with
  | some existing => exact spares_pure _
  | none =>
    refine .ite (fun _ => spares_throw _) fun _ => ?_
    refine .bind readFresh_shows fun fresh => .of_pre fun hknown => ?_
    cases fresh.get peerId with
    | some existing => exact .modify_bind (R := Spared start) (fun _ hs => hs) (spares_pure _)
    | none =>
      refine .ite (fun _ => .modify_bind (R := Spared start) (fun _ hs => hs) (spares_throw _)) fun _ => ?_
      refine .bind spares_randomKey fun key => ?_
      refine .bind (spares_persistKeys hknown _ _) fun _ => ?_
      refine .modify_bind (R := Spared start) (fun _ hs => hs) ?_
      exact .bind (spares_recordInitialGenerationBestEffort peerId) fun _ => spares_pure _

theorem spares_get? (peerId : String) : Spares start (get? peerId : Op Key (Option Key)) :=
  .bind spares_load fun _ => spares_pure _

theorem spares_generationOf (peerId : String) :
    Spares start (generationOf peerId : Op Key (Option ConversationKeyGeneration)) := by
  refine .bind (spares_assertPeerId peerId) fun _ => .bind spares_prepareMigration fun _ => ?_
  exact .bind readGenerationsAuditOnly_shows fun _ => .of_pre fun _ => spares_pure _

theorem spares_rotate (peerId : String) :
    Spares start (rotate maxKeys peerId : Op Key (ConversationKeyRotationResult Key)) := by
  refine .bind (spares_assertPeerId peerId) fun _ => .bind spares_prepareMigration fun _ => ?_
  refine .bind readFresh_shows fun keys => .of_pre fun hknown => ?_
  refine .ite (fun _ => spares_throw _) fun _ => ?_
  refine .bind readGenerationsAuditOnly_shows fun generations => .of_pre fun hsidecar => ?_
  refine .ite (fun _ => spares_throw _) fun _ => ?_
  refine .bind (spares_epochAfter _) fun _ => .bind spares_readNowSec fun _ => .bind spares_randomKey fun _ => ?_
  refine .bind (spares_persistGenerations hsidecar _) fun _ => .bind (spares_persistKeys hknown _ _) fun _ => ?_
  exact .modify_bind (R := Spared start) (fun _ hs => hs) (spares_pure _)

/-! ## The offline rotator -/

namespace Rotator

theorem readKeysOrEmpty_shows (hs : Spared start s) :
    Triple (· = s) readKeysOrEmpty
      (fun keys t => (Spared start t ∧ KeysKnown start) ∧ keys = s.disk.keyMap) (fun _ => Spared start) := by
  refine .get_bind fun s' hs' => ?_
  subst hs'
  cases hread : s'.disk.keys.read keyVersion with
  | none =>
    have hmap : s'.disk.keyMap = .empty := by
      unfold Disk.keyMap
      rw [hread]
    exact .pure _ fun t ht => by rw [ht]; exact ⟨⟨hs, keysKnown_of_read hs (by simp [hread])⟩, hmap.symm⟩
  | some result =>
    cases result with
    | ok keys =>
      have hmap : s'.disk.keyMap = keys := by
        unfold Disk.keyMap
        rw [hread]
      exact .pure _ fun t ht => by rw [ht]; exact ⟨⟨hs, keysKnown_of_read hs (by simp [hread])⟩, hmap.symm⟩
    | error code => cases code <;> exact .throw _ fun t ht => by rw [ht]; exact hs

theorem spares_readKeysOrEmpty : Spares start (readKeysOrEmpty : Op Key (OrderedMap String Key)) :=
  .pointwise fun _ hs => (readKeysOrEmpty_shows hs).conseq (fun _ h => h) (fun _ _ h => h.1.1) fun _ _ h => h

theorem spares_readGenerations :
    Spares start (readGenerations : Op Key (OrderedMap String ConversationKeyGeneration)) := by
  refine .get_bind fun s hs => ?_
  cases s.disk.generations.read generationVersion with
  | none => exact .throw _ fun t ht => by rw [ht]; exact hs
  | some result =>
    cases result with
    | ok generations => exact .pure _ fun t ht => by rw [ht]; exact hs
    | error code => cases code <;> exact .throw _ fun t ht => by rw [ht]; exact hs

/-- The rotator's own audit read shows nothing. -/
theorem spares_readGenerationsAuditOnly :
    Spares start (readGenerationsAuditOnly : Op Key (OrderedMap String ConversationKeyGeneration)) :=
  spares_catching spares_readGenerations fun _ => spares_pure _

theorem spares_previewPeerRotation (peerId : String) :
    Spares start (previewPeerRotation peerId : Op Key PeerRotationPreview) := by
  refine .bind (spares_assertPeerId peerId) fun _ => .bind spares_prepareMigration fun _ => ?_
  refine .bind spares_readKeysOrEmpty fun _ => .ite (fun _ => spares_pure _) fun _ => ?_
  exact .bind spares_readGenerationsAuditOnly fun _ => spares_pure _

theorem spares_previewAccountRotation (targetDigest : List String → String) :
    Spares start (previewAccountRotation targetDigest : Op Key AccountRotationPreview) :=
  .bind spares_prepareMigration fun _ => .bind spares_readKeysOrEmpty fun _ => spares_pure _

variable [DecidableEq Key]

theorem spares_verifyCompleteReadback (expectedKeys : OrderedMap String Key)
    (expectedGenerations : OrderedMap String ConversationKeyGeneration) :
    Spares start (verifyCompleteReadback expectedKeys expectedGenerations) := by
  refine .bind (spares_catching spares_readKeysOrEmpty fun _ => spares_throw _) fun _ => ?_
  refine .bind (spares_catching spares_readGenerations fun _ => spares_throw _) fun _ => ?_
  refine .ite (fun _ => spares_throw _) fun _ => .ite (fun _ => spares_throw _) fun _ => ?_
  exact .ite (fun _ => spares_throw _) fun _ => .ite (fun _ => spares_throw _) fun _ => spares_pure _

omit [DecidableEq Key] in
theorem spares_onNewStore {α : Type} {m : Op Key α} (h : Spares start m) : Spares start (onNewStore m) := by
  refine .get_bind fun s hs => ?_
  refine .modify_bind (R := Spared start) (fun t ht => by rw [ht]; exact hs) ?_
  refine .bind (R := fun _ => Spared start) (.tryCatch h fun e => ?_) fun _ => ?_
  · exact .modify_bind (R := Spared start) (fun _ hs => hs) (spares_throw _)
  · exact .modify_bind (R := Spared start) (fun _ hs => hs) (spares_pure _)

theorem spares_rotatePeerVerified (peerId : String) :
    Spares start (rotatePeerVerified maxKeys peerId : Op Key PeerRotationSummary) := by
  refine .bind (spares_assertPeerId peerId) fun _ => .bind spares_prepareMigration fun _ => ?_
  refine .bind spares_readKeysOrEmpty fun _ => .ite (fun _ => spares_throw _) fun _ => ?_
  refine .bind spares_readGenerationsAuditOnly fun _ => ?_
  refine .bind (spares_onNewStore (spares_rotate peerId)) fun _ => ?_
  exact .bind (spares_verifyCompleteReadback _ _) fun _ => spares_pure _

omit [DecidableEq Key] in
theorem spares_rotateEach (freshGenerations : OrderedMap String ConversationKeyGeneration)
    (rotatedAtSec : Nat) (peerIds : List String) (nextKeys : OrderedMap String Key)
    (nextGenerations : OrderedMap String ConversationKeyGeneration) :
    Spares start (rotateEach freshGenerations rotatedAtSec peerIds nextKeys nextGenerations) := by
  induction peerIds generalizing nextKeys nextGenerations with
  | nil => exact spares_pure _
  | cons peerId rest ih =>
    exact .bind spares_randomKey fun _ => .bind (spares_epochAfter _) fun _ => ih _ _

/-- The call that the reviewed digest admits: every check in front of its writes passes. -/
def Admitted (targetDigest : List String → String) (maxKeys : Nat) (reviewed : String)
    (keys : OrderedMap String Key) : Prop :=
  keys.size ≠ 0 ∧ keys.size ≤ maxKeys ∧ targetDigest keys.keys = reviewed

theorem spares_rotateAccountVerified {targetDigest : List String → String} {reviewed : String}
    (hs : Spared start s) (h : Admitted targetDigest maxKeys reviewed (foundKeys s) → SidecarKnown start) :
    Triple (· = s) (rotateAccountVerified targetDigest maxKeys reviewed) (fun _ => Spared start)
      (fun _ => Spared start) := by
  refine .bind (prepareMigration_finds hs) fun _ => .pointwise fun t ht => ?_
  refine .bind (readKeysOrEmpty_shows ht.1) fun keys => .of_pre fun hkeys => .of_pre fun hknown => ?_
  rw [ht.2] at hkeys
  refine .ite (fun _ => spares_throw _) fun hsize => .ite (fun _ => spares_throw _) fun hdigest => ?_
  refine .bind spares_readGenerationsAuditOnly fun generations => ?_
  refine .ite (fun _ => spares_throw _) fun hmax => ?_
  have hsidecar : SidecarKnown start := by
    refine h ⟨?_, ?_, ?_⟩
    · rw [← hkeys]
      exact hsize
    · rw [← hkeys]
      exact Nat.le_of_not_lt hmax
    · rw [← hkeys]
      exact not_not.mp hdigest
  refine .bind spares_readNowSec fun _ => .bind (spares_rotateEach _ _ _ _ _) fun next => ?_
  refine .bind (spares_persistGenerations hsidecar _) fun _ => .bind (spares_persistKeys hknown _ _) fun _ => ?_
  exact .bind (spares_verifyCompleteReadback _ _) fun _ => spares_pure _

end Rotator

/-! ## Runs -/

inductive Call where
  | getOrCreate (peerId : String)
  | get (peerId : String)
  | generationOf (peerId : String)
  | rotate (peerId : String)
  | previewPeerRotation (peerId : String)
  | previewAccountRotation
  | rotatePeerVerified (peerId : String)
  | rotateAccountVerified (reviewedTargetDigest : String)
  deriving DecidableEq, Repr

/-- A call on an instance of either class: what that instance remembers, and what the call meets. -/
structure Invocation (Key : Type) where
  call : Call
  cache : Option (OrderedMap String Key)
  migrationPrepared : Bool
  writes : List WriteOutcome
  random : List Key
  clock : List Nat
  migrations : List (Migration Key)

/-- The files of the tuple and every durable state they have had, the latest one first. -/
structure Files (Key : Type) where
  disk : Disk Key
  history : List (Disk Key)

def Files.machine (s : Files Key) (i : Invocation Key) : Machine Key where
  disk := s.disk
  cache := i.cache
  migrationPrepared := i.migrationPrepared
  writes := i.writes
  random := i.random
  clock := i.clock
  migrations := i.migrations
  history := []

section Runs

variable [DecidableEq Key] (targetDigest : List String → String) (maxKeys : Nat)

/-- The result of a call is not needed here. -/
def Call.op : Call → Op Key Unit
  | .getOrCreate peerId => do let _ ← Keys.getOrCreate maxKeys peerId
  | .get peerId => do let _ ← get? peerId
  | .generationOf peerId => do let _ ← Keys.generationOf peerId
  | .rotate peerId => do let _ ← Keys.rotate maxKeys peerId
  | .previewPeerRotation peerId => do let _ ← Rotator.previewPeerRotation peerId
  | .previewAccountRotation => do let _ ← Rotator.previewAccountRotation targetDigest
  | .rotatePeerVerified peerId => do let _ ← Rotator.rotatePeerVerified maxKeys peerId
  | .rotateAccountVerified reviewed => do let _ ← Rotator.rotateAccountVerified targetDigest maxKeys reviewed

def invoke (s : Files Key) (i : Invocation Key) : Option (Files Key) :=
  let t := (Effect.exec (i.call.op targetDigest maxKeys) (s.machine i)).2
  some ⟨t.disk, t.history.map Prod.snd ++ s.history⟩

/-- No account rotation is admitted while the sidecar is a document of a newer release. -/
def Prudent (s : Files Key) (i : Invocation Key) : Prop :=
  ∀ reviewed, i.call = .rotateAccountVerified reviewed →
    Rotator.Admitted targetDigest maxKeys reviewed (foundKeys (s.machine i)) → SidecarKnown s.disk

variable {targetDigest maxKeys}

theorem spared_op {i : Invocation Key} {s : Files Key} (h : Prudent targetDigest maxKeys s i) :
    Spared s.disk (Effect.exec (i.call.op targetDigest maxKeys) (s.machine i)).2 := by
  have hs : Spared s.disk (s.machine i) := ⟨.refl _, fun e he => by cases he⟩
  have hend {α : Type} {m : Op Key α} (hm : Triple (· = s.machine i) m (fun _ => Spared s.disk)
      fun _ => Spared s.disk) : Spared s.disk (Effect.exec (do let _ ← m) (s.machine i)).2 := by
    have hbind : Triple (· = s.machine i) (do let _ ← m) (fun _ => Spared s.disk) fun _ => Spared s.disk :=
      .bind hm fun _ => spares_pure _
    rcases hx : Effect.exec (do let _ ← m) (s.machine i) with ⟨e | a, t⟩
    · exact hbind.error rfl hx
    · exact hbind.ok rfl hx
  have hspares {α : Type} {m : Op Key α} (hm : Spares s.disk m) :
      Spared s.disk (Effect.exec (do let _ ← m) (s.machine i)).2 :=
    hend fun t ht => hm t (by rw [ht]; exact hs)
  cases hcall : i.call with
  | getOrCreate peerId => exact hspares (spares_getOrCreate peerId)
  | get peerId => exact hspares (spares_get? peerId)
  | generationOf peerId => exact hspares (spares_generationOf peerId)
  | rotate peerId => exact hspares (spares_rotate peerId)
  | previewPeerRotation peerId => exact hspares (Rotator.spares_previewPeerRotation peerId)
  | previewAccountRotation => exact hspares (Rotator.spares_previewAccountRotation targetDigest)
  | rotatePeerVerified peerId => exact hspares (Rotator.spares_rotatePeerVerified peerId)
  | rotateAccountVerified reviewed =>
    exact hend (Rotator.spares_rotateAccountVerified hs (h reviewed hcall))

/-- A document of a newer release is in every durable state of the run as it was at its start. -/
theorem newer_documents_kept {s : Files Key}
    (hrun : ReachedBy (invoke targetDigest maxKeys) (Prudent targetDigest maxKeys) ⟨start, []⟩ s) :
    ∀ d ∈ s.disk :: s.history, Intact start d := by
  refine hrun.invariant (I := fun s => ∀ d ∈ s.disk :: s.history, Intact start d) ?_ ?_
  · intro d hd
    obtain rfl : d = start := by simpa using hd
    exact .refl _
  · intro s i t hs hprudent hstep d hd
    have hspared := spared_op hprudent
    cases hstep
    have hbefore := hs s.disk (.head _)
    cases hd with
    | head => exact hbefore.trans hspared.1
    | tail _ hd =>
      rcases List.mem_append.mp hd with hd | hd
      · obtain ⟨e, he, rfl⟩ := List.mem_map.mp hd
        exact hbefore.trans (hspared.2 e he)
      · exact hs d (.tail _ hd)

end Runs

/-- One peer, and a sidecar of a release whose version is 2. -/
def rolledBack : Disk Nat :=
  ⟨.serialize keyVersion (OrderedMap.empty.set "ann" 7), .document ⟨some 2, some .agrees, none⟩, []⟩

/-- The target digest of tenant `acme`, account `support` and the one peer `ann`. -/
def rolledBackDigest (_ : List String) : String :=
  "fe564ed2a90aae5f46512f14ba311aa41cd1ccf6dbbece543200261e1692b25b"

/-- The rotation of one peer is refused. -/
theorem newer_documents_kept_rolledBack :
    ∃ s : Files Nat, ReachedBy (invoke rolledBackDigest 10) (Prudent rolledBackDigest 10) ⟨rolledBack, []⟩ s ∧
      ∀ d ∈ s.disk :: s.history, Intact rolledBack d := by
  have hopened : ReachedBy (invoke rolledBackDigest 10) (Prudent rolledBackDigest 10) ⟨rolledBack, []⟩
    (⟨rolledBack, []⟩ : Files Nat) := .start
  have hrun := hopened.step (a := ⟨.rotatePeerVerified "ann", none, false, [.written, .written], [8], [6],
    [.done none, .done none]⟩) (fun reviewed h => by cases h) rfl
  exact ⟨_, hrun, newer_documents_kept hrun⟩

/-- A reviewed account rotation replaces the newer sidecar by one of this release. -/
theorem account_rotation_replaces_newer_sidecar :
    rolledBack.generations.isNewer generationVersion = true ∧
      ¬ ∀ s : Files Nat, Reached (invoke rolledBackDigest 10) ⟨rolledBack, []⟩ s →
        ∀ d ∈ s.disk :: s.history, Intact rolledBack d := by
  refine ⟨rfl, fun h => ?_⟩
  have hrun : Reached (invoke rolledBackDigest 10) ⟨rolledBack, []⟩ _ :=
    Reached.start.step (a := ⟨.rotateAccountVerified (rolledBackDigest ["ann"]), none, false,
      [.written, .written], [8], [6], [.done none]⟩) rfl
  have hkept := (h _ hrun _ (.head _)).generations rfl
  cases hkept

end Webchannel.Keys
