import Webchannel.Rotation.Command
import Webchannel.Rotation.Verified

/-!
# The rotation command tells the truth

What the command has done to the documents, said of every error that it may end with. A run goes through three stages: up to
the lock it only reads, and a migration may publish keys where there were none; while it holds the lock it writes both
documents once; behind the readback it leaves them alone.
-/

namespace Webchannel.Rotation.Command

open Effect Storage

variable {w : World}

/-! ## What has become of the documents -/

/-- A migration aside, the documents are as they were. -/
structure Unchanged (w : World) (before after : Documents) : Prop where
  generations : after.generations = before.generations
  keys : after.keys = before.keys ∨ before.keys = none ∧ ∃ policy, after.keys = (w.migrate policy).publishes

theorem Unchanged.refl (documents : Documents) : Unchanged w documents documents := ⟨rfl, .inl rfl⟩

theorem Unchanged.migrate {before after : Documents} (h : Unchanged w before after) (policy : AmbiguousConversationKeyPolicy) :
    Unchanged w before ((w.migrate policy).apply after) := by
  refine ⟨h.generations, ?_⟩
  have happly : ((w.migrate policy).apply after).keys = after.keys.or (w.migrate policy).publishes := rfl
  cases hafter : after.keys with
  | some keys =>
    rw [happly, hafter, Option.some_or, ← hafter]
    exact h.keys
  | none =>
    rw [happly, hafter, Option.none_or]
    refine .inr ⟨?_, policy, rfl⟩
    obtain hsame | ⟨hnone, -⟩ := h.keys
    · exact hsame.symm.trans hafter
    · exact hnone

/-- What is read of a document. -/
def keysOf (scope : StorageScope) (documents : Documents) : Option Keys :=
  keysOrEmpty scope (documents.keys.map stringOfUtf8)

def labelsOf (scope : StorageScope) (documents : Documents) : Option Generations :=
  generationsOf scope (documents.generations.map stringOfUtf8)

/-- The stored keys, once a migration has been through. -/
def StoredKeys (w : World) (scope : StorageScope) (before : Documents) (keys : Keys) : Prop :=
  ∃ documents, Unchanged w before documents ∧ keysOf scope documents = some keys

/-- The labels are for audits: where they cannot be read, there are none. -/
def StoredLabels (scope : StorageScope) (before : Documents) (labels : Generations) : Prop :=
  labels = .empty ∨ labelsOf scope before = some labels

/-- The peers that are rotated, in the order in which their keys are drawn. -/
def targetPeers (target : Target) (keys : Keys) : List JsString :=
  match target with
  | .peer peerId => [peerId]
  | .account => keys.keys

/-- From keys and labels that were stored, exactly the target has been rotated, and the documents read as they should. -/
structure Replaced (w : World) (scope : StorageScope) (target : Target) (before after : Documents) (keys : Keys)
    (labels counted : Generations) (draws : List Bytes) (stored : Keys × Generations) : Prop where
  storedKeys : StoredKeys w scope before keys
  storedLabels : StoredLabels scope before labels
  storedCounted : StoredLabels scope before counted
  present : targetPeers target keys ≠ [] ∧ ∀ peerId ∈ targetPeers target keys, keys.has peerId = true
  fresh : ∀ place, place < draws.length → w.randomKey place = draws[place]?
  readKeys : keysOf scope after = some stored.1
  readLabels : labelsOf scope after = some stored.2
  rotated : Rotated counted w.nowSec (targetPeers target keys) draws (keys, compactStaleGenerations labels keys) stored

def RotatedTo (w : World) (scope : StorageScope) (target : Target) (before after : Documents) : Prop :=
  ∃ keys labels counted draws stored, Replaced w scope target before after keys labels counted draws stored

/-- A rotation of the account was reviewed: the digest is that of the stored peers. -/
def Reviewed (w : World) (scope : StorageScope) (invocation : Invocation) (before : Documents) : Prop :=
  invocation.target = .account → ∃ keys digest, StoredKeys w scope before keys ∧ invocation.confirmDigest = some digest ∧
    rotationTargetDigest w.sha256Hex scope keys.keys = some digest

/-! ## Reading -/

section

variable {directory : JsString} {before : JsString → Directory} {documents : Documents}

/-- What holds throughout a run: the other directories are as they were, a lock that was there is there, and nothing has been
said about the outcome. -/
structure Kept (directory : JsString) (before : JsString → Directory) (host : Host) : Prop where
  elsewhere : ∀ other, other ≠ directory → host.tuples other = before other
  lock : ∀ bytes, (before directory).lock = some bytes → (host.tuples directory).lock = some bytes
  lines : ∀ line ∈ host.err, ∃ finding, line = .artifact finding

/-- The documents are these. -/
structure At (directory : JsString) (before : JsString → Directory) (documents : Documents) (host : Host) : Prop where
  kept : Kept directory before host
  documents : (host.tuples directory).documents = documents

/-- An error of no class of its own. -/
def Plain (failure : Failure) : Prop := ∃ cause, failure = .error cause

theorem At.congr {host host' : Host} (h : At directory before documents host) (htuples : host'.tuples = host.tuples)
    (herr : host'.err = host.err) : At directory before documents host' where
  kept :=
    { elsewhere := htuples ▸ h.kept.elsewhere
      lock := htuples ▸ h.kept.lock
      lines := herr ▸ h.kept.lines }
  documents := htuples ▸ h.documents

theorem At.update {host : Host} (h : At directory before documents host) {f : Directory → Directory}
    (hlock : ∀ bytes, (before directory).lock = some bytes → (f (host.tuples directory)).lock = some bytes) :
    At directory before (f (host.tuples directory)).documents (host.update directory f) where
  kept :=
    { elsewhere := fun other hother => (host.update_of_ne hother f).trans (h.kept.elsewhere other hother)
      lock := fun bytes hbytes => by
        rw [Host.update_self]
        exact hlock bytes hbytes
      lines := h.kept.lines }
  documents := by rw [Host.update_self]

/-- A run that only looks: it leaves the documents, and throws nothing but plain errors. -/
abbrev Looks {α : Type} (directory : JsString) (before : JsString → Directory) (documents : Documents) (m : Action α)
    (Q : α → Prop) : Prop :=
  Triple (At directory before documents) m (fun a host => At directory before documents host ∧ Q a)
    fun failure host => At directory before documents host ∧ Plain failure

theorem Looks.bind {α β : Type} {m : Action β} {f : β → Action α} {R : β → Prop} {Q : α → Prop}
    (hm : Looks directory before documents m R) (hf : ∀ b, R b → Looks directory before documents (f b) Q) :
    Looks directory before documents (m >>= f) Q :=
  Triple.bind hm fun b => Triple.of_pre fun hb => hf b hb

theorem Looks.pure {α : Type} {a : α} {Q : α → Prop} (h : Q a) : Looks directory before documents (Pure.pure a) Q :=
  Triple.pure a fun _ hat => ⟨hat, h⟩

theorem looks_raise {α : Type} {Q : α → Prop} (cause : Cause) : Looks directory before documents (raise cause) Q :=
  Triple.throw _ fun _ hat => ⟨hat, cause, rfl⟩

theorem looks_okOr {α : Type} (cause : Cause) (a : Option α) :
    Looks directory before documents (okOr cause a) fun b => a = some b := by
  cases a with
  | none => exact looks_raise cause
  | some a => exact Looks.pure rfl

theorem looks_orRaise {ε α : Type} (cause : ε → Cause) (a : Except ε α) :
    Looks directory before documents (orRaise cause a) fun b => a.toOption = some b := by
  cases a with
  | error error => exact looks_raise _
  | ok a => exact Looks.pure rfl

theorem looks_print (line : JsString) : Looks directory before documents (print line) fun _ => True :=
  Triple.modify fun _ hat => ⟨hat.congr rfl rfl, trivial⟩

/-- A handler that gives a value instead. -/
theorem Looks.catch {α : Type} {m : Action α} {handler : Failure → Action α} {Q : α → Prop}
    (hm : Looks directory before documents m Q) (hh : ∀ failure, Plain failure → Looks directory before documents (handler failure) Q) :
    Looks directory before documents (tryCatch m handler) Q :=
  Triple.tryCatch hm fun failure => Triple.of_pre fun hplain => hh failure hplain

theorem looks_readFile (file : Directory → Option Bytes) :
    Looks directory before documents (readFile w directory file) fun answer =>
      answer = none ∨ ∃ d : Directory, d.documents = documents ∧ answer = (file d).map stringOfUtf8 := by
  refine Triple.get_bind fun host hat => ?_
  refine Triple.modify_bind (R := At directory before documents) ?_ ?_
  · rintro _ rfl
    exact hat.congr rfl rfl
  · split
    · exact Looks.pure (.inr ⟨_, hat.documents, rfl⟩)
    · exact Looks.pure (.inl rfl)
    · exact looks_raise .system

variable {paths : TupleStoragePaths}

/-- The keys of a read; nothing at all is read where the read finds nothing. -/
theorem looks_readKeysOrEmpty : Looks paths.directory before documents (readKeysOrEmpty w paths) fun keys =>
    keys = .empty ∨ keysOf paths.scope documents = some keys := by
  refine Looks.bind (looks_readFile _) fun answer hanswer => ?_
  cases answer with
  | none => exact Looks.pure (.inl rfl)
  | some serialized =>
    obtain hnone | ⟨d, rfl, hd⟩ := hanswer
    · cases hnone
    · refine (looks_orRaise _ _).conseq (fun _ h => h) (fun keys _ h => ⟨h.1, .inr ?_⟩) fun _ _ h => h
      rw [keysOf, ← hd]
      exact h.2

theorem looks_readGenerations : Looks paths.directory before documents (readGenerations w paths) fun generations =>
    labelsOf paths.scope documents = some generations := by
  refine Looks.bind (looks_readFile _) fun answer hanswer => ?_
  cases answer with
  | none => exact looks_raise _
  | some serialized =>
    obtain hnone | ⟨d, rfl, hd⟩ := hanswer
    · cases hnone
    · refine (looks_orRaise _ _).conseq (fun _ h => h) (fun generations _ h => ⟨h.1, ?_⟩) fun _ _ h => h
      rw [labelsOf, ← hd]
      exact h.2

theorem looks_readGenerationsAuditOnly :
    Looks paths.directory before documents (readGenerationsAuditOnly w paths) (StoredLabels paths.scope documents) :=
  Looks.catch (looks_readGenerations.conseq (fun _ h => h) (fun _ _ h => ⟨h.1, .inr h.2⟩) fun _ _ h => h) fun _ _ =>
    Looks.pure (.inl rfl)

theorem looks_storeReadGenerationsAuditOnly :
    Looks paths.directory before documents (storeReadGenerationsAuditOnly w paths) (StoredLabels paths.scope documents) := by
  refine Looks.catch (looks_readGenerations.conseq (fun _ h => h) (fun _ _ h => ⟨h.1, .inr h.2⟩) fun _ _ h => h) ?_
  intro failure hplain
  split
  · exact looks_raise _
  · exact Looks.pure (.inl rfl)

theorem looks_assertPeerId (peerId : JsString) :
    Looks directory before documents (assertPeerId peerId) fun _ => True := by
  refine Triple.ite (fun _ => looks_raise _) fun _ => Looks.pure trivial

theorem looks_makeRandomKey (place : Nat) : Looks directory before documents (makeRandomKey w place) fun key =>
    w.randomKey place = some key ∧ key.length = conversationKeyBytes := by
  refine Looks.bind (looks_okOr _ _) fun bytes hbytes => ?_
  exact Triple.ite (fun _ => looks_raise _) fun hlength => Looks.pure ⟨hbytes, not_ne_iff.mp hlength⟩

theorem looks_readNowSec : Looks directory before documents (readNowSec w) (· = w.nowSec) :=
  Triple.ite (fun _ => Looks.pure rfl) fun _ => looks_raise _

theorem looks_serializeBoth (generations : Generations) (keys : Keys) :
    Looks directory before documents (serializeBoth paths generations keys) fun _ => True := by
  refine Looks.bind (looks_orRaise _ _) fun _ _ => ?_
  exact Looks.bind (looks_orRaise _ _) fun _ _ => Looks.pure trivial

/-- Keys that hold a peer were really read. -/
theorem keysOf_of_has {keys : Keys} {peerId : JsString} (h : keys = .empty ∨ keysOf paths.scope documents = some keys)
    (hpeer : keys.has peerId = true) : keysOf paths.scope documents = some keys := by
  obtain rfl | hkeys := h
  · cases hpeer
  · exact hkeys

/-- A document that is there is not published again. -/
theorem migrate_of_keysOf {keys : Keys} {peerId : JsString} (h : keysOf paths.scope documents = some keys)
    (hpeer : keys.has peerId = true) (policy : AmbiguousConversationKeyPolicy) :
    (w.migrate policy).apply documents = documents := by
  obtain ⟨stored, generations⟩ := documents
  cases stored with
  | some stored => rfl
  | none =>
    cases h
    cases hpeer

theorem migrateLegacyTupleState_at (policy : AmbiguousConversationKeyPolicy) :
    Triple (At directory before documents) (migrateLegacyTupleState w directory policy)
      (fun _ => At directory before ((w.migrate policy).apply documents))
      fun failure host => At directory before ((w.migrate policy).apply documents) host ∧ Plain failure := by
  refine Triple.modify_bind (R := At directory before ((w.migrate policy).apply documents)) ?_ ?_
  · intro host hat
    have hupdate := hat.update (f := fun d => { d with documents := (w.migrate policy).apply d.documents }) hat.kept.lock
    rw [hat.documents] at hupdate
    exact hupdate
  · refine Triple.ite (fun _ => Triple.pure _ fun _ h => h) fun _ => Triple.throw _ fun _ h => ⟨h, _, rfl⟩

/-! ## Writing -/

/-- Whatever the writes do, they touch the documents alone. -/
theorem publishDocuments_at (serializedGenerations serializedKeys : JsString) :
    Triple (At paths.directory before documents) (publishDocuments w paths serializedGenerations serializedKeys)
      (fun _ host => ∃ documents', At paths.directory before documents' host)
      fun failure host => (∃ documents', At paths.directory before documents' host) ∧ Plain failure := by
  have hstep {documents : Documents} (f : Documents → Documents) (returns : Bool) (cause : Cause) :
      Triple (At paths.directory before documents)
        (do
          modify (·.update paths.directory fun d => { d with documents := f d.documents })
          if returns then pure () else raise cause : Action Unit)
        (fun _ => At paths.directory before (f documents))
        fun failure host => (∃ documents', At paths.directory before documents' host) ∧ Plain failure := by
    refine Triple.modify_bind (R := At paths.directory before (f documents)) ?_ ?_
    · intro host hat
      have hupdate := hat.update (f := fun d => { d with documents := f d.documents }) hat.kept.lock
      rw [hat.documents] at hupdate
      exact hupdate
    · exact Triple.ite (fun _ => Triple.pure _ fun _ h => h) fun _ => Triple.throw _ fun _ h => ⟨⟨_, h⟩, _, rfl⟩
  refine Triple.bind (hstep (fun d => { d with generations := w.persistGenerations.apply serializedGenerations d.generations })
    _ .storageIo) fun _ => ?_
  refine Triple.bind (hstep (fun d => { d with keys := w.persistKeys.apply serializedKeys d.keys }) _ .storageIo) fun _ => ?_
  exact (hstep w.beforeVerifiedReadback.1 _ .system).conseq (fun _ h => h) (fun _ _ h => ⟨_, h⟩) fun _ _ h => h

/-- What has been read back is what is there, and what was expected. -/
theorem verifyCompleteReadback_at {expectedKeys : Keys} {expectedGenerations : Generations} {peerId : JsString}
    (hpeer : expectedKeys.has peerId = true) :
    Triple (At paths.directory before documents) (verifyCompleteReadback w paths expectedKeys expectedGenerations)
      (fun _ host => At paths.directory before documents host ∧ ∃ stored : Keys × Generations,
        keysOf paths.scope documents = some stored.1 ∧ labelsOf paths.scope documents = some stored.2 ∧
          (∀ p, stored.1.get p = expectedKeys.get p) ∧ ∀ p, stored.2.get p = expectedGenerations.get p)
      fun failure host => At paths.directory before documents host ∧ ∃ detail, failure = .readback detail := by
  have hfail (detail : ReadbackDetail) {α : Type} {P : Host → Prop} {Q : α → Host → Prop}
      (hP : ∀ host, P host → At paths.directory before documents host) :
      Triple P (throw (.readback detail) : Action α) Q
        fun failure host => At paths.directory before documents host ∧ ∃ detail, failure = .readback detail :=
    Triple.throw _ fun host h => ⟨hP host h, detail, rfl⟩
  have hread : Looks paths.directory before documents
      (do
        let keys ← readKeysOrEmpty w paths
        let generations ← readGenerations w paths
        pure (keys, generations))
      fun stored => (stored.1 = .empty ∨ keysOf paths.scope documents = some stored.1) ∧
        labelsOf paths.scope documents = some stored.2 :=
    Looks.bind looks_readKeysOrEmpty fun keys hkeys => Looks.bind looks_readGenerations fun generations hgenerations =>
      Looks.pure ⟨hkeys, hgenerations⟩
  refine Triple.bind (R := fun stored host => At paths.directory before documents host ∧
    (stored.1 = .empty ∨ keysOf paths.scope documents = some stored.1) ∧ labelsOf paths.scope documents = some stored.2)
    ?_ ?_
  · exact Triple.tryCatch hread fun _ => hfail _ fun _ h => h.1
  · intro stored
    refine Triple.of_pre fun hstored => ?_
    refine Triple.ite (fun _ => hfail _ fun _ h => h) fun hkeysSize => ?_
    refine Triple.ite (fun _ => hfail _ fun _ h => h) fun hsize => ?_
    refine Triple.ite (fun _ => hfail _ fun _ h => h) fun hkeysMatch => ?_
    refine Triple.ite (fun _ => hfail _ fun _ h => h) fun hmatch => ?_
    have hkeys := get_eq_of_matchesKeys (not_ne_iff.mp hkeysSize) (Bool.of_not_eq_false hkeysMatch)
    have hgenerations := get_eq_of_matchesGenerations (not_ne_iff.mp hsize) (Bool.of_not_eq_false hmatch)
    have hhas : stored.1.has peerId = expectedKeys.has peerId := by rw [OrderedMap.has, OrderedMap.has, hkeys]
    exact Triple.pure _ fun host hat => ⟨hat, stored, keysOf_of_has hstored.1 (hhas.trans hpeer), hstored.2, hkeys, hgenerations⟩

/-! ## Rotating one peer -/

/-- The result of the store's rotation, from the labels that it counted on. -/
structure StoreRotated (w : World) (scope : StorageScope) (documents : Documents) (peerId : JsString)
    (result : ConversationKeyRotationResult) : Prop where
  key : w.randomKey 0 = some result.key
  length : result.key.length = conversationKeyBytes
  epoch : ∃ counted, StoredLabels scope documents counted ∧ epochAfter (counted.get peerId) = some result.epoch
  rotatedAtSec : result.rotatedAtSec = w.nowSec

theorem rotate_at {keys : Keys} {peerId : JsString} (hkeys : keysOf paths.scope documents = some keys)
    (hpeer : keys.has peerId = true) :
    Triple (At paths.directory before documents) (rotate w paths peerId)
      (fun result host => (∃ documents', At paths.directory before documents' host) ∧
        StoreRotated w paths.scope documents peerId result)
      fun failure host => (∃ documents', At paths.directory before documents' host) ∧ Plain failure := by
  have hlook {α : Type} {m : Action α} {Q : α → Prop} (h : Looks paths.directory before documents m Q) :
      Triple (At paths.directory before documents) m (fun a host => At paths.directory before documents host ∧ Q a)
        fun failure host => (∃ documents', At paths.directory before documents' host) ∧ Plain failure :=
    h.conseq (fun _ h => h) (fun _ _ h => h) fun _ _ h => ⟨⟨documents, h.1⟩, h.2⟩
  have hstop {α : Type} {Q : α → Host → Prop} (cause : Cause) :
      Triple (At paths.directory before documents) (raise cause : Action α) Q
        fun failure host => (∃ documents', At paths.directory before documents' host) ∧ Plain failure :=
    Triple.throw _ fun _ h => ⟨⟨documents, h⟩, cause, rfl⟩
  have hmigrate := @migrateLegacyTupleState_at w paths.directory before documents .quarantine
  rw [migrate_of_keysOf hkeys hpeer] at hmigrate
  refine Triple.bind (hlook (looks_assertPeerId peerId)) fun _ => Triple.of_pre fun _ => ?_
  refine Triple.bind (hmigrate.conseq (fun _ h => h) (fun _ _ h => h) fun _ _ h => ⟨⟨documents, h.1⟩, h.2⟩) fun _ => ?_
  refine Triple.bind (hlook looks_readKeysOrEmpty) fun freshKeys => Triple.of_pre fun hfresh => ?_
  refine Triple.ite (fun _ => hstop _) fun hhas => ?_
  refine Triple.bind (hlook looks_storeReadGenerationsAuditOnly) fun counted => Triple.of_pre fun hcounted => ?_
  dsimp only
  refine Triple.ite (fun _ => hstop _) fun _ => ?_
  refine Triple.bind (hlook (looks_okOr _ _)) fun epoch => Triple.of_pre fun hepoch => ?_
  refine Triple.bind (hlook looks_readNowSec) fun rotatedAtSec => Triple.of_pre fun hnow => ?_
  refine Triple.bind (hlook (looks_makeRandomKey 0)) fun key => Triple.of_pre fun hkey => ?_
  refine Triple.bind (hlook (looks_serializeBoth _ _)) fun serialized => Triple.of_pre fun _ => ?_
  refine Triple.bind (publishDocuments_at _ _) fun _ => ?_
  rw [get_compactStaleGenerations, if_pos (Bool.of_not_eq_false hhas)] at hepoch
  exact Triple.pure _ fun host hat => ⟨hat, hkey.1, hkey.2, ⟨counted, hcounted, hepoch⟩, hnow⟩

/-- The documents are as they were, a migration aside. -/
def Settled (w : World) (directory : JsString) (before : JsString → Directory) (host : Host) : Prop :=
  ∃ documents, At directory before documents host ∧ Unchanged w (before directory).documents documents

theorem StoredLabels.of_unchanged {scope : StorageScope} {old : Documents} {labels : Generations}
    (h : StoredLabels scope documents labels) (hsame : Unchanged w old documents) : StoredLabels scope old labels := by
  unfold StoredLabels labelsOf at h ⊢
  rwa [hsame.generations] at h

theorem Settled.congr {host host' : Host} (h : Settled w directory before host) (htuples : host'.tuples = host.tuples)
    (herr : host'.err = host.err) : Settled w directory before host' := by
  obtain ⟨documents, hat, hsame⟩ := h
  exact ⟨documents, hat.congr htuples herr, hsame⟩

theorem prepareMigration_settled : Triple (Settled w paths.directory before) (prepareMigration w paths)
    (fun _ => Settled w paths.directory before) fun failure host => Settled w paths.directory before host ∧ Plain failure := by
  refine Triple.get_bind fun host hsettled => ?_
  refine Triple.ite (fun _ => Triple.pure _ ?_) fun _ => ?_
  · rintro _ rfl
    exact hsettled
  · obtain ⟨documents, hat, hsame⟩ := hsettled
    have hafter (host' : Host) (h : At paths.directory before ((w.migrate .preserve).apply documents) host') :
        Settled w paths.directory before host' := ⟨_, h, hsame.migrate .preserve⟩
    refine Triple.bind ((migrateLegacyTupleState_at .preserve).conseq ?_ (fun _ => hafter) fun _ host' h => ⟨hafter host' h.1, h.2⟩)
      fun _ => Triple.modify fun _ h => h.congr rfl rfl
    rintro _ rfl
    exact hat

end

section

variable {before : JsString → Directory} {paths : TupleStoragePaths}

/-- A run that leaves the tuple settled, and throws nothing but plain errors. -/
abbrev Settles {α : Type} (w : World) (directory : JsString) (before : JsString → Directory) (m : Action α) : Prop :=
  Triple (Settled w directory before) m (fun _ => Settled w directory before)
    fun failure host => Settled w directory before host ∧ Plain failure

theorem settles_of_looks {α : Type} {directory : JsString} {m : Action α} {Q : Documents → α → Prop}
    (h : ∀ documents, Looks directory before documents m (Q documents)) : Settles w directory before m := by
  refine Triple.of_exists fun documents => Triple.of_pre fun hsame => ?_
  exact (h documents).conseq (fun _ h => h) (fun _ _ h => ⟨documents, h.1, hsame⟩) fun _ _ h => ⟨⟨documents, h.1, hsame⟩, h.2⟩

theorem settles_raise {α : Type} {directory : JsString} (cause : Cause) :
    Settles w directory before (raise cause : Action α) := settles_of_looks fun _ => looks_raise (Q := fun _ => True) cause

theorem settles_pure {α : Type} {directory : JsString} (a : α) : Settles w directory before (pure a : Action α) :=
  Triple.pure a fun _ h => h

theorem settles_print {directory : JsString} (line : JsString) : Settles w directory before (print line) :=
  settles_of_looks fun _ => looks_print line

/-- What a peer has been rotated to. -/
theorem Replaced.peer {documents documents' : Documents} {keys : Keys} {labels : Generations} {peerId : JsString}
    {result : ConversationKeyRotationResult} {stored : Keys × Generations} {old : Documents}
    (hsame : Unchanged w old documents) (hkeys : keysOf paths.scope documents = some keys) (hpeer : keys.has peerId = true)
    (hlabels : StoredLabels paths.scope documents labels) (hresult : StoreRotated w paths.scope documents peerId result)
    (hread : keysOf paths.scope documents' = some stored.1) (hreadLabels : labelsOf paths.scope documents' = some stored.2)
    (hstored : ∀ p, stored.1.get p = (keys.set peerId result.key).get p)
    (hgenerations : ∀ p, stored.2.get p =
      ((compactStaleGenerations labels keys).set peerId ⟨result.epoch, result.rotatedAtSec⟩).get p) :
    RotatedTo w paths.scope (.peer peerId) old documents' := by
  obtain ⟨counted, hcounted, hepoch⟩ := hresult.epoch
  have hrotated : Rotated counted w.nowSec [peerId] [result.key] (keys, compactStaleGenerations labels keys)
      (keys.set peerId result.key, (compactStaleGenerations labels keys).set peerId ⟨result.epoch, w.nowSec⟩) :=
    Rotated.nil.cons (List.nodup_singleton peerId) hresult.length hepoch
  refine ⟨keys, labels, counted, [result.key], stored, ?_⟩
  refine ⟨⟨documents, hsame, hkeys⟩, hlabels.of_unchanged hsame, hcounted.of_unchanged hsame, ?_, ?_, hread, hreadLabels, ?_⟩
  · refine ⟨List.cons_ne_nil _ _, fun p hp => ?_⟩
    rw [List.mem_singleton.mp hp]
    exact hpeer
  · intro place hplace
    obtain rfl : place = 0 := by
      rw [List.length_singleton] at hplace
      omega
    exact hresult.key
  · refine hrotated.congr hstored ?_
    rw [hresult.rotatedAtSec] at hgenerations
    exact hgenerations

theorem rotatePeerVerified_settled (peerId : JsString) :
    Triple (Settled w paths.directory before) (rotatePeerVerified w paths peerId)
      (fun _ host => ∃ documents, At paths.directory before documents host ∧
        RotatedTo w paths.scope (.peer peerId) (before paths.directory).documents documents)
      fun failure host => (∃ documents, At paths.directory before documents host) ∧
        (Plain failure ∨ ∃ detail, failure = .readback detail) := by
  have hweak (failure : Failure) (host : Host) (h : Settled w paths.directory before host ∧ Plain failure) :
      (∃ documents, At paths.directory before documents host) ∧ (Plain failure ∨ ∃ detail, failure = .readback detail) := by
    obtain ⟨⟨documents, hat, -⟩, hplain⟩ := h
    exact ⟨⟨documents, hat⟩, .inl hplain⟩
  refine Triple.bind ((settles_of_looks fun _ => looks_assertPeerId peerId).conseq (fun _ h => h) (fun _ _ h => h) hweak)
    fun _ => ?_
  refine Triple.bind (prepareMigration_settled.conseq (fun _ h => h) (fun _ _ h => h) hweak) fun _ => ?_
  refine Triple.of_exists fun documents => Triple.of_pre fun hsame => ?_
  -- The documents are `documents` now, up to the store's own rotation.
  have hlook {α : Type} {m : Action α} {Q : α → Prop} (h : Looks paths.directory before documents m Q) :
      Triple (At paths.directory before documents) m (fun a host => At paths.directory before documents host ∧ Q a)
        fun failure host => (∃ documents, At paths.directory before documents host) ∧
          (Plain failure ∨ ∃ detail, failure = .readback detail) :=
    h.conseq (fun _ h => h) (fun _ _ h => h) fun _ _ h => ⟨⟨documents, h.1⟩, .inl h.2⟩
  refine Triple.bind (hlook looks_readKeysOrEmpty) fun keys => Triple.of_pre fun hread => ?_
  refine Triple.ite (fun _ => Triple.throw _ fun _ h => ⟨⟨documents, h⟩, .inl ⟨_, rfl⟩⟩) fun hhas => ?_
  have hpeer := Bool.of_not_eq_false hhas
  have hkeys := keysOf_of_has hread hpeer
  refine Triple.bind (hlook looks_readGenerationsAuditOnly) fun labels => Triple.of_pre fun hlabels => ?_
  refine Triple.bind ((rotate_at hkeys hpeer).conseq (fun _ h => h) (fun _ _ h => h) fun _ _ h => ⟨h.1, .inl h.2⟩)
    fun result => Triple.of_pre fun hresult => Triple.of_exists fun documents' => ?_
  have hexpected : (keys.set peerId result.key).has peerId = true := by
    rw [OrderedMap.has_set_eq, decide_eq_true rfl, Bool.true_or]
  refine Triple.bind ((verifyCompleteReadback_at hexpected).conseq (fun _ h => h) (fun _ _ h => h)
    fun _ _ h => ⟨⟨documents', h.1⟩, .inr h.2⟩) fun _ => Triple.of_pre ?_
  rintro ⟨stored, hstoredKeys, hstoredLabels, hget, hgetLabels⟩
  exact Triple.pure _ fun host hat =>
    ⟨documents', hat, Replaced.peer hsame hkeys hpeer hlabels hresult hstoredKeys hstoredLabels hget hgetLabels⟩

/-! ## Rotating the account -/

/-- The loop throws nothing but plain errors, and draws one key for every peer. -/
theorem looks_rotateEach {directory : JsString} {documents : Documents} {generations : Generations} {rotatedAtSec : Double}
    {peers : List JsString} (hnodup : peers.Nodup) (place : Nat) (keys : Keys) (next : Generations) :
    Looks directory before documents (rotateEach w generations rotatedAtSec peers place keys next) fun after =>
      ∃ draws, Rotated generations rotatedAtSec peers draws (keys, next) after ∧
        ∀ i, i < draws.length → w.randomKey (place + i) = draws[i]? := by
  induction peers generalizing place keys next with
  | nil => exact Looks.pure ⟨[], .nil, fun i hi => absurd hi (Nat.not_lt_zero i)⟩
  | cons peerId peers ih =>
    refine Looks.bind (looks_makeRandomKey place) fun key hkey => ?_
    refine Looks.bind (looks_okOr _ _) fun epoch hepoch => ?_
    refine (ih (List.nodup_cons.mp hnodup).2 (place + 1) _ _).conseq (fun _ h => h) ?_ fun _ _ h => h
    rintro after host ⟨hat, draws, hrotated, hdraws⟩
    refine ⟨hat, key :: draws, hrotated.cons hnodup hkey.2 hepoch, ?_⟩
    rintro (_ | i) hi
    · exact hkey.1
    · rw [List.getElem?_cons_succ, ← hdraws i (Nat.lt_of_succ_lt_succ hi)]
      congr 1
      omega

/-- What the account has been rotated to. -/
theorem Replaced.account {documents documents' : Documents} {keys : Keys} {labels : Generations} {draws : List Bytes}
    {next stored : Keys × Generations} {old : Documents} (hsame : Unchanged w old documents)
    (hkeys : keysOf paths.scope documents = some keys) (hsize : keys.size ≠ 0)
    (hlabels : StoredLabels paths.scope documents labels)
    (hrotated : Rotated (compactStaleGenerations labels keys) w.nowSec keys.keys draws (.empty, .empty) next)
    (hdraws : ∀ i, i < draws.length → w.randomKey (0 + i) = draws[i]?)
    (hread : keysOf paths.scope documents' = some stored.1) (hreadLabels : labelsOf paths.scope documents' = some stored.2)
    (hstored : ∀ p, stored.1.get p = next.1.get p) (hgenerations : ∀ p, stored.2.get p = next.2.get p) :
    RotatedTo w paths.scope .account old documents' := by
  have hnone {p : JsString} (hp : p ∉ keys.keys) : keys.has p = false := by
    rw [OrderedMap.mem_keys] at hp
    exact Bool.eq_false_of_not_eq_true hp
  refine ⟨keys, labels, labels, draws, stored, ⟨documents, hsame, hkeys⟩, hlabels.of_unchanged hsame,
    hlabels.of_unchanged hsame, ⟨?_, fun p hp => OrderedMap.mem_keys.mp hp⟩, ?_, hread, hreadLabels, ?_⟩
  · intro hnil
    exact hsize (OrderedMap.keys_eq_nil_iff.mp hnil)
  · intro place hplace
    rw [← hdraws place hplace, Nat.zero_add]
  · refine Rotated.congr (?_ : Rotated labels w.nowSec keys.keys draws (keys, compactStaleGenerations labels keys) next) hstored
      hgenerations
    refine ⟨hrotated.length, hrotated.bytes, hrotated.key, fun p hp => ?_, fun p hp => ?_, fun p hp => ?_⟩
    · rw [hrotated.otherKey p hp, OrderedMap.has_eq_false_iff.mp (hnone hp)]
      rfl
    · obtain ⟨epoch, hepoch, hget⟩ := hrotated.generation p hp
      rw [get_compactStaleGenerations, if_pos (OrderedMap.mem_keys.mp hp)] at hepoch
      exact ⟨epoch, hepoch, hget⟩
    · rw [hrotated.otherGeneration p hp, get_compactStaleGenerations, hnone hp]
      rfl

/-- How a rotation that throws leaves the documents. -/
inductive Aftermath (w : World) (scope : StorageScope) (invocation : Invocation) (old documents : Documents) :
    Failure → Prop where
  | untouched {failure : Failure} (hsame : Unchanged w old documents)
      (h : Plain failure ∨ ∃ peerCount targetDigest, failure = .digestMismatch peerCount targetDigest) :
      Aftermath w scope invocation old documents failure
  | attempted {failure : Failure} (hreviewed : Reviewed w scope invocation old)
      (h : Plain failure ∨ ∃ detail, failure = .readback detail) : Aftermath w scope invocation old documents failure
  | committed {error : Failure} (hreviewed : Reviewed w scope invocation old)
      (hrotated : RotatedTo w scope invocation.target old documents) :
      Aftermath w scope invocation old documents (.outcome .committedVerifiedReviewMismatch error none)

theorem rotateAccountVerified_settled {invocation : Invocation} {digest : JsString}
    (hdigest : invocation.confirmDigest = some digest) :
    Triple (Settled w paths.directory before) (rotateAccountVerified w paths digest)
      (fun _ host => ∃ documents, At paths.directory before documents host ∧
        RotatedTo w paths.scope .account (before paths.directory).documents documents ∧
        Reviewed w paths.scope invocation (before paths.directory).documents)
      fun failure host => ∃ documents, At paths.directory before documents host ∧
        Aftermath w paths.scope invocation (before paths.directory).documents documents failure := by
  have hweak (failure : Failure) (host : Host) (h : Settled w paths.directory before host ∧ Plain failure) :
      ∃ documents, At paths.directory before documents host ∧
        Aftermath w paths.scope invocation (before paths.directory).documents documents failure := by
    obtain ⟨⟨documents, hat, hsame⟩, hplain⟩ := h
    exact ⟨documents, hat, .untouched hsame (.inl hplain)⟩
  refine Triple.bind (prepareMigration_settled.conseq (fun _ h => h) (fun _ _ h => h) hweak) fun _ => ?_
  refine Triple.of_exists fun documents => Triple.of_pre fun hsame => ?_
  have hlook {α : Type} {m : Action α} {Q : α → Prop} (h : Looks paths.directory before documents m Q) :
      Triple (At paths.directory before documents) m (fun a host => At paths.directory before documents host ∧ Q a)
        fun failure host => ∃ documents, At paths.directory before documents host ∧
          Aftermath w paths.scope invocation (before paths.directory).documents documents failure :=
    h.conseq (fun _ h => h) (fun _ _ h => h) fun _ _ h => ⟨documents, h.1, .untouched hsame (.inl h.2)⟩
  have hstop {α : Type} {Q : α → Host → Prop} (cause : Cause) :
      Triple (At paths.directory before documents) (raise cause : Action α) Q
        fun failure host => ∃ documents, At paths.directory before documents host ∧
          Aftermath w paths.scope invocation (before paths.directory).documents documents failure :=
    Triple.throw _ fun _ h => ⟨documents, h, .untouched hsame (.inl ⟨cause, rfl⟩)⟩
  refine Triple.bind (hlook looks_readKeysOrEmpty) fun keys => Triple.of_pre fun hread => ?_
  refine Triple.ite (fun _ => hstop _) fun hsize => ?_
  have hkeys : keysOf paths.scope documents = some keys := by
    obtain rfl | hkeys := hread
    · exact absurd rfl hsize
    · exact hkeys
  refine Triple.bind (hlook (looks_okOr _ _)) fun fresh => Triple.of_pre fun hfresh => ?_
  refine Triple.ite (fun _ => ?_) fun hmatch => ?_
  · exact Triple.throw _ fun _ h => ⟨documents, h, .untouched hsame (.inr ⟨_, _, rfl⟩)⟩
  -- From here on the rotation is one that was reviewed.
  have hreviewed : Reviewed w paths.scope invocation (before paths.directory).documents := by
    intro _
    rw [not_ne_iff.mp hmatch] at hfresh
    exact ⟨keys, digest, ⟨documents, hsame, hkeys⟩, hdigest, hfresh⟩
  refine Triple.bind (hlook looks_readGenerationsAuditOnly) fun labels => Triple.of_pre fun hlabels => ?_
  dsimp only
  refine Triple.ite (fun _ => hstop _) fun _ => ?_
  refine Triple.bind (hlook looks_readNowSec) fun rotatedAtSec => Triple.of_pre fun hnow => ?_
  subst hnow
  refine Triple.bind (hlook (looks_rotateEach keys.keys_nodup 0 _ _)) fun next => Triple.of_pre ?_
  rintro ⟨draws, hrotated, hdraws⟩
  refine Triple.bind (hlook (looks_serializeBoth _ _)) fun serialized => Triple.of_pre fun _ => ?_
  refine Triple.bind ((publishDocuments_at _ _).conseq (fun _ h => h) (fun _ _ h => h) ?_)
    fun _ => Triple.of_exists fun documents' => ?_
  · rintro failure host ⟨⟨documents', hat⟩, hplain⟩
    exact ⟨documents', hat, .attempted hreviewed (.inl hplain)⟩
  obtain ⟨peerId, hpeer⟩ := hrotated.exists_key (mt OrderedMap.keys_eq_nil_iff.mp hsize)
  refine Triple.bind ((verifyCompleteReadback_at hpeer).conseq (fun _ h => h) (fun _ _ h => h)
    fun _ _ h => ⟨documents', h.1, .attempted hreviewed (.inr h.2)⟩) fun _ => Triple.of_pre ?_
  rintro ⟨stored, hstoredKeys, hstoredLabels, hget, hgetLabels⟩
  exact Triple.pure _ fun host hat => ⟨documents', hat,
    Replaced.account hsame hkeys hsize hlabels hrotated hdraws hstoredKeys hstoredLabels hget hgetLabels, hreviewed⟩

/-! ## Looking at the target -/

/-- The findings are reported, and nothing else is done. -/
theorem refuseLiveWriters_settled (directory : JsString) :
    Triple (Settled w directory before) (refuseLiveWriters w directory) (fun _ => Settled w directory before)
      fun failure host => Settled w directory before host ∧ ∃ reason, failure = .preflight reason := by
  have hcomplain (findings : List Finding) (host : Host) (h : Settled w directory before host) :
      Settled w directory before (findings.foldl (fun host finding => host.complain (.artifact finding)) host) := by
    induction findings generalizing host with
    | nil => exact h
    | cons finding findings ih =>
      obtain ⟨documents, hat, hsame⟩ := h
      refine ih _ ⟨documents, ⟨⟨hat.kept.elsewhere, hat.kept.lock, fun line hline => ?_⟩, hat.documents⟩, hsame⟩
      obtain hline | hline := List.mem_append.mp hline
      · exact hat.kept.lines line hline
      · exact ⟨finding, List.mem_singleton.mp hline⟩
  refine Triple.bind (R := fun _ => Settled w directory before) ?_ fun findings => ?_
  · unfold probeLiveTupleWriters
    split
    · exact Triple.throw _ fun _ h => ⟨h, _, rfl⟩
    · exact Triple.pure _ fun _ h => h
    · refine Triple.get_bind fun host h => Triple.pure _ ?_
      rintro _ rfl
      exact h
  · refine Triple.ite (fun _ => Triple.pure _ fun _ h => h) fun _ => ?_
    exact Triple.modify_bind (R := Settled w directory before) (hcomplain findings) (Triple.throw _ fun _ h => ⟨h, _, rfl⟩)

theorem settles_previewPeerRotation (peerId : JsString) :
    Settles w paths.directory before (previewPeerRotation w paths peerId) := by
  refine Triple.bind (settles_of_looks fun _ => looks_assertPeerId peerId) fun _ => ?_
  refine Triple.bind prepareMigration_settled fun _ => ?_
  refine Triple.bind (settles_of_looks fun _ => looks_readKeysOrEmpty) fun keys => ?_
  refine Triple.ite (fun _ => settles_pure _) fun _ => ?_
  exact Triple.bind (settles_of_looks fun _ => looks_readGenerationsAuditOnly) fun _ => settles_pure _

theorem settles_previewAccountRotation : Settles w paths.directory before (previewAccountRotation w paths) := by
  refine Triple.bind prepareMigration_settled fun _ => ?_
  refine Triple.bind (settles_of_looks fun _ => looks_readKeysOrEmpty) fun keys => ?_
  exact Triple.bind (settles_of_looks fun _ => looks_okOr _ _) fun _ => settles_pure _

theorem settles_assertApplyTargetExists (invocation : Invocation) :
    Settles w paths.directory before (assertApplyTargetExists w invocation paths) := by
  unfold assertApplyTargetExists
  cases invocation.target with
  | peer peerId =>
    refine Triple.bind (settles_previewPeerRotation peerId) fun _ => ?_
    exact Triple.ite (fun _ => settles_raise _) fun _ => settles_pure _
  | account =>
    refine Triple.bind settles_previewAccountRotation fun _ => ?_
    exact Triple.ite (fun _ => settles_raise _) fun _ => settles_pure _

/-- A dry run comes to its end with the exit code of success, or throws. -/
theorem previewRotation_settled (invocation : Invocation) :
    Triple (Settled w paths.directory before) (previewRotation w invocation paths)
      (fun code host => Settled w paths.directory before host ∧ code = exitOk)
      fun failure host => Settled w paths.directory before host ∧ Plain failure := by
  have hok : Triple (Settled w paths.directory before) (pure exitOk : Action Nat)
      (fun code host => Settled w paths.directory before host ∧ code = exitOk)
      fun failure host => Settled w paths.directory before host ∧ Plain failure := Triple.pure _ fun _ h => ⟨h, rfl⟩
  have hstop (cause : Cause) : Triple (Settled w paths.directory before) (raise cause : Action Nat)
      (fun code host => Settled w paths.directory before host ∧ code = exitOk)
      fun failure host => Settled w paths.directory before host ∧ Plain failure := Triple.throw _ fun _ h => ⟨h, cause, rfl⟩
  refine Triple.bind (settles_print _) fun _ => ?_
  cases invocation.target with
  | peer peerId =>
    refine Triple.bind (settles_previewPeerRotation peerId) fun _ => ?_
    refine Triple.bind (settles_print _) fun _ => Triple.ite (fun _ => hstop _) fun _ => ?_
    refine Triple.bind (settles_print _) fun _ => Triple.bind (settles_print _) fun _ => ?_
    exact Triple.bind (settles_print _) fun _ => Triple.bind (settles_print _) fun _ => hok
  | account =>
    refine Triple.bind settles_previewAccountRotation fun _ => ?_
    refine Triple.bind (settles_print _) fun _ => Triple.ite (fun _ => hstop _) fun _ => ?_
    refine Triple.bind (settles_print _) fun _ => Triple.bind (settles_print _) fun _ => ?_
    refine Triple.bind (settles_print _) fun _ => Triple.bind (settles_print _) fun _ => ?_
    exact Triple.bind (settles_print _) fun _ => hok

/-! ## The lock -/

theorem looks_readRotationLock {directory : JsString} {documents : Documents} :
    Looks directory before documents (readRotationLock w directory) fun _ => True := by
  refine Looks.bind (R := fun _ => True) ?_ fun _ _ => Looks.pure trivial
  refine Looks.catch ((looks_readFile _).conseq (fun _ h => h) (fun _ _ h => ⟨h.1, trivial⟩) fun _ _ h => h) fun _ _ => ?_
  exact Looks.pure trivial

/-- The lock is only put where there was none. -/
theorem publishLock_settled (directory serialized : JsString) :
    Triple (Settled w directory before) (publishLock w directory serialized)
      (fun attempt host => Settled w directory before host ∧ (attempt = .works → (before directory).lock = none))
      fun failure host => Settled w directory before host ∧ Plain failure := by
  unfold publishLock
  split
  · refine Triple.get_bind fun host hsettled => ?_
    obtain ⟨documents, hat, hsame⟩ := hsettled
    refine Triple.ite (fun _ => Triple.pure _ ?_) fun hlock => ?_
    · rintro _ rfl
      exact ⟨⟨documents, hat, hsame⟩, fun h => by cases h⟩
    · have hfree : (before directory).lock = none := by
        refine Option.eq_none_iff_forall_ne_some.mpr fun bytes hbytes => hlock ?_
        rw [hat.kept.lock bytes hbytes]
        rfl
      refine Triple.modify_bind (R := Settled w directory before) ?_ ?_
      · rintro _ rfl
        have hupdate := hat.update (f := fun d => { d with lock := w.linkLock.apply serialized d.lock })
          fun bytes hbytes => by rw [hfree] at hbytes; cases hbytes
        exact ⟨documents, hat.documents ▸ hupdate, hsame⟩
      · exact Triple.pure _ fun _ h => ⟨h, fun _ => hfree⟩
  · rename_i hrefused
    exact Triple.pure _ fun _ h => ⟨h, fun hworks => absurd hworks hrefused⟩

theorem acquireRotationLock_settled (directory : JsString) :
    Triple (Settled w directory before) (acquireRotationLock w directory)
      (fun _ host => Settled w directory before host ∧ (before directory).lock = none)
      fun failure host => Settled w directory before host ∧ (Plain failure ∨ ∃ reason, failure = .preflight reason) := by
  have hplain {α : Type} {m : Action α} {Q : α → Host → Prop}
      (h : Triple (Settled w directory before) m Q fun failure host => Settled w directory before host ∧ Plain failure) :
      Triple (Settled w directory before) m Q
        fun failure host => Settled w directory before host ∧ (Plain failure ∨ ∃ reason, failure = .preflight reason) :=
    h.conseq (fun _ h => h) (fun _ _ h => h) fun _ _ h => ⟨h.1, .inl h.2⟩
  have hrefuse {α : Type} {Q : α → Host → Prop} (reason : PreflightReason) :
      Triple (Settled w directory before) (throw (.preflight reason) : Action α) Q
        fun failure host => Settled w directory before host ∧ (Plain failure ∨ ∃ reason, failure = .preflight reason) :=
    Triple.throw _ fun _ h => ⟨h, .inr ⟨reason, rfl⟩⟩
  refine Triple.bind (hplain (settles_of_looks fun _ => looks_okOr _ _)) fun bytes => ?_
  refine Triple.bind (hplain (publishLock_settled directory _)) fun attempt => ?_
  cases attempt with
  | works => exact Triple.pure _ fun _ h => ⟨h.1, h.2 rfl⟩
  | fails => exact (hrefuse _).conseq (fun _ h => h.1) (fun _ _ h => h) fun _ _ h => h
  | eexist =>
    refine Triple.bind (R := fun _ => Settled w directory before)
      ((hplain (settles_of_looks fun _ => looks_readRotationLock)).conseq (fun _ h => h.1) (fun _ _ h => h) fun _ _ h => h)
      fun owner => ?_
    cases owner with
    | none => exact hrefuse _
    | some owner => exact hrefuse _

/-- The lock of this run is removed, or it is said that it was not; the documents are left. -/
theorem cleanUp_at {directory : JsString} {documents : Documents} (token : JsString)
    (hfree : (before directory).lock = none) :
    Triple (At directory before documents) (cleanUp w directory token)
      (fun _ host => At directory before documents host ∧ (host.tuples directory).lock = none)
      fun _ => At directory before documents := by
  have hput (lock : Option Bytes → Option Bytes) (host : Host) (hat : At directory before documents host) :
      At directory before documents (host.update directory fun d => { d with lock := lock d.lock }) := by
    have hupdate := hat.update (f := fun d => { d with lock := lock d.lock })
      fun bytes hbytes => by rw [hfree] at hbytes; cases hbytes
    exact hat.documents ▸ hupdate
  have hstop {Q : Unit → Host → Prop} (failure : Failure) : Triple (At directory before documents) (throw failure : Action Unit) Q
      fun _ => At directory before documents := Triple.throw _ fun _ h => h
  refine Triple.modify_bind (R := At directory before documents) (hput w.beforeLockRelease.1) ?_
  refine Triple.ite (fun _ => ?_) fun _ => hstop _
  refine Triple.bind (R := fun _ => At directory before documents)
    (looks_readRotationLock.conseq (fun _ h => h) (fun _ _ h => h.1) fun _ _ h => h.1) fun owner => ?_
  refine Triple.ite (fun _ => hstop _) fun _ => ?_
  split
  · exact Triple.modify fun host hat => ⟨hput (fun _ => none) host hat, by rw [Host.update_self]⟩
  · exact Triple.modify_bind (R := At directory before documents) (hput fun _ => none) (hstop _)
  · exact hstop _

/-! ## The verdict -/

/-- The outcome line says that no rotation commit was attempted. -/
def Failure.denies : Failure → Bool
  | .preflight _ | .digestMismatch _ _ => true
  | _ => false

/-- The outcome line says that the rotation was committed and verified. -/
def Failure.affirms : Failure → Bool
  | .outcome .committedVerifiedReviewMismatch _ _ | .outcome .committedVerifiedCleanupFailed _ _ => true
  | _ => false

/-- What an error says about the documents is true. -/
structure Verdict (w : World) (scope : StorageScope) (invocation : Invocation) (old documents : Documents)
    (failure : Failure) : Prop where
  changed : ¬ Unchanged w old documents → Reviewed w scope invocation old
  denied : failure.denies = true → Unchanged w old documents
  affirmed : failure.affirms = true → RotatedTo w scope invocation.target old documents

theorem Verdict.of_unchanged {scope : StorageScope} {invocation : Invocation} {old documents : Documents} {failure : Failure}
    (hsame : Unchanged w old documents) (h : failure.affirms = false) :
    Verdict w scope invocation old documents failure :=
  ⟨fun hchanged => absurd hsame hchanged, fun _ => hsame, fun haffirms => absurd (h.symm.trans haffirms) Bool.false_ne_true⟩

theorem Verdict.of_reviewed {scope : StorageScope} {invocation : Invocation} {old documents : Documents} {failure : Failure}
    (hreviewed : Reviewed w scope invocation old) (hdenies : failure.denies = false) (haffirms : failure.affirms = false) :
    Verdict w scope invocation old documents failure :=
  ⟨fun _ => hreviewed, fun h => absurd (hdenies.symm.trans h) Bool.false_ne_true,
    fun h => absurd (haffirms.symm.trans h) Bool.false_ne_true⟩

/-- The classification of an error, with or without a failed cleanup behind it, says what is true. -/
theorem Aftermath.verdict {scope : StorageScope} {invocation : Invocation} {old documents : Documents} {failure : Failure}
    (h : Aftermath w scope invocation old documents failure) :
    Verdict w scope invocation old documents (classify failure) ∧ ∀ cleanupError,
      Verdict w scope invocation old documents (withCleanupFailure cleanupError (some (classify failure))) := by
  cases h with
  | untouched hsame h =>
    obtain ⟨cause, rfl⟩ | ⟨peerCount, targetDigest, rfl⟩ := h
    · exact ⟨.of_unchanged hsame rfl, fun _ => .of_unchanged hsame rfl⟩
    · exact ⟨.of_unchanged hsame rfl, fun _ => .of_unchanged hsame rfl⟩
  | attempted hreviewed h =>
    obtain ⟨cause, rfl⟩ | ⟨detail, rfl⟩ := h
    · exact ⟨.of_reviewed hreviewed rfl rfl, fun _ => .of_reviewed hreviewed rfl rfl⟩
    · exact ⟨.of_reviewed hreviewed rfl rfl, fun _ => .of_reviewed hreviewed rfl rfl⟩
  | committed hreviewed hrotated =>
    exact ⟨⟨fun _ => hreviewed, fun h => absurd h Bool.false_ne_true, fun _ => hrotated⟩,
      fun _ => ⟨fun _ => hreviewed, fun h => absurd h Bool.false_ne_true, fun _ => hrotated⟩⟩

/-- A committed rotation whose lock could not be removed. -/
theorem Verdict.cleanupFailed {scope : StorageScope} {invocation : Invocation} {old documents : Documents}
    (hreviewed : Reviewed w scope invocation old) (hrotated : RotatedTo w scope invocation.target old documents)
    (cleanupError : Failure) : Verdict w scope invocation old documents (withCleanupFailure cleanupError none) :=
  ⟨fun _ => hreviewed, fun h => absurd h Bool.false_ne_true, fun _ => hrotated⟩

/-! ## Applying -/

theorem rotateTarget_settled (invocation : Invocation) :
    Triple (Settled w paths.directory before) (rotateTarget w invocation paths)
      (fun _ host => ∃ documents, At paths.directory before documents host ∧
        RotatedTo w paths.scope invocation.target (before paths.directory).documents documents ∧
        Reviewed w paths.scope invocation (before paths.directory).documents)
      fun failure host => ∃ documents, At paths.directory before documents host ∧
        Aftermath w paths.scope invocation (before paths.directory).documents documents failure := by
  have hweak (failure : Failure) (host : Host) (h : Settled w paths.directory before host ∧ Plain failure) :
      ∃ documents, At paths.directory before documents host ∧
        Aftermath w paths.scope invocation (before paths.directory).documents documents failure := by
    obtain ⟨⟨documents, hat, hsame⟩, hplain⟩ := h
    exact ⟨documents, hat, .untouched hsame (.inl hplain)⟩
  have hsettles {α : Type} {m : Action α} (h : Settles w paths.directory before m) :
      Triple (Settled w paths.directory before) m (fun _ => Settled w paths.directory before)
        fun failure host => ∃ documents, At paths.directory before documents host ∧
          Aftermath w paths.scope invocation (before paths.directory).documents documents failure :=
    h.conseq (fun _ h => h) (fun _ _ h => h) hweak
  unfold rotateTarget
  cases htarget : invocation.target with
  | peer peerId =>
    have hreviewed : Reviewed w paths.scope invocation (before paths.directory).documents :=
      fun h => by rw [htarget] at h; cases h
    refine Triple.bind (hsettles (settles_print _)) fun _ => ?_
    refine Triple.bind ((rotatePeerVerified_settled peerId).conseq (fun _ h => h) (fun _ _ h => h) ?_)
      fun _ => Triple.pure _ ?_
    · rintro failure host ⟨⟨documents, hat⟩, hfailure⟩
      exact ⟨documents, hat, .attempted hreviewed hfailure⟩
    · rintro host ⟨documents, hat, hrotated⟩
      exact ⟨documents, hat, hrotated, hreviewed⟩
  | account =>
    refine Triple.bind (hsettles settles_previewAccountRotation) fun preview => ?_
    refine Triple.ite (fun _ => Triple.throw _ ?_) fun hmatch => ?_
    · rintro host ⟨documents, hat, hsame⟩
      exact ⟨documents, hat, .untouched hsame (.inr ⟨_, _, rfl⟩)⟩
    · have hdigest := (not_ne_iff.mp hmatch).symm
      refine Triple.bind (hsettles (settles_print _)) fun _ => ?_
      rw [hdigest]
      refine Triple.bind (rotateAccountVerified_settled hdigest) fun summary => ?_
      refine Triple.ite (fun _ => Triple.throw _ ?_) fun _ => Triple.pure _ fun _ h => h
      rintro host ⟨documents, hat, hrotated, hreviewed⟩
      exact ⟨documents, hat, .committed hreviewed (htarget ▸ hrotated)⟩

/-- What an applied rotation has done, when it ends well. -/
structure Applied (w : World) (paths : TupleStoragePaths) (invocation : Invocation) (before : JsString → Directory)
    (host : Host) : Prop where
  elsewhere : ∀ other, other ≠ paths.directory → host.tuples other = before other
  rotated : RotatedTo w paths.scope invocation.target (before paths.directory).documents (host.tuples paths.directory).documents
  reviewed : Reviewed w paths.scope invocation (before paths.directory).documents
  noLock : (before paths.directory).lock = none
  released : (host.tuples paths.directory).lock = none
  lines : ∀ line ∈ host.err, ∃ finding, line = .artifact finding

theorem Applied.print {invocation : Invocation} (line : JsString) :
    Triple (Applied w paths invocation before) (print line) (fun _ => Applied w paths invocation before)
      fun _ _ => False := Triple.modify fun _ h => ⟨h.elsewhere, h.rotated, h.reviewed, h.noLock, h.released, h.lines⟩

theorem Applied.printSummary {invocation : Invocation} (summary : Summary) :
    Triple (Applied w paths invocation before) (printSummary summary) (fun _ => Applied w paths invocation before)
      fun _ _ => False := by
  cases summary with
  | peer summary => exact Triple.bind (Applied.print _) fun _ => Applied.print _
  | account summary => exact Triple.bind (Applied.print _) fun _ => Triple.bind (Applied.print _) fun _ => Applied.print _

/-- What is known of the documents once the rotation has been tried. -/
def Tried (w : World) (scope : StorageScope) (invocation : Invocation) (old documents : Documents) :
    Except Failure Summary → Prop
  | .ok _ => RotatedTo w scope invocation.target old documents ∧ Reviewed w scope invocation old
  | .error failure => Aftermath w scope invocation old documents failure

theorem applyRotation_settled (invocation : Invocation) :
    Triple (Settled w paths.directory before) (applyRotation w invocation paths)
      (fun code host => Applied w paths invocation before host ∧ code = exitOk)
      fun failure host => ∃ documents, At paths.directory before documents host ∧
        Verdict w paths.scope invocation (before paths.directory).documents documents failure := by
  have hweak {failure : Failure} {host : Host} (h : Settled w paths.directory before host) (haffirms : failure.affirms = false) :
      ∃ documents, At paths.directory before documents host ∧
        Verdict w paths.scope invocation (before paths.directory).documents documents failure := by
    obtain ⟨documents, hat, hsame⟩ := h
    exact ⟨documents, hat, .of_unchanged hsame haffirms⟩
  refine Triple.bind ((settles_print _).conseq (fun _ h => h) (fun _ _ h => h) ?_) fun _ => ?_
  · rintro _ host ⟨hsettled, cause, rfl⟩
    exact hweak hsettled rfl
  refine Triple.bind ((acquireRotationLock_settled paths.directory).conseq (fun _ h => h) (fun _ _ h => h) ?_)
    fun token => Triple.of_pre fun hfree => ?_
  · rintro _ host ⟨hsettled, ⟨cause, rfl⟩ | ⟨reason, rfl⟩⟩
    · exact hweak hsettled rfl
    · exact hweak hsettled rfl
  -- The lock is held from here on, and neither of the two attempts throws.
  refine Triple.bind (R := fun rotated host => ∃ documents, At paths.directory before documents host ∧
    Tried w paths.scope invocation (before paths.directory).documents documents rotated) ?_ fun rotated => ?_
  · exact Triple.attempt (rotateTarget_settled invocation)
  refine Triple.of_exists fun documents => Triple.of_pre fun htried => ?_
  refine Triple.bind (R := fun cleaned host => At paths.directory before documents host ∧
    (cleaned = .ok () → (host.tuples paths.directory).lock = none)) ?_ fun cleaned => ?_
  · exact Triple.attempt ((cleanUp_at token hfree).conseq (fun _ h => h) (fun _ _ h => ⟨h.1, fun _ => h.2⟩)
      fun _ _ h => ⟨h, fun heq => by cases heq⟩)
  cases rotated with
  | error failure =>
    obtain ⟨hclassified, hcleaned⟩ := Aftermath.verdict htried
    cases cleaned with
    | ok _ => exact Triple.throw _ fun host h => ⟨documents, h.1, hclassified⟩
    | error cleanupError => exact Triple.throw _ fun host h => ⟨documents, h.1, hcleaned cleanupError⟩
  | ok summary =>
    obtain ⟨hrotated, hreviewed⟩ := htried
    cases cleaned with
    | error cleanupError => exact Triple.throw _ fun host h => ⟨documents, h.1, .cleanupFailed hreviewed hrotated cleanupError⟩
    | ok _ =>
      have hprint {α : Type} {m : Action α} (h : Triple (Applied w paths invocation before) m
          (fun _ => Applied w paths invocation before) fun _ _ => False) :
          Triple (Applied w paths invocation before) m (fun _ => Applied w paths invocation before)
            fun failure host => ∃ documents, At paths.directory before documents host ∧
              Verdict w paths.scope invocation (before paths.directory).documents documents failure :=
        h.conseq (fun _ h => h) (fun _ _ h => h) fun _ _ h => h.elim
      refine Triple.conseq (P := Applied w paths invocation before) ?_ ?_ (fun _ _ h => h) fun _ _ h => h
      · refine Triple.bind (hprint (Applied.printSummary summary)) fun _ => ?_
        refine Triple.bind (hprint (Applied.print _)) fun _ => Triple.bind (hprint (Applied.print _)) fun _ => ?_
        exact Triple.bind (hprint (Applied.print _)) fun _ => Triple.pure _ fun _ h => ⟨h, rfl⟩
      · rintro host ⟨hat, hreleased⟩
        exact ⟨hat.kept.elsewhere, hat.documents.symm ▸ hrotated, hreviewed, hfree, hreleased rfl, hat.kept.lines⟩

/-! ## A run of the command -/

/-- What the command may have done before it ends with an exit code of its own. -/
def Finished (w : World) (invocation : Invocation) (paths : TupleStoragePaths) (before : JsString → Directory) (host : Host) :
    Prop :=
  if invocation.apply then Applied w paths invocation before host else Settled w paths.directory before host

theorem execute_settled {invocation : Invocation}
    (hpaths : tupleStoragePaths w invocation.tenant invocation.accountId invocation.storageRoot = .ok paths) :
    Triple (Settled w paths.directory before) (execute w invocation)
      (fun code host => Finished w invocation paths before host ∧ code = exitOk)
      fun failure host => ∃ documents, At paths.directory before documents host ∧
        Verdict w paths.scope invocation (before paths.directory).documents documents failure ∧
          (invocation.apply = false → Unchanged w (before paths.directory).documents documents) := by
  have hweak {failure : Failure} {host : Host} (h : Settled w paths.directory before host) (haffirms : failure.affirms = false) :
      ∃ documents, At paths.directory before documents host ∧
        Verdict w paths.scope invocation (before paths.directory).documents documents failure ∧
          (invocation.apply = false → Unchanged w (before paths.directory).documents documents) := by
    obtain ⟨documents, hat, hsame⟩ := h
    exact ⟨documents, hat, .of_unchanged hsame haffirms, fun _ => hsame⟩
  have hsettles {α : Type} {m : Action α} {Q : α → Host → Prop}
      (h : Triple (Settled w paths.directory before) m Q
        fun failure host => Settled w paths.directory before host ∧ Plain failure) :
      Triple (Settled w paths.directory before) m Q
        fun failure host => ∃ documents, At paths.directory before documents host ∧
          Verdict w paths.scope invocation (before paths.directory).documents documents failure ∧
            (invocation.apply = false → Unchanged w (before paths.directory).documents documents) := by
    refine h.conseq (fun _ h => h) (fun _ _ h => h) ?_
    rintro _ host ⟨hsettled, cause, rfl⟩
    exact hweak hsettled rfl
  rw [execute, hpaths]
  refine Triple.bind (R := fun found host => Settled w paths.directory before host ∧ found = paths)
    (Triple.pure _ fun _ h => ⟨h, rfl⟩) fun found => Triple.of_pre ?_
  rintro rfl
  refine Triple.bind (R := fun _ => Settled w found.directory before) ?_ fun _ => ?_
  · refine Triple.ite (fun _ => ?_) fun _ => Triple.pure _ fun _ h => h
    refine (refuseLiveWriters_settled found.directory).conseq (fun _ h => h) (fun _ _ h => h) ?_
    rintro _ host ⟨hsettled, reason, rfl⟩
    exact hweak hsettled rfl
  refine Triple.modify_bind (R := Settled w found.directory before) (fun _ h => h.congr rfl rfl) ?_
  refine Triple.bind (R := fun _ => Settled w found.directory before) ?_ fun _ => ?_
  · exact Triple.ite (fun _ => hsettles (settles_assertApplyTargetExists invocation)) fun _ => hsettles (settles_pure _)
  refine Triple.bind (hsettles (settles_print _)) fun _ => Triple.bind (hsettles (settles_print _)) fun _ => ?_
  refine Triple.bind (hsettles (settles_print _)) fun _ => Triple.bind (hsettles (settles_print _)) fun _ => ?_
  refine Triple.ite (fun happly => ?_) fun happly => ?_
  · refine (applyRotation_settled invocation).conseq (fun _ h => h) (fun code host h => ⟨?_, h.2⟩) ?_
    · rw [Finished, if_pos happly]
      exact h.1
    · rintro failure host ⟨documents, hat, hverdict⟩
      exact ⟨documents, hat, hverdict, fun hdry => absurd (hdry.symm.trans happly) Bool.false_ne_true⟩
  · refine (hsettles (previewRotation_settled invocation)).conseq (fun _ h => h) (fun code host h => ⟨?_, h.2⟩) fun _ _ h => h
    rw [Finished, if_neg happly]
    exact h.1

/-- The outcome lines are told apart by what they say. -/
theorem applyOutcome_injective : Function.Injective applyOutcome := by
  intro state state' h
  revert h
  cases state <;> cases state' <;> decide +kernel

theorem noCommitAttempted_ne (state : ApplyFailureState) : noCommitAttempted ≠ applyOutcome state := by
  cases state <;> decide +kernel

theorem applyOutcome_ne (state : ApplyFailureState) :
    applyOutcome state ≠ dryRunOutcome ∧ applyOutcome state ≠ cleanupAlsoFailed := by
  cases state <;> decide +kernel

theorem noCommitAttempted_ne_others : noCommitAttempted ≠ dryRunOutcome ∧ noCommitAttempted ≠ cleanupAlsoFailed := by
  decide +kernel

/-- Only an error that denies a commit gets the line that does. -/
theorem denies_of_outcomeLines {apply : Bool} {failure : Failure} (h : noCommitAttempted ∈ outcomeLines apply failure) :
    failure.denies = true := by
  unfold outcomeLines at h
  split at h
  · exact absurd (List.mem_singleton.mp h) noCommitAttempted_ne_others.1
  · cases failure with
    | preflight reason => rfl
    | digestMismatch peerCount targetDigest => rfl
    | outcome state error cleanupError =>
      obtain h | h := List.mem_cons.mp h
      · exact absurd h (noCommitAttempted_ne state)
      · split at h
        · exact absurd (List.mem_singleton.mp h) noCommitAttempted_ne_others.2
        · cases h
    | readback detail => exact absurd (List.mem_singleton.mp h) (noCommitAttempted_ne _)
    | error cause => exact absurd (List.mem_singleton.mp h) (noCommitAttempted_ne _)

/-- The line of a state comes from an error in this state, or is the one that says the least. -/
theorem state_of_outcomeLines {apply : Bool} {failure : Failure} {state : ApplyFailureState}
    (hstate : state ≠ .noVerifiedCommit) (h : applyOutcome state ∈ outcomeLines apply failure) :
    ∃ error cleanupError, failure = .outcome state error cleanupError := by
  have hleast (h : applyOutcome state ∈ [applyOutcome .noVerifiedCommit]) : False :=
    hstate (applyOutcome_injective (List.mem_singleton.mp h))
  unfold outcomeLines at h
  split at h
  · exact absurd (List.mem_singleton.mp h) (applyOutcome_ne state).1
  · cases failure with
    | preflight reason => exact absurd (List.mem_singleton.mp h).symm (noCommitAttempted_ne state)
    | digestMismatch peerCount targetDigest => exact absurd (List.mem_singleton.mp h).symm (noCommitAttempted_ne state)
    | outcome state' error cleanupError =>
      obtain h | h := List.mem_cons.mp h
      · rw [applyOutcome_injective h]
        exact ⟨error, cleanupError, rfl⟩
      · split at h
        · exact absurd (List.mem_singleton.mp h) (applyOutcome_ne state).2
        · cases h
    | readback detail => exact (hleast h).elim
    | error cause => exact (hleast h).elim

theorem tuples_reportFailureOutcome (invocation : Invocation) (failure : Failure) (host : Host) :
    (reportFailureOutcome invocation failure host).tuples = host.tuples := by
  have hfold (lines : List String) (host : Host) :
      (lines.foldl (fun host line => host.complain (.text line)) host).tuples = host.tuples := by
    induction lines generalizing host with
    | nil => rfl
    | cons line lines ih => exact ih _
  exact hfold _ host

theorem err_reportFailureOutcome (invocation : Invocation) (failure : Failure) (host : Host) :
    (reportFailureOutcome invocation failure host).err =
      host.err ++ (outcomeLines invocation.apply failure).map .text := by
  have hfold (lines : List String) (host : Host) :
      (lines.foldl (fun host line => host.complain (.text line)) host).err = host.err ++ lines.map .text := by
    induction lines generalizing host with
    | nil => rw [List.map_nil, List.append_nil, List.foldl_nil]
    | cons line lines ih =>
      rw [List.foldl_cons, ih, List.map_cons, Host.complain, List.append_assoc]
      rfl
  exact hfold _ host

/-- The arguments name an invocation that runs, and the invocation a tuple. -/
structure Names (w : World) (argv : List JsString) (invocation : Invocation) (paths : TupleStoragePaths) : Prop where
  parsed : parseInvocation w.isAbsolute argv = .run invocation
  tuple : tupleStoragePaths w invocation.tenant invocation.accountId invocation.storageRoot = .ok paths

/-- What the command says about a run is true. -/
structure Truthful (w : World) (argv : List JsString) (before : JsString → Directory) (code : Nat) (after : Host) : Prop where
  /-- Nothing changes that was not asked for, and no account that was not reviewed. -/
  changed : ∀ directory, ¬ Unchanged w (before directory).documents (after.tuples directory).documents →
    js "--apply" ∈ ownArguments argv ∧ ∃ invocation paths, Names w argv invocation paths ∧ paths.directory = directory ∧
      Reviewed w paths.scope invocation (before directory).documents
  /-- Success after `--apply`, where help is not asked for. -/
  applied : code = exitOk → js "--apply" ∈ ownArguments argv → (∀ flag ∈ helpFlags, flag ∉ ownArguments argv) →
    ∃ invocation paths, Names w argv invocation paths ∧
      RotatedTo w paths.scope invocation.target (before paths.directory).documents (after.tuples paths.directory).documents ∧
      (before paths.directory).lock = none ∧ (after.tuples paths.directory).lock = none ∧
      ∀ other, other ≠ paths.directory → after.tuples other = before other
  usage : code = exitUsage → after.tuples = before
  dryRun : code = exitOk → js "--apply" ∉ ownArguments argv →
    ∀ directory, Unchanged w (before directory).documents (after.tuples directory).documents
  denied : .text noCommitAttempted ∈ after.err →
    ∀ directory, Unchanged w (before directory).documents (after.tuples directory).documents
  affirmed : ∀ state, state = .committedVerifiedReviewMismatch ∨ state = .committedVerifiedCleanupFailed →
    .text (applyOutcome state) ∈ after.err → ∃ invocation paths, Names w argv invocation paths ∧
      RotatedTo w paths.scope invocation.target (before paths.directory).documents (after.tuples paths.directory).documents
  lock : ∀ directory bytes, (before directory).lock = some bytes → (after.tuples directory).lock = some bytes

/-- A run that touches no tuple tells the truth, whatever it says of none. -/
theorem Truthful.untouched {argv : List JsString} {code : Nat} {after : Host} (htuples : after.tuples = before)
    (hok : code = exitOk → js "--apply" ∈ ownArguments argv → ∃ flag ∈ helpFlags, flag ∈ ownArguments argv)
    (hlines : ∀ state, state = .committedVerifiedReviewMismatch ∨ state = .committedVerifiedCleanupFailed →
      .text (applyOutcome state) ∉ after.err) : Truthful w argv before code after := by
  have hsame (directory : JsString) : Unchanged w (before directory).documents (after.tuples directory).documents :=
    htuples ▸ Unchanged.refl _
  constructor
  · exact fun directory hchanged => absurd (hsame directory) hchanged
  · intro hcode happly hhelp
    obtain ⟨flag, hflag, hown⟩ := hok hcode happly
    exact absurd hown (hhelp flag hflag)
  · exact fun _ => htuples
  · exact fun _ _ => hsame
  · exact fun _ => hsame
  · exact fun state hstate hline => absurd hline (hlines state hstate)
  · intro directory bytes hlock
    rwa [htuples]

/-- An outcome line is one that the report has written. -/
theorem mem_outcomeLines {invocation : Invocation} {failure : Failure} {host : Host} {line : String}
    (hlines : ∀ line ∈ host.err, ∃ finding, line = .artifact finding)
    (h : ErrorLine.text line ∈ (reportFailureOutcome invocation failure (host.complain (.described failure))).err) :
    line ∈ outcomeLines invocation.apply failure := by
  rw [err_reportFailureOutcome] at h
  obtain h | h := List.mem_append.mp h
  · obtain h | h := List.mem_append.mp h
    · obtain ⟨finding, heq⟩ := hlines _ h
      cases heq
    · cases List.mem_singleton.mp h
  · obtain ⟨line', hline', heq⟩ := List.mem_map.mp h
    cases heq
    exact hline'

theorem ne_noVerifiedCommit {state : ApplyFailureState}
    (h : state = .committedVerifiedReviewMismatch ∨ state = .committedVerifiedCleanupFailed) : state ≠ .noVerifiedCommit := by
  obtain rfl | rfl := h
  · decide
  · decide

theorem affirms_outcome {state : ApplyFailureState} {error : Failure} {cleanupError : Option Failure}
    (h : state = .committedVerifiedReviewMismatch ∨ state = .committedVerifiedCleanupFailed) :
    (Failure.outcome state error cleanupError).affirms = true := by
  obtain rfl | rfl := h
  · rfl
  · rfl

/-- An error is reported as what it is. -/
theorem Truthful.failed {argv : List JsString} {invocation : Invocation} {failure : Failure} {host : Host}
    {documents : Documents} (hnames : Names w argv invocation paths)
    (hat : At paths.directory before documents host)
    (hverdict : Verdict w paths.scope invocation (before paths.directory).documents documents failure)
    (hdry : invocation.apply = false → Unchanged w (before paths.directory).documents documents) :
    Truthful w argv before exitFailed (reportFailureOutcome invocation failure (host.complain (.described failure))) := by
  have hasked := parseInvocation_run hnames.parsed
  have htuples : (reportFailureOutcome invocation failure (host.complain (.described failure))).tuples = host.tuples :=
    tuples_reportFailureOutcome ..
  have hsame (h : Unchanged w (before paths.directory).documents documents) (directory : JsString) :
      Unchanged w (before directory).documents (host.tuples directory).documents := by
    by_cases hdirectory : directory = paths.directory
    · rw [hdirectory, hat.documents]
      exact h
    · rw [hat.kept.elsewhere directory hdirectory]
      exact Unchanged.refl _
  constructor
  · intro directory hchanged
    rw [htuples] at hchanged
    by_cases hdirectory : directory = paths.directory
    · rw [hdirectory, hat.documents] at hchanged
      refine ⟨hasked.apply.mp (Bool.of_not_eq_false fun h => hchanged (hdry h)), invocation, paths, hnames,
        hdirectory.symm, ?_⟩
      rw [hdirectory]
      exact hverdict.changed hchanged
    · rw [hat.kept.elsewhere directory hdirectory] at hchanged
      exact absurd (Unchanged.refl _) hchanged
  · exact fun hcode => by cases hcode
  · exact fun hcode => by cases hcode
  · exact fun hcode => by cases hcode
  · intro hline
    rw [htuples]
    exact hsame (hverdict.denied (denies_of_outcomeLines (mem_outcomeLines hat.kept.lines hline)))
  · intro state hstate hline
    obtain ⟨error, cleanupError, rfl⟩ :=
      state_of_outcomeLines (ne_noVerifiedCommit hstate) (mem_outcomeLines hat.kept.lines hline)
    refine ⟨invocation, paths, hnames, ?_⟩
    rw [htuples, hat.documents]
    exact hverdict.affirmed (affirms_outcome hstate)
  · intro directory bytes hlock
    rw [htuples]
    by_cases hdirectory : directory = paths.directory
    · rw [hdirectory] at hlock ⊢
      exact hat.kept.lock bytes hlock
    · rwa [hat.kept.elsewhere directory hdirectory]

/-- A run that ends by itself has done what it was asked for. -/
theorem Truthful.finished {argv : List JsString} {invocation : Invocation} {host : Host}
    (hnames : Names w argv invocation paths) (h : Finished w invocation paths before host) :
    Truthful w argv before exitOk host := by
  have hasked := parseInvocation_run hnames.parsed
  unfold Finished at h
  split at h
  · rename_i happly
    have hline (line : String) : .text line ∉ host.err := by
      intro hmem
      obtain ⟨finding, heq⟩ := h.lines _ hmem
      cases heq
    constructor
    · intro directory hchanged
      by_cases hdirectory : directory = paths.directory
      · exact ⟨hasked.apply.mp happly, invocation, paths, hnames, hdirectory.symm, hdirectory ▸ h.reviewed⟩
      · rw [h.elsewhere directory hdirectory] at hchanged
        exact absurd (Unchanged.refl _) hchanged
    · exact fun _ _ _ => ⟨invocation, paths, hnames, h.rotated, h.noLock, h.released, h.elsewhere⟩
    · exact fun hcode => by cases hcode
    · exact fun _ hdry => absurd (hasked.apply.mp happly) hdry
    · exact fun hdenied => absurd hdenied (hline _)
    · exact fun state _ haffirmed => absurd haffirmed (hline _)
    · intro directory bytes hlock
      by_cases hdirectory : directory = paths.directory
      · rw [hdirectory, h.noLock] at hlock
        cases hlock
      · rwa [h.elsewhere directory hdirectory]
  · rename_i happly
    obtain ⟨documents, hat, hsame⟩ := h
    have hline (line : String) : .text line ∉ host.err := by
      intro hmem
      obtain ⟨finding, heq⟩ := hat.kept.lines _ hmem
      cases heq
    have hall (directory : JsString) : Unchanged w (before directory).documents (host.tuples directory).documents := by
      by_cases hdirectory : directory = paths.directory
      · rw [hdirectory, hat.documents]
        exact hsame
      · rw [hat.kept.elsewhere directory hdirectory]
        exact Unchanged.refl _
    constructor
    · exact fun directory hchanged => absurd (hall directory) hchanged
    · exact fun _ hown => absurd (hasked.apply.mpr hown) happly
    · exact fun hcode => by cases hcode
    · exact fun _ _ => hall
    · exact fun _ => hall
    · exact fun state _ haffirmed => absurd haffirmed (hline _)
    · intro directory bytes hlock
      by_cases hdirectory : directory = paths.directory
      · rw [hdirectory] at hlock ⊢
        exact hat.kept.lock bytes hlock
      · rwa [hat.kept.elsewhere directory hdirectory]

end

theorem settled_start (directory : JsString) (tuples : JsString → Directory) :
    Settled w directory tuples (Host.start tuples) :=
  ⟨(tuples directory).documents, ⟨⟨fun _ _ => rfl, fun _ h => h, fun _ h => absurd h List.not_mem_nil⟩, rfl⟩, .refl _⟩

/-- The rotation command tells the truth, for every argv, every storage and every placement of failures. -/
theorem runRotateConversationKeyCli_truthful (w : World) (argv : List JsString) (tuples : JsString → Directory) :
    Truthful w argv tuples (runRotateConversationKeyCli w argv (Host.start tuples)).1
      (runRotateConversationKeyCli w argv (Host.start tuples)).2 := by
  unfold runRotateConversationKeyCli
  cases hparsed : parseInvocation w.isAbsolute argv with
  | help => exact .untouched rfl (fun _ _ => parseInvocation_help hparsed) fun _ _ => List.not_mem_nil
  | usageError message =>
    refine .untouched rfl (fun hcode => by cases hcode) fun state _ hline => ?_
    have hhint : applyOutcome state ≠ usageHint := by cases state <;> decide +kernel
    obtain hline | hline := List.mem_append.mp hline
    · cases List.mem_singleton.mp hline
    · exact hhint (ErrorLine.text.inj (List.mem_singleton.mp hline))
  | run invocation =>
    dsimp only
    cases hpaths : tupleStoragePaths w invocation.tenant invocation.accountId invocation.storageRoot with
    | error cause =>
      have hexec : exec (execute w invocation) (Host.start tuples) = (.error (.error cause), Host.start tuples) := by
        rw [execute, hpaths]
        rfl
      rw [hexec]
      refine .untouched (tuples_reportFailureOutcome ..) (fun hcode => by cases hcode) fun state hstate hline => ?_
      obtain ⟨error, cleanupError, heq⟩ :=
        state_of_outcomeLines (ne_noVerifiedCommit hstate) (mem_outcomeLines (fun _ h => absurd h List.not_mem_nil) hline)
      cases heq
    | ok paths =>
      have hnames : Names w argv invocation paths := ⟨hparsed, hpaths⟩
      have hrun := execute_settled hpaths (Host.start tuples) (settled_start paths.directory tuples)
      rcases hexec : exec (execute w invocation) (Host.start tuples) with ⟨failure | code, host⟩
      · rw [hexec] at hrun
        obtain ⟨documents, hat, hverdict, hdry⟩ := hrun
        exact .failed hnames hat hverdict hdry
      · rw [hexec] at hrun
        obtain ⟨hfinished, rfl⟩ := hrun
        exact .finished hnames hfinished

/-- Everything works. -/
def workingWorld : World where
  isAbsolute _ := true
  join a b := a ++ js "/" ++ b
  home := js "/home"
  deriveStorageNamespaceId scope := scope.accountId
  sha256Hex := hexOf
  pid := 1
  processIsAlive _ := true
  readdir := .returns
  read _ := .returns
  migrate _ := ⟨none, true⟩
  token := some (List.replicate 16 0)
  lockFile := .works
  linkLock := ⟨some id, true⟩
  unlinkTemporary := true
  randomKey place := some (List.replicate 32 (UInt8.ofNat place))
  nowSec := toDouble 1
  persistGenerations := ⟨some id, true⟩
  persistKeys := ⟨some id, true⟩
  beforeVerifiedReadback := (id, true)
  beforeLockRelease := (id, true)
  unlinkLock := .works

/-- Asking for help is a success, and rotates nothing. -/
theorem apply_with_help : ¬ ∀ (w : World) (argv : List JsString) (tuples : JsString → Directory),
    (runRotateConversationKeyCli w argv (Host.start tuples)).1 = exitOk → js "--apply" ∈ ownArguments argv →
      ∃ invocation paths, Names w argv invocation paths ∧ RotatedTo w paths.scope invocation.target
        (tuples paths.directory).documents
        ((runRotateConversationKeyCli w argv (Host.start tuples)).2.tuples paths.directory).documents := by
  intro h
  have hparsed : parseInvocation workingWorld.isAbsolute [js "--apply", js "--help"] = .help := by decide
  have hcode : (runRotateConversationKeyCli workingWorld [js "--apply", js "--help"]
      (Host.start fun _ => ⟨⟨none, none⟩, none, []⟩)).1 = exitOk := by
    rw [runRotateConversationKeyCli, hparsed]
  obtain ⟨invocation, paths, hnames, -⟩ := h workingWorld [js "--apply", js "--help"] _ hcode (by decide)
  rw [hnames.parsed] at hparsed
  cases hparsed

end Webchannel.Rotation.Command
