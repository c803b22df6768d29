import Webchannel.Keys.Store

/-!
# Stable keys

Every durable state of the files, in every run of the store, is compared with the one before
it: what a write may do to the keys and to the epochs is said once, and each operation is
shown to write nothing else, also when a write fails or the process stops in between.
-/

namespace Webchannel.Keys

open Webchannel.Effect Webchannel.Runs

variable {Key : Type} {k : Limits} {start d d' : Disk Key} {c : Option (OrderedMap String Key)}
  {s : Machine Key}

/-! ## Durable states -/

/-- The keys that a restart would find. -/
def Disk.keyMap (d : Disk Key) : OrderedMap String Key :=
  match d.keys.read keyVersion with
  | some (.ok keys) => keys
  | _ => .empty

/-- The labels that a restart would find. -/
def Disk.generationMap (d : Disk Key) : OrderedMap String ConversationKeyGeneration :=
  match d.generations.read generationVersion with
  | some (.ok generations) => generations
  | _ => .empty

/-- The ceiling, and the peers whose keys the operation may replace. -/
structure Limits where
  maxKeys : Nat
  rotates : String → Prop

/-- What a write may do to the durable state. -/
structure LawfulWrite (k : Limits) (w : Write) (d d' : Disk Key) : Prop where
  /-- no key goes away, and only a rotation whose epoch is durable replaces one -/
  kept : ∀ peerId key, d.keyMap.get peerId = some key → ∃ key', d'.keyMap.get peerId = some key' ∧
    (key' = key ∨ ∃ generation, d.generationMap.get peerId = some generation ∧
      w = .replaced peerId generation.epoch ∧ k.rotates peerId)
  bounded : d.keyMap.size ≤ k.maxKeys → d'.keyMap.size ≤ k.maxKeys
  /-- the epochs of a peer with a key only grow -/
  epochs : ∀ peerId generation, d.keyMap.has peerId = true →
    d.generationMap.get peerId = some generation → ∃ generation',
      d'.generationMap.get peerId = some generation' ∧
        (generation' = generation ∨ generation.epoch < generation'.epoch)

/-- The state the files are in after the writes. -/
def latest (start : Disk Key) : List (Write × Disk Key) → Disk Key
  | [] => start
  | e :: _ => e.2

/-- Every write is lawful. -/
def Lawful (k : Limits) (start : Disk Key) : List (Write × Disk Key) → Prop
  | [] => True
  | e :: rest => LawfulWrite k e.1 (latest start rest) e.2 ∧ Lawful k start rest

/-- The history is lawful and ends in the files as they are. -/
structure Sound (k : Limits) (start : Disk Key) (s : Machine Key) : Prop where
  lawful : Lawful k start s.history
  disk : s.disk = latest start s.history
  legacy : ∀ keys, Migration.done (some keys) ∈ s.migrations → keys.size ≤ k.maxKeys

theorem Sound.of_eq {t : Machine Key} (h : Sound k start s) (hhistory : t.history = s.history)
    (hdisk : t.disk = s.disk) (hmigrations : ∀ m ∈ t.migrations, m ∈ s.migrations) : Sound k start t := by
  refine ⟨?_, ?_, fun keys hk => h.legacy keys (hmigrations _ hk)⟩
  · rw [hhistory]
    exact h.lawful
  · rw [hhistory, hdisk]
    exact h.disk

/-- What the process remembers is what the files say. -/
def CacheOk (s : Machine Key) : Prop :=
  ∀ keys, s.cache = some keys → keys = s.disk.keyMap ∧ s.migrationPrepared = true

/-- A point inside an operation, past the migration. -/
structure At (k : Limits) (start d : Disk Key) (c : Option (OrderedMap String Key)) (s : Machine Key) :
    Prop where
  sound : Sound k start s
  disk : s.disk = d
  cache : s.cache = c
  prepared : s.migrationPrepared = true

/-- An operation has ended; if the process is still there, nothing has changed since `d`. -/
def Failed (k : Limits) (start d : Disk Key) (c : Option (OrderedMap String Key)) (e : Failure)
    (s : Machine Key) : Prop :=
  Sound k start s ∧ (e ≠ .stopped → s.disk = d ∧ s.cache = c ∧ s.migrationPrepared = true)

/-- An operation has ended; if the process is still there, it remembers the files. -/
def Ended (k : Limits) (start : Disk Key) (e : Failure) (s : Machine Key) : Prop :=
  Sound k start s ∧ (e ≠ .stopped → CacheOk s)

def Ready (k : Limits) (start : Disk Key) (s : Machine Key) : Prop :=
  Sound k start s ∧ CacheOk s

theorem At.failed {e : Failure} (h : At k start d c s) : Failed k start d c e s :=
  ⟨h.sound, fun _ => ⟨h.disk, h.cache, h.prepared⟩⟩

theorem Failed.ended {e : Failure} (h : Failed k start d c e s)
    (hc : ∀ keys, c = some keys → keys = d.keyMap) : Ended k start e s := by
  refine ⟨h.1, fun he keys hkeys => ?_⟩
  obtain ⟨hdisk, hcache, hprepared⟩ := h.2 he
  rw [hcache] at hkeys
  rw [hdisk]
  exact ⟨hc keys hkeys, hprepared⟩

theorem At.ready (h : At k start d c s) (hc : ∀ keys, c = some keys → keys = d.keyMap) :
    Ready k start s := by
  refine ⟨h.sound, fun keys hkeys => ?_⟩
  rw [h.cache] at hkeys
  rw [h.disk]
  exact ⟨hc keys hkeys, h.prepared⟩

theorem Ready.at (h : Ready k start s) (hp : s.migrationPrepared = true) :
    At k start s.disk s.cache s ∧ ∀ keys, s.cache = some keys → keys = s.disk.keyMap :=
  ⟨⟨h.1, rfl, rfl, hp⟩, fun keys hkeys => (h.2 keys hkeys).1⟩

/-! ## Reading and writing -/

theorem change_spec {w : Write} {f : Disk Key → Disk Key} (h : LawfulWrite k w d (f d)) :
    Triple (At k start d c) (change w f) (fun _ => At k start (f d) c)
      (Failed k start d c) := by
  unfold change
  refine .get_bind fun s hs => ?_
  obtain ⟨hsound, hdisk, hcache, hprepared⟩ := hs
  have hcommit (rest : List WriteOutcome) :
      At k start (f d) c ({ s with writes := rest }.commit w f) := by
    refine ⟨⟨⟨?_, hsound.lawful⟩, rfl, hsound.legacy⟩, congrArg f hdisk, hcache, hprepared⟩
    change LawfulWrite k w (latest start s.history) (f s.disk)
    rw [← hsound.disk, hdisk]
    exact h
  cases s.writes with
  | nil => exact .throw _ fun t ht => by rw [ht]; exact At.failed ⟨hsound, hdisk, hcache, hprepared⟩
  | cons outcome rest =>
    refine .modify_bind (R := (· = { s with writes := rest })) (fun t ht => by rw [ht]) ?_
    have hkept : At k start d c { s with writes := rest } :=
      ⟨⟨hsound.lawful, hsound.disk, hsound.legacy⟩, hdisk, hcache, hprepared⟩
    cases outcome with
    | written => exact .modify fun t ht => by rw [ht]; exact hcommit rest
    | failed => exact .throw _ fun t ht => by rw [ht]; exact hkept.failed
    | stoppedBefore => exact .throw _ fun t ht => by rw [ht]; exact hkept.failed
    | stoppedAfter =>
      refine .modify_bind (R := At k start (f d) c) (fun t ht => by rw [ht]; exact hcommit rest) ?_
      exact .throw _ fun t ht => ⟨ht.sound, fun hne => absurd rfl hne⟩

theorem catching_spec {α : Type} {P : Machine Key → Prop} {m : Op Key α} {handler : Failure → Op Key α}
    {Q : α → Machine Key → Prop} {R E : Failure → Machine Key → Prop} (hm : Triple P m Q R)
    (hstopped : ∀ s, R .stopped s → E .stopped s)
    (hh : ∀ e, e ≠ .stopped → Triple (R e) (handler e) Q E) : Triple P (catching m handler) Q E := by
  refine .tryCatch hm fun e => .ite ?_ (hh e)
  rintro rfl
  exact .throw _ hstopped

/-- The process takes `keys` for the durable ones. -/
theorem remember_spec {E : Failure → Machine Key → Prop} (keys : OrderedMap String Key) :
    Triple (At k start d c) (modify ({ · with cache := some keys })) (fun _ => At k start d (some keys)) E :=
  .modify fun _ hs => ⟨hs.sound.of_eq rfl rfl fun _ h => h, hs.disk, rfl, hs.prepared⟩

theorem randomKey_spec :
    Triple (At k start d c) randomKey (fun _ => At k start d c) (Failed k start d c) := by
  unfold randomKey
  refine .get_bind fun s hs => ?_
  cases s.random with
  | nil => exact .throw _ fun t ht => by rw [ht]; exact hs.failed
  | cons key rest =>
    refine .modify_bind (R := At k start d c) (fun t ht => ?_) (.pure _ fun _ ht => ht)
    rw [ht]
    exact ⟨⟨hs.sound.lawful, hs.sound.disk, hs.sound.legacy⟩, hs.disk, hs.cache, hs.prepared⟩

theorem readNowSec_spec :
    Triple (At k start d c) readNowSec (fun _ => At k start d c) (Failed k start d c) := by
  unfold readNowSec
  refine .get_bind fun s hs => ?_
  cases s.clock with
  | nil => exact .throw _ fun t ht => by rw [ht]; exact hs.failed
  | cons value rest =>
    refine .modify_bind (R := At k start d c) (fun t ht => ?_) ?_
    · rw [ht]
      exact ⟨⟨hs.sound.lawful, hs.sound.disk, hs.sound.legacy⟩, hs.disk, hs.cache, hs.prepared⟩
    · exact .ite (fun _ => .throw _ fun t ht => ht.failed) fun _ => .pure _ fun _ ht => ht

theorem epochAfter_spec (current : Option ConversationKeyGeneration) :
    Triple (At k start d c) (epochAfter current)
      (fun next s => At k start d c s ∧ ∀ old, current = some old → old.epoch < next)
      (Failed k start d c) := by
  cases current with
  | none => exact .pure _ fun _ hs => ⟨hs, fun old h => by cases h⟩
  | some generation =>
    refine .ite (fun _ => .throw _ fun t ht => ht.failed) fun _ => .pure _ fun _ hs => ⟨hs, ?_⟩
    rintro old ⟨⟩
    exact Nat.lt_succ_self _

/-- A read gives the durable keys, or there is no document. -/
theorem readStoreFile_spec :
    Triple (At k start d c) readStoreFile
      (fun keys s => At k start d c s ∧ keys.getD .empty = d.keyMap)
      (fun e s => Failed k start d c e s ∧ d.keyMap = .empty) := by
  unfold readStoreFile
  refine .get_bind fun s hs => ?_
  have hmap := congrArg Disk.keyMap hs.disk
  unfold Disk.keyMap at hmap
  cases hread : s.disk.keys.read keyVersion with
  | none =>
    rw [hread] at hmap
    exact .pure _ fun t ht => by rw [ht]; exact ⟨hs, hmap⟩
  | some result =>
    rw [hread] at hmap
    cases result with
    | ok keys => exact .pure _ fun t ht => by rw [ht]; exact ⟨hs, hmap⟩
    | error code => exact .throw _ fun t ht => by rw [ht]; exact ⟨hs.failed, hmap.symm⟩

theorem readFresh_spec :
    Triple (At k start d c) readFresh (fun keys s => At k start d c s ∧ keys = d.keyMap)
      (Failed k start d c) := by
  refine .bind (readStoreFile_spec.conseq (fun _ h => h) (fun _ _ h => h) (fun _ _ h => h.1)) fun keys => ?_
  cases keys with
  | none => exact .pure _ fun s hs => hs
  | some keys => exact .pure _ fun s hs => hs

theorem readGenerationFile_spec :
    Triple (At k start d c) readGenerationFile
      (fun generations s => At k start d c s ∧ generations.getD .empty = d.generationMap)
      (fun e s => Failed k start d c e s ∧ d.generationMap = .empty) := by
  unfold readGenerationFile
  refine .get_bind fun s hs => ?_
  have hmap := congrArg Disk.generationMap hs.disk
  unfold Disk.generationMap at hmap
  cases hread : s.disk.generations.read generationVersion with
  | none =>
    rw [hread] at hmap
    exact .pure _ fun t ht => by rw [ht]; exact ⟨hs, hmap⟩
  | some result =>
    rw [hread] at hmap
    cases result with
    | ok generations => exact .pure _ fun t ht => by rw [ht]; exact ⟨hs, hmap⟩
    | error code => exact .throw _ fun t ht => by rw [ht]; exact ⟨hs.failed, hmap.symm⟩

theorem assertGenerationsNotFromFuture_spec :
    Triple (At k start d c) assertGenerationsNotFromFuture (fun _ => At k start d c)
      (Failed k start d c) := by
  refine catching_spec (R := Failed k start d c) (.bind (R := fun _ => At k start d c)
    (readGenerationFile_spec.conseq (fun _ h => h) (fun _ _ h => h.1) (fun _ _ h => h.1))
    fun _ => .pure _ fun _ h => h) (fun _ h => h) fun e he => ?_
  refine .ite (fun _ => .throw _ fun _ h => h) fun _ => .pure _ fun t ht => ?_
  obtain ⟨hdisk, hcache, hprepared⟩ := ht.2 he
  exact ⟨ht.1, hdisk, hcache, hprepared⟩

theorem readGenerationsAuditOnly_spec :
    Triple (At k start d c) readGenerationsAuditOnly
      (fun generations s => At k start d c s ∧ generations = d.generationMap)
      (Failed k start d c) := by
  refine catching_spec (R := fun e s => Failed k start d c e s ∧ d.generationMap = .empty)
    (.bind readGenerationFile_spec fun generations => ?_) (fun _ h => h.1) fun e he => ?_
  · cases generations with
    | none => exact .pure _ fun _ h => h
    | some generations => exact .pure _ fun _ h => h
  · refine .ite (fun _ => .throw _ fun _ h => h.1) fun _ => .pure _ fun t ht => ?_
    obtain ⟨⟨hsound, hkept⟩, hempty⟩ := ht
    obtain ⟨hdisk, hcache, hprepared⟩ := hkept he
    exact ⟨⟨hsound, hdisk, hcache, hprepared⟩, hempty.symm⟩

/-! ## Lawful writes -/

theorem read_serialize {α : Type} (supported : Int) (body : α) :
    (FileContent.serialize supported body).read supported = some (.ok body) := by
  simp [FileContent.serialize, FileContent.read, Document.parse, assertDocumentVersionNotFromFuture,
    assertSupportedDocumentVersion, assertDocumentStorageIdentity]
  rfl

@[simp] theorem keyMap_serialize (keys : OrderedMap String Key) :
    Disk.keyMap { d with keys := .serialize keyVersion keys } = keys := by
  simp only [Disk.keyMap, read_serialize]

@[simp] theorem generationMap_serialize (generations : OrderedMap String ConversationKeyGeneration) :
    Disk.generationMap { d with generations := .serialize generationVersion generations } = generations := by
  simp only [Disk.generationMap, read_serialize]

/-- A write that leaves the keys and the sidecar as a restart would find them. -/
theorem lawful_of_same {w : Write} (hk : d'.keyMap = d.keyMap) (hg : d'.generationMap = d.generationMap) :
    LawfulWrite k w d d' := by
  refine ⟨fun p key hp => ⟨key, by rw [hk]; exact hp, .inl rfl⟩, fun h => by rw [hk]; exact h, ?_⟩
  intro p g _ hgen
  exact ⟨g, by rw [hg]; exact hgen, .inl rfl⟩

theorem lawful_generations {generations : OrderedMap String ConversationKeyGeneration}
    (h : ∀ p g, d.keyMap.has p = true → d.generationMap.get p = some g →
      ∃ g', generations.get p = some g' ∧ (g' = g ∨ g.epoch < g'.epoch)) :
    LawfulWrite k .generations d
      { d with generations := .serialize generationVersion generations } := by
  refine ⟨fun p key hp => ⟨key, hp, .inl rfl⟩, fun h => h, ?_⟩
  intro p g hp hg
  rw [generationMap_serialize]
  exact h p g hp hg

theorem size_set_of_not_has {α β : Type} [DecidableEq α] {m : OrderedMap α β} {a : α} (b : β)
    (h : m.has a = false) : (m.set a b).size = m.size + 1 := by
  have hkeys := congrArg List.length (OrderedMap.keys_set_of_not_has b h)
  simpa [OrderedMap.keys, OrderedMap.size] using hkeys

theorem size_set_of_has {α β : Type} [DecidableEq α] {m : OrderedMap α β} {a : α} (b : β)
    (h : m.has a = true) : (m.set a b).size = m.size := by
  have hkeys := congrArg List.length (OrderedMap.keys_set_of_has b h)
  simpa [OrderedMap.keys, OrderedMap.size] using hkeys

theorem lawful_create {peerId : String} {key : Key} (hnew : d.keyMap.get peerId = none)
    (hroom : d.keyMap.size < k.maxKeys) :
    LawfulWrite k (.created peerId) d
      { d with keys := .serialize keyVersion (d.keyMap.set peerId key) } := by
  refine ⟨fun p old hp => ⟨old, ?_, .inl rfl⟩, fun _ => ?_, fun p g _ hg => ⟨g, hg, .inl rfl⟩⟩
  · have hne : p ≠ peerId := by
      rintro rfl
      rw [hnew] at hp
      cases hp
    rw [keyMap_serialize, OrderedMap.get_set_of_ne _ _ hne]
    exact hp
  · rw [keyMap_serialize, size_set_of_not_has _ (OrderedMap.has_eq_false_iff.mpr hnew)]
    exact hroom

theorem lawful_replace {peerId : String} {key : Key} {generation : ConversationKeyGeneration}
    (hhas : d.keyMap.has peerId = true) (hgen : d.generationMap.get peerId = some generation)
    (hrotates : k.rotates peerId) : LawfulWrite k (.replaced peerId generation.epoch) d
      { d with keys := .serialize keyVersion (d.keyMap.set peerId key) } := by
  refine ⟨fun p old hp => ?_, fun h => ?_, fun p g _ hg => ⟨g, hg, .inl rfl⟩⟩
  · rw [keyMap_serialize, OrderedMap.get_set_eq]
    split
    · rename_i heq
      subst heq
      exact ⟨key, rfl, .inr ⟨generation, hgen, rfl, hrotates⟩⟩
    · exact ⟨old, hp, .inl rfl⟩
  · rw [keyMap_serialize, size_set_of_has _ hhas]
    exact h

/-- Where a restart would find no key, any document that fits may be installed. -/
theorem lawful_adopt {w : Write} {keys : OrderedMap String Key} (hnone : d.keyMap = .empty)
    (hsize : keys.size ≤ k.maxKeys) :
    LawfulWrite k w d { d with keys := .serialize keyVersion keys } := by
  refine ⟨fun p key hp => ?_, fun _ => ?_, fun p g hp _ => ?_⟩
  · rw [hnone] at hp
    cases hp
  · rw [keyMap_serialize]
    exact hsize
  · rw [hnone] at hp
    cases hp

theorem get_compact {generations : OrderedMap String ConversationKeyGeneration}
    {keys : OrderedMap String Key} {p : String} (h : keys.has p = true) :
    (compactStaleGenerations generations keys).get p = generations.get p := by
  cases hg : generations.get p with
  | some g =>
    refine OrderedMap.mem_entries.mp (List.mem_filter.mpr ⟨OrderedMap.mem_entries.mpr hg, h⟩)
  | none =>
    cases hc : (compactStaleGenerations generations keys).get p with
    | none => rfl
    | some g =>
      have hmem := OrderedMap.mem_entries.mpr hc
      have hold := OrderedMap.mem_entries.mp (List.mem_of_mem_filter hmem)
      rw [hg] at hold
      cases hold

/-- The label of a peer is written behind the compaction. -/
def Disk.label (d : Disk Key) (peerId : String) (generation : ConversationKeyGeneration) : Disk Key :=
  { d with
    generations := .serialize generationVersion
      ((compactStaleGenerations d.generationMap d.keyMap).set peerId generation) }

theorem get_generationMap_label (peerId : String) (generation : ConversationKeyGeneration) :
    (d.label peerId generation).generationMap.get peerId = some generation := by
  unfold Disk.label
  rw [generationMap_serialize, OrderedMap.get_set_self]

theorem lawful_label {peerId : String} {generation : ConversationKeyGeneration}
    (h : ∀ old, d.keyMap.has peerId = true → d.generationMap.get peerId = some old →
      old.epoch < generation.epoch) :
    LawfulWrite k .generations d (d.label peerId generation) := by
  refine lawful_generations fun p g hp hg => ?_
  rw [OrderedMap.get_set_eq]
  split
  · rename_i heq
    subst heq
    exact ⟨generation, rfl, .inr (h g hp hg)⟩
  · exact ⟨g, by rw [get_compact hp]; exact hg, .inl rfl⟩

end Webchannel.Keys
