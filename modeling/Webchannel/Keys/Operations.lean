import Webchannel.Keys.Stability

/-!
# What the operations of the key store write

One lemma for each operation: from a process that remembers what the files say, it ends in one
that does, and every durable state in between follows lawfully from the one before.
-/

namespace Webchannel.Keys

open Webchannel.Effect Webchannel.Runs

variable {Key : Type} {k : Limits} {start d d' : Disk Key} {c : Option (OrderedMap String Key)}
  {s : Machine Key}

theorem keyMap_absent (h : d.keys = .absent) : d.keyMap = .empty := by
  unfold Disk.keyMap
  rw [h]
  rfl

theorem prepareMigration_spec :
    Triple (Ready k start) prepareMigration
      (fun _ s => Ready k start s ∧ s.migrationPrepared = true) (Ended k start) := by
  unfold prepareMigration
  refine .get_bind fun s hs => .ite (fun hp => .pure _ fun t ht => by rw [ht]; exact ⟨hs, hp⟩) fun hp => ?_
  refine .get_bind fun s' hs' => ?_
  subst hs'
  have hcache : s'.cache = none := by
    cases hc : s'.cache with
    | none => rfl
    | some keys => exact absurd (hs.2 keys hc).2 hp
  have hcold {t : Machine Key} (ht : t.cache = s'.cache) : CacheOk t := by
    intro keys hk
    rw [ht, hcache] at hk
    cases hk
  cases hm : s'.migrations with
  | nil => exact .throw _ fun t ht => by rw [ht]; exact ⟨hs.1, fun _ => hs.2⟩
  | cons migration rest =>
    have hrest (m : Migration Key) (h : m ∈ rest) : m ∈ s'.migrations := by rw [hm]; exact .tail _ h
    have hfail (e : Failure) : Ended k start e { s' with migrations := rest } :=
      ⟨hs.1.of_eq rfl rfl hrest, fun _ => hcold rfl⟩
    refine .modify_bind (R := (· = { s' with migrations := rest })) (fun t ht => by rw [ht]) ?_
    cases migration with
    | stopped => exact .throw _ fun t ht => by rw [ht]; exact hfail _
    | failed => exact .throw _ fun t ht => by rw [ht]; exact hfail _
    | done published =>
      refine .get_bind fun s'' hs'' => ?_
      subst hs''
      have hdone : Ready k start { s' with migrations := rest, migrationPrepared := true } :=
        ⟨hs.1.of_eq rfl rfl hrest, hcold rfl⟩
      cases published with
      | none => exact .modify fun t ht => by rw [ht]; exact ⟨hdone, rfl⟩
      | some keys =>
        cases hkeys : s'.disk.keys with
        | absent =>
          refine .modify_bind (R := fun t => Sound k start t ∧ t.cache = s'.cache) (fun t ht => ?_) ?_
          · rw [ht]
            refine ⟨⟨⟨?_, hs.1.lawful⟩, rfl, (hfail .noTarget).1.legacy⟩, rfl⟩
            change LawfulWrite k .migrated (latest start s'.history) _
            rw [← hs.1.disk]
            refine lawful_adopt (keyMap_absent hkeys) (hs.1.legacy keys ?_)
            rw [hm]
            exact .head _
          · exact .modify fun t ht => ⟨⟨ht.1.of_eq rfl rfl fun _ h => h, hcold ht.2⟩, rfl⟩
        | unreadable => exact .modify fun t ht => by rw [ht]; exact ⟨hdone, rfl⟩
        | garbage => exact .modify fun t ht => by rw [ht]; exact ⟨hdone, rfl⟩
        | document doc => exact .modify fun t ht => by rw [ht]; exact ⟨hdone, rfl⟩

/-- Only a document without readable keys is set aside. -/
theorem archiveKeys_spec (h : d.keyMap = .empty) :
    Triple (At k start d c) archiveKeys (fun _ s => ∃ d', At k start d' c s ∧ d'.keyMap = .empty)
      (fun e s => ∃ d', Failed k start d' c e s ∧ d'.keyMap = .empty) := by
  have hlinked : Triple (At k start d c) (change .linked fun d => { d with archives := d.keys :: d.archives })
      (fun _ => At k start { d with archives := d.keys :: d.archives } c) (Failed k start d c) :=
    change_spec (lawful_of_same rfl rfl)
  refine .bind (hlinked.conseq (fun _ h => h) (fun _ _ h => h) fun e s hs => ⟨d, hs, h⟩) fun _ => ?_
  refine (change_spec (lawful_of_same ?_ rfl)).conseq (fun _ h => h) (fun _ _ h => ⟨_, h, rfl⟩)
    fun e s hs => ⟨_, hs, h⟩
  exact (h : Disk.keyMap { d with archives := d.keys :: d.archives } = .empty).symm

theorem resetGenerationsAfterKeyQuarantine_spec (h : d.keyMap = .empty) :
    Triple (At k start d c) resetGenerationsAfterKeyQuarantine
      (fun _ s => ∃ d', At k start d' c s ∧ d'.keyMap = .empty) (Failed k start d c) := by
  refine catching_spec (R := Failed k start d c) ?_ (fun _ h => h) fun e he => .pure _ fun s hs => ?_
  · refine (change_spec (lawful_generations fun p g hp _ => ?_)).conseq (fun _ h => h)
      (fun _ _ hs => ⟨_, hs, h⟩) fun _ _ h => h
    rw [h] at hp
    cases hp
  · obtain ⟨hdisk, hcache, hprepared⟩ := hs.2 he
    exact ⟨d, ⟨hs.1, hdisk, hcache, hprepared⟩, h⟩

/-- The quarantine branch of `load`. -/
theorem quarantine_spec (h : d.keyMap = .empty) (hc : ∀ keys, c = some keys → keys = d.keyMap) :
    Triple (At k start d c)
      (do
        catching archiveKeys fun _ => throw (.document .legacyMigrationFailed)
        modify ({ · with cache := some .empty })
        persistSerializedKeys .reset .empty
        resetGenerationsAfterKeyQuarantine
        pure .empty : Op Key (OrderedMap String Key))
      (fun keys s => At k start s.disk (some keys) s ∧ keys = s.disk.keyMap) (Ended k start) := by
  have hwarm {d : Disk Key} (h : d.keyMap = .empty) (keys : OrderedMap String Key)
      (hk : some OrderedMap.empty = some keys) : keys = d.keyMap := by
    rw [h]
    exact (Option.some.inj hk).symm
  refine .bind (R := fun _ s => ∃ d', At k start d' c s ∧ d'.keyMap = .empty) ?_ fun _ => ?_
  · refine catching_spec (archiveKeys_spec h) ?_ fun e he => .throw _ ?_
    · rintro s ⟨d', hs, -⟩
      exact ⟨hs.1, fun hne => absurd rfl hne⟩
    · rintro s ⟨d', hs, hnone⟩
      obtain ⟨hdisk, hcache, hprepared⟩ := hs.2 he
      refine (At.ready ⟨hs.1, hdisk, hcache, hprepared⟩ fun keys hk => ?_).imp_right fun h _ => h
      rw [hnone, ← h]
      exact hc keys hk
  · refine .of_exists fun d' => .of_pre fun hnone => ?_
    refine .bind (remember_spec _) fun _ => ?_
    refine .bind ((change_spec (lawful_adopt hnone (Nat.zero_le _))).conseq (fun _ h => h) (fun _ _ h => h)
      fun _ _ hf => hf.ended (hwarm hnone)) fun _ => ?_
    refine .bind ((resetGenerationsAfterKeyQuarantine_spec (keyMap_serialize _)).conseq (fun _ h => h)
      (fun _ _ h => h) fun _ _ hf => hf.ended (hwarm (keyMap_serialize _))) fun _ => ?_
    refine .of_exists fun d'' => .of_pre fun hreset => .pure _ fun u hu => ?_
    rw [hu.disk]
    exact ⟨hu, hreset.symm⟩

theorem load_spec :
    Triple (Ready k start) load (fun keys s => At k start s.disk (some keys) s ∧ keys = s.disk.keyMap)
      (Ended k start) := by
  unfold load
  refine .get_bind fun s hs => ?_
  cases hcache : s.cache with
  | some keys =>
    refine .pure _ fun t ht => ?_
    obtain ⟨hkeys, hprepared⟩ := hs.2 keys hcache
    rw [ht]
    exact ⟨⟨hs.1, rfl, hcache, hprepared⟩, hkeys⟩
  | none =>
    refine .bind (prepareMigration_spec.conseq (fun t ht => by rw [ht]; exact hs) (fun _ _ h => h)
      fun _ _ h => h) fun _ => .pointwise fun t ht => ?_
    obtain ⟨hat, hc⟩ := ht.1.at ht.2
    refine .bind (R := fun _ => At k start t.disk t.cache) (assertGenerationsNotFromFuture_spec.conseq
      (fun u hu => by rw [hu]; exact hat) (fun _ _ h => h) fun _ _ h => h.ended hc) fun _ => ?_
    refine catching_spec (R := fun e s => Failed k start t.disk t.cache e s ∧ t.disk.keyMap = .empty)
      ?_ (fun _ h => h.1.ended hc) fun e he => ?_
    · refine .bind readStoreFile_spec fun keys => .of_pre fun hkeys => ?_
      refine .bind (remember_spec _) fun _ => .pure _ fun u hu => ⟨?_, ?_⟩
      · rw [hu.disk]
        exact hu
      · rw [hu.disk]
        exact hkeys
    · refine .ite (fun _ => .throw _ fun _ h => h.1.ended hc) fun _ => .of_pre fun hnone => ?_
      refine (quarantine_spec hnone hc).conseq (fun u hu => ?_) (fun _ _ h => h) fun _ _ h => h
      obtain ⟨hdisk, hcache, hprepared⟩ := hu.2 he
      exact ⟨hu.1, hdisk, hcache, hprepared⟩

/-- The initial label changes no key, and a failure to write it is swallowed. -/
theorem recordInitialGenerationBestEffort_spec (maxKeys : Nat) (peerId : String) :
    Triple (At k start d c) (recordInitialGenerationBestEffort maxKeys peerId)
      (fun _ s => ∃ d', At k start d' c s ∧ d'.keyMap = d.keyMap) (Failed k start d c) := by
  refine catching_spec (R := Failed k start d c) ?_ (fun _ h => h) fun e he => .pure _ fun s hs => ?_
  · refine .bind readGenerationsAuditOnly_spec fun generations => .of_pre ?_
    rintro rfl
    refine .ite (fun _ => .pure _ fun s hs => ⟨d, hs, rfl⟩) fun hnew => ?_
    refine .bind readFresh_spec fun keys => .of_pre ?_
    rintro rfl
    refine .ite (fun _ => .pure _ fun s hs => ⟨d, hs, rfl⟩) fun _ => ?_
    refine .bind readNowSec_spec fun rotatedAtSec => ?_
    refine (change_spec (lawful_label fun old _ hold => ?_)).conseq (fun _ h => h) (fun _ _ h => ⟨_, h, rfl⟩)
      fun _ _ h => h
    rw [OrderedMap.has, hold] at hnew
    exact absurd rfl hnew
  · obtain ⟨hdisk, hcache, hprepared⟩ := hs.2 he
    exact ⟨d, ⟨hs.1, hdisk, hcache, hprepared⟩, rfl⟩

theorem assertPeerId_spec {P : Machine Key → Prop} {E : Failure → Machine Key → Prop} (peerId : String)
    (h : ∀ e s, P s → E e s) : Triple P (assertPeerId peerId) (fun _ => P) E := by
  exact .ite (fun _ => .throw _ fun s hs => h _ s hs) fun _ => .pure _ fun _ hs => hs

theorem Ready.ended {e : Failure} (h : Ready k start s) : Ended k start e s := ⟨h.1, fun _ => h.2⟩

/-- A key that is returned is durable. -/
theorem getOrCreate_spec (peerId : String) :
    Triple (Ready k start) (getOrCreate k.maxKeys peerId)
      (fun key s => Ready k start s ∧ s.disk.keyMap.get peerId = some key) (Ended k start) := by
  unfold getOrCreate
  refine .bind (assertPeerId_spec peerId fun _ _ h => h.ended) fun _ => ?_
  refine .bind load_spec fun keys => .pointwise fun s hs => ?_
  obtain ⟨hat, hkeys⟩ := hs
  have hc (keys' : OrderedMap String Key) (h : some keys = some keys') : keys' = s.disk.keyMap := by
    rw [← hkeys]
    exact (Option.some.inj h).symm
  cases hget : keys.get peerId with
  | some existing =>
    refine .pure _ fun t ht => ?_
    rw [ht, ← hkeys]
    exact ⟨hat.ready hc, hget⟩
  | none =>
    refine .ite (fun _ => .throw _ fun t ht => ?_) fun _ => ?_
    · rw [ht]
      exact (hat.ready hc).ended
    refine .bind (readFresh_spec.conseq (fun t ht => by rw [ht]; exact hat) (fun _ _ h => h)
      fun _ _ hf => hf.ended hc) fun fresh => .of_pre ?_
    rintro rfl
    rw [hkeys] at hget
    rw [hget]
    refine .ite (fun _ => .bind (remember_spec _) fun _ => .throw _ fun t ht => ?_) fun hroom => ?_
    · exact (ht.ready fun _ h => (Option.some.inj h).symm).ended
    refine .bind (randomKey_spec.conseq (fun _ h => h) (fun _ _ h => h) fun _ _ hf => hf.ended hc)
      fun key => ?_
    refine .bind ((change_spec (lawful_create hget (Nat.lt_of_not_le hroom))).conseq (fun _ h => h)
      (fun _ _ h => h) fun _ _ hf => hf.ended hc) fun _ => ?_
    refine .bind (remember_spec _) fun _ => ?_
    have hnext (keys' : OrderedMap String Key) (h : some (s.disk.keyMap.set peerId key) = some keys') :
        keys' = Disk.keyMap { s.disk with keys := .serialize keyVersion (s.disk.keyMap.set peerId key) } := by
      rw [keyMap_serialize]
      exact (Option.some.inj h).symm
    refine .bind ((recordInitialGenerationBestEffort_spec k.maxKeys peerId).conseq (fun _ h => h)
      (fun _ _ h => h) fun _ _ hf => hf.ended hnext) fun _ => .of_exists fun d' => .of_pre fun hsame => ?_
    refine .pure _ fun t ht => ⟨ht.ready fun keys' h => ?_, ?_⟩
    · rw [hsame]
      exact hnext keys' h
    · rw [ht.disk, hsame, keyMap_serialize, OrderedMap.get_set_self]

theorem get?_spec (peerId : String) :
    Triple (Ready k start) (get? peerId)
      (fun key s => Ready k start s ∧ s.disk.keyMap.get peerId = key) (Ended k start) := by
  refine .bind load_spec fun keys => .pure _ fun s hs => ?_
  obtain ⟨hat, hkeys⟩ := hs
  refine ⟨hat.ready fun keys' h => ?_, by rw [← hkeys]⟩
  rw [← hkeys]
  exact (Option.some.inj h).symm

theorem rotate_spec (peerId : String) (hrotates : k.rotates peerId) :
    Triple (Ready k start) (rotate k.maxKeys peerId)
      (fun r s => Ready k start s ∧ s.disk.keyMap.get peerId = some r.key ∧
        s.disk.generationMap.get peerId = some ⟨r.epoch, r.rotatedAtSec⟩) (Ended k start) := by
  unfold rotate
  refine .bind (assertPeerId_spec peerId fun _ _ h => h.ended) fun _ => ?_
  refine .bind prepareMigration_spec fun _ => .pointwise fun s hs => ?_
  obtain ⟨hat, hc⟩ := hs.1.at hs.2
  refine .bind (readFresh_spec.conseq (fun t ht => by rw [ht]; exact hat) (fun _ _ h => h)
    fun _ _ hf => hf.ended hc) fun fresh => .of_pre ?_
  rintro rfl
  refine .ite (fun _ => .throw _ fun t ht => (ht.ready hc).ended) fun hhas => ?_
  replace hhas : s.disk.keyMap.has peerId = true := by simpa using hhas
  refine .bind (readGenerationsAuditOnly_spec.conseq (fun _ h => h) (fun _ _ h => h)
    fun _ _ hf => hf.ended hc) fun generations => .of_pre ?_
  rintro rfl
  refine .ite (fun _ => .throw _ fun t ht => (ht.ready hc).ended) fun _ => ?_
  refine .bind ((epochAfter_spec _).conseq (fun _ h => h) (fun _ _ h => h) fun _ _ hf => hf.ended hc)
    fun epoch => .of_pre fun hepoch => ?_
  rw [get_compact hhas] at hepoch
  refine .bind (readNowSec_spec.conseq (fun _ h => h) (fun _ _ h => h) fun _ _ hf => hf.ended hc)
    fun rotatedAtSec => ?_
  refine .bind (randomKey_spec.conseq (fun _ h => h) (fun _ _ h => h) fun _ _ hf => hf.ended hc)
    fun key => ?_
  refine .bind ((change_spec (lawful_label fun old _ hold => hepoch old hold)).conseq (fun _ h => h)
    (fun _ _ h => h) fun _ _ hf => hf.ended hc) fun _ => ?_
  have hlabel := get_generationMap_label (d := s.disk) peerId ⟨epoch, rotatedAtSec⟩
  refine .bind ((change_spec (lawful_replace (d := s.disk.label peerId ⟨epoch, rotatedAtSec⟩) hhas hlabel hrotates)).conseq (fun _ h => h) (fun _ _ h => h)
    fun _ _ hf => hf.ended hc) fun _ => ?_
  refine .bind (remember_spec _) fun _ => .pure _ fun t ht => ⟨ht.ready fun keys' h => ?_, ?_, ?_⟩
  · rw [keyMap_serialize]
    exact (Option.some.inj h).symm
  · rw [ht.disk, keyMap_serialize, OrderedMap.get_set_self]
  · rw [ht.disk]
    exact hlabel

end Webchannel.Keys
