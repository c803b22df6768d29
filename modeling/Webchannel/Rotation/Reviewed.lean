import Webchannel.Rotation.Verified

/-!
# A rotation is the reviewed one

The property of a rotation in every state of its runs. The digest tells apart sets of peers whose names are well-formed; a
name with half a surrogate pair is hashed as a replacement character, so a review of one such peer lets another through.
-/

namespace Webchannel.Rotation

open Program Storage
open JsonIntegers (safeInteger)

variable {sha256Hex : Bytes → JsString} {scope : StorageScope} {maxKeys : Nat} {reviewedTargetDigest : JsString} {α : Type}

/-! ## A run that completes -/

theorem orThrow_runs {o : Option α} {a : α} (h : o = some a) (s : Bool) : (orThrow o).RunsTo s [] (some a) s := by
  rw [h]
  exact .done _

theorem readKeysOrEmpty_runs {answer : Option JsString} {keys : Keys} (h : keysOrEmpty scope answer = some keys) (s : Bool) :
    (readKeysOrEmpty scope).RunsTo s [⟨.readKeys, some answer⟩] (some keys) s :=
  .bind (.call _ _) (orThrow_runs h s)

theorem readGenerations_runs {answer : Option JsString} {generations : Generations}
    (h : generationsOf scope answer = some generations) (s : Bool) :
    (readGenerations scope).RunsTo s [⟨.readGenerations, some answer⟩] (some generations) s :=
  .bind (.call _ _) (orThrow_runs h s)

theorem readGenerationsAuditOnly_runs (answer : Option (Option JsString)) (s : Bool) :
    (readGenerationsAuditOnly scope).RunsTo s [⟨.readGenerations, answer⟩] (some (auditOnly scope answer)) s := by
  have hread : (readGenerations scope).RunsTo s [⟨.readGenerations, answer⟩] (answer.bind (generationsOf scope)) s := by
    cases answer with
    | none => exact .ask (.done _)
    | some answer =>
      refine .bind (.call _ _) ?_
      change (orThrow (generationsOf scope answer)).RunsTo s [] (generationsOf scope answer) s
      cases generationsOf scope answer <;> exact .done _
  exact .bind (.attempt hread) (.pure _)

theorem makeRandomKey_runs {key : Bytes} (h : key.length = conversationKeyBytes) (s : Bool) :
    makeRandomKey.RunsTo s [drawn key] (some key) s := by
  refine .bind (.call _ _) ?_
  rw [if_neg (not_not_intro h)]
  exact .pure key

theorem rotateEach_runs {generations : Generations} (rotatedAtSec : Double) {peers : List JsString} {draws : List Bytes}
    (hlength : draws.length = peers.length) (hbytes : ∀ key ∈ draws, key.length = conversationKeyBytes)
    (hepochs : ∀ p ∈ peers, (epochAfter (generations.get p)).isSome = true) (hnodup : peers.Nodup) (keys : Keys)
    (next : Generations) (s : Bool) :
    ∃ after, (rotateEach generations rotatedAtSec peers keys next).RunsTo s (draws.map drawn) (some after) s ∧
      Rotated generations rotatedAtSec peers draws (keys, next) after := by
  induction peers generalizing draws keys next with
  | nil =>
    obtain rfl := List.length_eq_zero_iff.mp hlength
    exact ⟨(keys, next), .pure _, .nil⟩
  | cons peerId peers ih =>
    cases draws with
    | nil => cases hlength
    | cons key draws =>
      obtain ⟨epoch, hepoch⟩ := Option.isSome_iff_exists.mp (hepochs peerId List.mem_cons_self)
      have hkey := hbytes key List.mem_cons_self
      obtain ⟨after, hrun, hrotated⟩ := ih (Nat.succ.inj hlength) (fun k hk => hbytes k (List.mem_cons_of_mem _ hk))
        (fun p hp => hepochs p (List.mem_cons_of_mem _ hp)) (List.nodup_cons.mp hnodup).2 (keys.set peerId key)
        (next.set peerId ⟨epoch, rotatedAtSec⟩)
      exact ⟨after, .bind (makeRandomKey_runs hkey s) (.bind (orThrow_runs hepoch s) hrun), hrotated.cons hnodup hkey hepoch⟩

theorem verifyCompleteReadback_runs {keys storedKeys : Keys} {generations storedGenerations : Generations}
    {keysAnswer generationsAnswer : Option JsString} (hkeys : keysOrEmpty scope keysAnswer = some storedKeys)
    (hgenerations : generationsOf scope generationsAnswer = some storedGenerations)
    (hsame : ∀ p, storedKeys.get p = keys.get p) (hsame' : ∀ p, storedGenerations.get p = generations.get p) (s : Bool) :
    (verifyCompleteReadback scope keys generations).RunsTo s
      [⟨.readKeys, some keysAnswer⟩, ⟨.readGenerations, some generationsAnswer⟩] (some ()) s := by
  refine .bind (readKeysOrEmpty_runs hkeys s) (.bind (readGenerations_runs hgenerations s) ?_)
  have hmatch : matchesKeys keys storedKeys = true := by
    refine List.all_eq_true.mpr fun e he => decide_eq_true ?_
    rw [hsame, OrderedMap.mem_entries.mp he]
  have hmatch' : matchesGenerations generations storedGenerations = true := by
    refine List.all_eq_true.mpr fun e he => ?_
    rw [hsame', OrderedMap.mem_entries.mp he]
    exact decide_eq_true ⟨rfl, rfl⟩
  rw [if_neg (not_not_intro (OrderedMap.size_eq_of_get_eq hsame)),
    if_neg (not_not_intro (OrderedMap.size_eq_of_get_eq hsame')), if_neg (by rw [hmatch]; exact Bool.noConfusion),
    if_neg (by rw [hmatch']; exact Bool.noConfusion)]
  exact .pure ()

theorem isPositiveSafeInteger_epochAfter {generation : Option Generation} {epoch : Double}
    (h : epochAfter generation = some epoch) : isPositiveSafeInteger epoch = true := by
  have hnext := safeInteger_epochAfter h
  have hold : 0 ≤ (generation.bind fun g => safeInteger g.epoch).getD 0 := by
    cases generation with
    | none => exact Int.le_refl 0
    | some generation =>
      unfold epochAfter nextEpoch at h
      dsimp only at h
      rw [Option.bind_some]
      cases hn : safeInteger generation.epoch with
      | none => exact Int.le_refl 0
      | some n =>
        rw [hn] at h
        dsimp only at h
        split at h
        · cases h
        · change 0 ≤ n
          omega
  unfold isPositiveSafeInteger
  rw [hnext]
  exact decide_eq_true (by omega)

/-- Candidates can be written, and are read back. -/
theorem Rotated.documents {generations : Generations} {rotatedAtSec : Double} {peers : List JsString} {draws : List Bytes}
    {next : Keys × Generations} (h : Rotated generations rotatedAtSec peers draws (.empty, .empty) next)
    (hscope : scope.Valid) (hclock : isPositiveSafeInteger rotatedAtSec = true) :
    (∃ text stored, serializeConversationKeyDocument JsonText.doubles scope next.1 = .ok text ∧
        keysOrEmpty scope (some text) = some stored ∧ ∀ p, stored.get p = next.1.get p) ∧
      ∃ text stored, serializeConversationKeyGenerationsDocument JsonText.doubles scope next.2 = .ok text ∧
        generationsOf scope (some text) = some stored ∧ ∀ p, stored.get p = next.2.get p := by
  constructor
  · obtain ⟨text, stored, htext, hstored, hget⟩ := secretDocuments.1.roundTrip scope next.1 hscope fun p key hkey => by
      by_cases hp : p ∈ peers
      · obtain ⟨i, hi⟩ := List.mem_iff_getElem?.mp hp
        rw [h.key i p hi] at hkey
        exact h.bytes key (List.mem_of_getElem? hkey)
      · rw [h.otherKey p hp] at hkey
        cases hkey
    refine ⟨text, stored, htext, ?_, hget⟩
    unfold keysOrEmpty
    dsimp only
    rw [hstored]
    rfl
  · obtain ⟨text, stored, htext, hstored, hget⟩ := secretDocuments.2.roundTrip scope next.2 hscope fun p generation hg => by
      by_cases hp : p ∈ peers
      · obtain ⟨epoch, hepoch, hnext⟩ := h.generation p hp
        rw [hnext] at hg
        obtain rfl := Option.some.inj hg
        unfold assertGeneration
        rw [isPositiveSafeInteger_epochAfter hepoch, hclock]
        rfl
      · rw [h.otherGeneration p hp] at hg
        cases hg
    refine ⟨text, stored, htext, ?_, hget⟩
    unfold generationsOf
    dsimp only
    rw [hstored]
    rfl

/-- The rotation of a reviewed account whose calls all succeed, with nobody else writing, returns. -/
theorem rotateAccountVerified_completes {keysAnswer : Option JsString} {generationsAnswer : Option (Option JsString)} {keys : Keys}
    {rotatedAtSec : Double} {draws : List Bytes} (hscope : scope.Valid) (hkeys : keysOrEmpty scope keysAnswer = some keys)
    (htarget : keys.size ≠ 0) (hdigest : rotationTargetDigest sha256Hex scope keys.keys = some reviewedTargetDigest)
    (hcapacity : keys.size ≤ maxKeys) (hclock : isPositiveSafeInteger rotatedAtSec = true)
    (hlength : draws.length = keys.keys.length) (hbytes : ∀ key ∈ draws, key.length = conversationKeyBytes)
    (hepochs : ∀ p, keys.has p = true → (epochAfter ((auditOnly scope generationsAnswer).get p)).isSome = true) :
    ∃ c t t₀ summary, Runs.Reached Config.step
        (Config.start (rotateAccountVerified sha256Hex scope maxKeys reviewedTargetDigest false)) ⟨.done (some summary, true), t⟩ ∧
      t₀ <:+ t ∧ ∃ m, Migrated m ∧
        t₀ = draws.reverse.map drawn ++ ⟨.nowSec, some rotatedAtSec⟩ :: ⟨.readGenerations, generationsAnswer⟩ ::
          ⟨.readKeys, some keysAnswer⟩ :: m ∧
        AccountCandidate sha256Hex scope maxKeys reviewedTargetDigest keys (auditOnly scope generationsAnswer) rotatedAtSec draws c := by
  have hfresh : ∀ p ∈ keys.keys,
      (epochAfter ((compactStaleGenerations (auditOnly scope generationsAnswer) keys).get p)).isSome = true := by
    intro p hp
    have hp := OrderedMap.mem_keys.mp hp
    rw [get_compactStaleGenerations, if_pos hp]
    exact hepochs p hp
  obtain ⟨next, hrun, hrotated⟩ := rotateEach_runs rotatedAtSec hlength hbytes hfresh keys.keys_nodup .empty .empty true
  obtain ⟨⟨keysText, stored, hkeysText, hstored, hget⟩, generationsText, stored', hgenerationsText, hstored', hget'⟩ :=
    hrotated.documents hscope hclock
  have hmigrate : prepareMigration.RunsTo false [⟨.migrateLegacyTupleState .preserve, some ()⟩] (some ()) true :=
    .ask (.done _)
  have hnow : readNowSec.RunsTo true [⟨.nowSec, some rotatedAtSec⟩] (some rotatedAtSec) true := by
    refine .bind (.call _ _) ?_
    rw [if_pos hclock]
    exact .pure _
  have hpublish : (publish generationsText keysText).RunsTo true
      [⟨.persistGenerations generationsText, some ()⟩, ⟨.persistKeys keysText, some ()⟩, ⟨.beforeCachePublish, some ()⟩]
      (some ()) true := .bind (.call _ _) (.bind (.call _ _) (.call _ _))
  have hall : (rotateAccountVerified sha256Hex scope maxKeys reviewedTargetDigest).RunsTo false
      ([⟨.migrateLegacyTupleState .preserve, some ()⟩] ++ ([⟨.readKeys, some keysAnswer⟩] ++ ([] ++
        ([⟨.readGenerations, generationsAnswer⟩] ++ ([⟨.nowSec, some rotatedAtSec⟩] ++ (draws.map drawn ++ ([] ++ ([] ++
          ([⟨.persistGenerations generationsText, some ()⟩, ⟨.persistKeys keysText, some ()⟩, ⟨.beforeCachePublish, some ()⟩] ++
            ([⟨.readKeys, some (some keysText)⟩, ⟨.readGenerations, some (some generationsText)⟩] ++ []))))))))))
      (some ⟨next.1.size, reviewedTargetDigest, rotatedAtSec⟩) true := by
    refine .bind hmigrate (.bind (readKeysOrEmpty_runs hkeys true) ?_)
    rw [if_neg htarget]
    refine .bind (orThrow_runs hdigest true) ?_
    rw [if_neg (not_not_intro rfl)]
    refine .bind (readGenerationsAuditOnly_runs generationsAnswer true) ?_
    dsimp only
    rw [if_neg (Nat.not_lt.mpr hcapacity)]
    refine .bind hnow (.bind hrun ?_)
    refine .bind (orThrow_runs (congrArg Except.toOption hgenerationsText) true) ?_
    refine .bind (orThrow_runs (congrArg Except.toOption hkeysText) true) (.bind hpublish ?_)
    exact .bind (verifyCompleteReadback_runs hstored hstored' hget hget' true) (.pure _)
  refine ⟨⟨next.1, next.2, keysText, generationsText⟩, _, _, _, hall.reached [], ?_, _, .inr rfl, rfl,
    hrotated.candidate htarget hdigest (Nat.not_lt.mpr hcapacity) hclock hgenerationsText hkeysText⟩
  refine ⟨[⟨.readGenerations, some (some generationsText)⟩, ⟨.readKeys, some (some keysText)⟩] ++
    published ⟨next.1, next.2, keysText, generationsText⟩, ?_⟩
  simp [published]

/-! ## Every state of a rotation -/

/-- A state of a run of `rotateAccountVerified`, whatever the answers and wherever it stopped. -/
def AccountReached (sha256Hex : Bytes → JsString) (scope : StorageScope) (maxKeys : Nat) (reviewedTargetDigest : JsString)
    (s : Config Call Reply (Option AccountRotationSummary × Bool)) : Prop :=
  ∃ prepared, Runs.Reached Config.step
    (Config.start (rotateAccountVerified sha256Hex scope maxKeys reviewedTargetDigest prepared)) s

def PeerReached (scope : StorageScope) (maxKeys : Nat) (peerId : JsString)
    (s : Config Call Reply (Option PeerRotationSummary × Bool)) : Prop :=
  ∃ prepared, Runs.Reached Config.step (Config.start (rotatePeerVerified scope maxKeys peerId prepared)) s

/-- Nothing is written before a whole pair is planned, and the key document is the old one or the planned one, this only
behind the planned sidecar. -/
structure AllOrNothing (Planned : Candidate → History → Prop) (t : History) : Prop where
  unwritten : (¬ ∃ c t₀, Planned c t₀ ∧ t₀ <:+ t) → writes t = []
  oldOrNew : ∀ start d, Durable start t d → d.keys = start.keys ∨
    ∃ c t₀, Planned c t₀ ∧ t₀ <:+ t ∧ d = ⟨some c.serializedKeys, some c.serializedGenerations⟩

/-- A rotation of the account whose peers were reviewed. -/
structure AccountVerified (sha256Hex : Bytes → JsString) (scope : StorageScope) (maxKeys : Nat)
    (reviewedTargetDigest : JsString) (reviewed : List JsString)
    (s : Config Call Reply (Option AccountRotationSummary × Bool)) : Prop where
  allOrNothing : AllOrNothing (AccountPlanned sha256Hex scope maxKeys reviewedTargetDigest) s.trace
  readBack : ∀ summary prepared, s.prog = .done (some summary, prepared) →
    ∃ c t₀, AccountPlanned sha256Hex scope maxKeys reviewedTargetDigest c t₀ ∧
      ReadBack scope c.keys c.generations (published c ++ t₀) s.trace ∧
      summary.peerCount = c.keys.size ∧ summary.targetDigest = reviewedTargetDigest
  samePeers : ∀ c t₀, AccountPlanned sha256Hex scope maxKeys reviewedTargetDigest c t₀ → t₀ <:+ s.trace →
    ∀ p, c.keys.has p = true ↔ p ∈ reviewed

/-- A rotation of one peer: what is read back at the end differs from what was read at the start in this peer's entries, and
in labels without a key. -/
structure PeerVerified (scope : StorageScope) (maxKeys : Nat) (peerId : JsString)
    (s : Config Call Reply (Option PeerRotationSummary × Bool)) : Prop where
  allOrNothing : AllOrNothing
    (fun c t₀ => ∃ keys generations result, PeerPlanned scope maxKeys peerId keys generations result c t₀) s.trace
  onlyTarget : ∀ summary prepared, s.prog = .done (some summary, prepared) →
    ∃ keys generations result c t₀ storedKeys storedGenerations keysAnswer generationsAnswer,
      PeerPlanned scope maxKeys peerId keys generations result c t₀ ∧
      s.trace = ⟨.readGenerations, some generationsAnswer⟩ :: ⟨.readKeys, some keysAnswer⟩ :: (published c ++ t₀) ∧
      keysOrEmpty scope keysAnswer = some storedKeys ∧ generationsOf scope generationsAnswer = some storedGenerations ∧
      (∀ p, p ≠ peerId → storedKeys.get p = keys.get p) ∧
      (∀ p, p ≠ peerId → storedGenerations.get p = if keys.has p then generations.get p else none) ∧
      storedKeys.get peerId = some result.key ∧
      storedGenerations.get peerId = some ⟨summary.epoch, summary.rotatedAtSec⟩

theorem Lawful.allOrNothing {Planned : Candidate → History → Prop} {t : History} (h : Lawful Planned t) :
    AllOrNothing Planned t where
  unwritten hnone := by
    cases h with
    | unwritten h => exact h
    | generations hplan _ hsuffix => exact absurd ⟨_, _, hplan, hsuffix⟩ hnone
    | keys hplan _ hsuffix => exact absurd ⟨_, _, hplan, hsuffix⟩ hnone
  oldOrNew _ _ hd := h.durable hd

theorem AccountCandidate.has_keys {keys : Keys} {generations : Generations} {rotatedAtSec : Double} {draws : List Bytes}
    {c : Candidate} (h : AccountCandidate sha256Hex scope maxKeys reviewedTargetDigest keys generations rotatedAtSec draws c)
    (p : JsString) : c.keys.has p = keys.has p := by
  cases hp : keys.has p with
  | false => exact OrderedMap.has_eq_false_iff.mpr (h.noOtherKey p hp)
  | true =>
    obtain ⟨i, hi⟩ := List.mem_iff_getElem?.mp (OrderedMap.mem_keys.mpr hp)
    obtain ⟨hlt, -⟩ := List.getElem?_eq_some_iff.mp hi
    rw [← h.drawn] at hlt
    rw [OrderedMap.has, h.key i p hi, List.getElem?_eq_getElem hlt]
    rfl

/-- The names of the peers in every key document that was read are well-formed. -/
def WellFormedReads (scope : StorageScope) (t : History) : Prop :=
  ∀ answer keys, ⟨.readKeys, some answer⟩ ∈ t → keysOrEmpty scope answer = some keys → ∀ p ∈ keys.keys, WellFormed p

/-- The reviewed peers and those of a key document that was read are not a collision of the hash. -/
def NoCollision (sha256Hex : Bytes → JsString) (scope : StorageScope) (reviewed : List JsString) (t : History) : Prop :=
  ∀ answer keys x y, ⟨.readKeys, some answer⟩ ∈ t → keysOrEmpty scope answer = some keys →
    digestInput scope reviewed = some x → digestInput scope keys.keys = some y → sha256Hex x = sha256Hex y → x = y

/-- A plan whose digest was reviewed is about the reviewed peers. -/
theorem AccountPlanned.reviewed {reviewed : List JsString} {t t₀ : History} {c : Candidate}
    (h : AccountPlanned sha256Hex scope maxKeys reviewedTargetDigest c t₀) (ht : t₀ <:+ t)
    (hdigest : rotationTargetDigest sha256Hex scope reviewed = some reviewedTargetDigest)
    (hreviewed : ∀ p ∈ reviewed, WellFormed p) (hreads : WellFormedReads scope t) (hcollision : NoCollision sha256Hex scope reviewed t)
    (p : JsString) : c.keys.has p = true ↔ p ∈ reviewed := by
  obtain ⟨m, keysAnswer, generationsAnswer, rotatedAtSec, draws, keys, rfl, -, hkeys, hcandidate⟩ := h
  have hread : (⟨.readKeys, some keysAnswer⟩ : Event Call Reply) ∈ t := ht.mem (by simp)
  obtain ⟨x, hx, hxdigest⟩ := Option.map_eq_some_iff.mp hdigest
  obtain ⟨y, hy, hydigest⟩ := Option.map_eq_some_iff.mp hcandidate.digest
  have hxy := hcollision keysAnswer keys x y hread hkeys hx hy (hxdigest.trans hydigest.symm)
  have hperm := digestInput_perm hreviewed (hreads keysAnswer keys hread hkeys) hx (hxy ▸ hy)
  rw [hcandidate.has_keys, ← OrderedMap.mem_keys, hperm.mem_iff]

/-- While the names of the peers are well-formed, a rotation of the account is all or nothing, verified and about the
reviewed peers; a rotation of one peer is always verified. -/
theorem rotation_verified (sha256Hex : Bytes → JsString) (scope : StorageScope) (maxKeys : Nat) :
    (∀ reviewed reviewedTargetDigest s, rotationTargetDigest sha256Hex scope reviewed = some reviewedTargetDigest →
      (∀ p ∈ reviewed, WellFormed p) → AccountReached sha256Hex scope maxKeys reviewedTargetDigest s →
      WellFormedReads scope s.trace → NoCollision sha256Hex scope reviewed s.trace →
        AccountVerified sha256Hex scope maxKeys reviewedTargetDigest reviewed s) ∧
      ∀ peerId s, PeerReached scope maxKeys peerId s → PeerVerified scope maxKeys peerId s := by
  constructor
  · rintro reviewed reviewedTargetDigest s hdigest hreviewed ⟨prepared, hs⟩ hreads hcollision
    obtain ⟨hlawful, hdone⟩ := rotateAccountVerified_returns.reached hs
    refine ⟨hlawful.allOrNothing, fun summary prepared h => hdone summary prepared h, ?_⟩
    intro c t₀ hplan hsuffix
    exact hplan.reviewed hsuffix hdigest hreviewed hreads hcollision
  · rintro peerId s ⟨prepared, hs⟩
    obtain ⟨hlawful, hdone⟩ := rotatePeerVerified_returns.reached hs
    refine ⟨hlawful.allOrNothing, fun summary prepared h => ?_⟩
    obtain ⟨keys, generations, result, c, t₀, hplan, hread, rfl⟩ := hdone summary prepared h
    obtain ⟨keysAnswer, generationsAnswer, storedKeys, storedGenerations, htrace, hkeys, hgenerations, hget, hget'⟩ := hread
    refine ⟨keys, generations, result, c, t₀, storedKeys, storedGenerations, keysAnswer, generationsAnswer, hplan, htrace, hkeys,
      hgenerations, ?_, ?_, ?_, ?_⟩
    · intro p hp
      rw [hget, OrderedMap.get_set_of_ne _ _ hp]
    · intro p hp
      rw [hget', OrderedMap.get_set_of_ne _ _ hp, get_compactStaleGenerations]
    · rw [hget, OrderedMap.get_set_self]
    · rw [hget', OrderedMap.get_set_self]

/-! ## A peer nobody reviewed -/

def tuple : StorageScope := ⟨js "acme", js "main"⟩

/-- A hash without collisions. -/
def units (bytes : Bytes) : JsString := bytes.map UInt8.toUInt16

def reviewedPeer : JsString := [0xD800]

def storedPeer : JsString := [0xD801]

theorem frameUtf8_surrogate : frameUtf8 storedPeer = frameUtf8 reviewedPeer := by
  unfold frameUtf8
  rw [show encodeUtf8 storedPeer = encodeUtf8 reviewedPeer by decide +kernel]

theorem digestInput_single (scope : StorageScope) (p : JsString) :
    digestInput scope [p] = (([js "openclaw-webchannel/rotation-target/v2", scope.tenant, scope.accountId, p]).mapM
      frameUtf8).map List.flatten := by
  unfold digestInput sortUnits
  rw [List.mergeSort_singleton]

theorem digest_surrogate : digestInput tuple [storedPeer] = digestInput tuple [reviewedPeer] := by
  rw [digestInput_single, digestInput_single]
  simp only [List.mapM_cons, List.mapM_nil, frameUtf8_surrogate]

/-- Even if the hash has no collisions, a rotation returns for a peer that is not the reviewed one. -/
theorem unreviewedPeer_rotated :
    Function.Injective units ∧
      ∃ reviewedTargetDigest s summary prepared,
        rotationTargetDigest units tuple [reviewedPeer] = some reviewedTargetDigest ∧
        AccountReached units tuple 1 reviewedTargetDigest s ∧ s.prog = .done (some summary, prepared) ∧
        ¬ AccountVerified units tuple 1 reviewedTargetDigest [reviewedPeer] s := by
  have hinjective : Function.Injective units := by
    intro a b h
    exact List.map_injective_iff.mpr (fun u v huv => by simpa using congrArg UInt16.toUInt8 huv) h
  refine ⟨hinjective, ?_⟩
  have hscope : tuple.Valid := ⟨by decide, by decide⟩
  have hdigest : (digestInput tuple [reviewedPeer]).isSome = true := by decide +kernel
  obtain ⟨x, hx⟩ := Option.isSome_iff_exists.mp hdigest
  obtain ⟨text, keys, -, hparse, hget⟩ := secretDocuments.1.roundTrip tuple (.set .empty storedPeer (List.replicate 32 0)) hscope
    fun p key hkey => by
      rw [OrderedMap.get_set_eq] at hkey
      split at hkey
      · cases hkey
        rfl
      · cases hkey
  have hkeys : keysOrEmpty tuple (some text) = some keys := by
    unfold keysOrEmpty
    dsimp only
    rw [hparse]
    rfl
  have hperm : keys.keys = [storedPeer] := List.perm_singleton.mp (OrderedMap.keys_perm_of_get_eq hget)
  have hsize : keys.size = 1 := by simpa [OrderedMap.keys, OrderedMap.size] using congrArg List.length hperm
  have hreviewed : rotationTargetDigest units tuple [reviewedPeer] = some (units x) := by
    unfold rotationTargetDigest
    rw [hx]
    rfl
  have hstored : rotationTargetDigest units tuple keys.keys = some (units x) := by
    unfold rotationTargetDigest
    rw [hperm, digest_surrogate, hx]
    rfl
  have hclock : isPositiveSafeInteger (toDouble 1) = true := by
    unfold isPositiveSafeInteger
    have hone : safeInteger (toDouble 1) = some 1 := safeInteger_toDouble (n := 1) (by decide)
    rw [hone]
    rfl
  obtain ⟨c, t, t₀, summary, hrun, hsuffix, m, hm, htrace, hcandidate⟩ :=
    @rotateAccountVerified_completes units tuple 1 (units x) (some text) (some none) keys (toDouble 1)
      [List.replicate 32 0] hscope hkeys (by rw [hsize]; decide) hstored hsize.le hclock (by rw [hperm]; rfl)
      (by simp [conversationKeyBytes]) fun p hp => rfl
  refine ⟨units x, _, summary, true, hreviewed, ⟨false, hrun⟩, rfl, fun hverified => ?_⟩
  have hsame := hverified.samePeers c t₀ ⟨m, some text, some none, toDouble 1, _, keys, htrace, hm, hkeys, hcandidate⟩ hsuffix storedPeer
  rw [hcandidate.has_keys, ← OrderedMap.mem_keys, hperm] at hsame
  exact absurd (hsame.mp List.mem_cons_self) (by decide)

end Webchannel.Rotation
