import Webchannel.Rotation.Rotator

/-!
# What the rotator writes

Up to its first write a rotation has written nothing, and it writes only what it planned: one candidate for each document,
the sidecar first. A rotation that returns has read both candidates back.
-/

namespace Webchannel.Rotation

open Program Storage
open JsonIntegers (safeInteger)

/-! ## Writes -/

def isWrite : Call → Bool
  | .persistGenerations _ | .persistKeys _ => true
  | _ => false

/-- The writes of a run, the latest one first. -/
def writes (t : History) : History := t.filter fun e => isWrite e.call

/-- Both documents as they are to be. -/
structure Candidate where
  keys : Keys
  generations : Generations
  serializedKeys : JsString
  serializedGenerations : JsString

/-- The writes of a run whose calls before the first one make the plan. -/
inductive Lawful (Planned : Candidate → History → Prop) (t : History) : Prop where
  | unwritten (h : writes t = [])
  | generations {c : Candidate} {t₀ : History} (hplan : Planned c t₀) (hnone : writes t₀ = []) (hsuffix : t₀ <:+ t)
      (r : Option Unit) (h : writes t = [⟨.persistGenerations c.serializedGenerations, r⟩])
  | keys {c : Candidate} {t₀ : History} (hplan : Planned c t₀) (hnone : writes t₀ = []) (hsuffix : t₀ <:+ t)
      (r : Option Unit)
      (h : writes t = [⟨.persistKeys c.serializedKeys, r⟩, ⟨.persistGenerations c.serializedGenerations, some ()⟩])

theorem writes_cons_of_not {e : Event Call Reply} (h : isWrite e.call = false) (t : History) :
    writes (e :: t) = writes t := by
  unfold writes
  rw [List.filter_cons, if_neg (by rw [h]; exact Bool.noConfusion)]

theorem writes_cons_of_write {e : Event Call Reply} (h : isWrite e.call = true) (t : History) :
    writes (e :: t) = e :: writes t := by
  unfold writes
  rw [List.filter_cons, if_pos h]

theorem Lawful.of_not_write {Planned : Candidate → History → Prop} {t : History} (h : Lawful Planned t)
    {e : Event Call Reply} (he : isWrite e.call = false) : Lawful Planned (e :: t) := by
  cases h with
  | unwritten h => exact .unwritten (by rw [writes_cons_of_not he, h])
  | generations hplan hnone hsuffix r h =>
    exact .generations hplan hnone (hsuffix.trans (List.suffix_cons e t)) r (by rw [writes_cons_of_not he, h])
  | keys hplan hnone hsuffix r h =>
    exact .keys hplan hnone (hsuffix.trans (List.suffix_cons e t)) r (by rw [writes_cons_of_not he, h])

/-! ## The documents between the calls -/

/-- The texts of the two documents; `none` is a document that is not there. -/
structure Disk where
  keys : Option JsString
  generations : Option JsString

/-- What a call may leave behind when nobody else writes. A write that threw, or in which the process stopped, has replaced
its document or has not. -/
inductive Leaves (d : Disk) : Event Call Reply → Disk → Prop where
  | read {e : Event Call Reply} (h : isWrite e.call = false) : Leaves d e d
  | generations (text : JsString) (r : Option Unit) : Leaves d ⟨.persistGenerations text, r⟩ { d with generations := some text }
  | keys (text : JsString) (r : Option Unit) : Leaves d ⟨.persistKeys text, r⟩ { d with keys := some text }
  | generationsKept (text : JsString) : Leaves d ⟨.persistGenerations text, none⟩ d
  | keysKept (text : JsString) : Leaves d ⟨.persistKeys text, none⟩ d

/-- The documents a run may leave behind. -/
inductive Durable (start : Disk) : History → Disk → Prop where
  | start : Durable start [] start
  | call {t : History} {e : Event Call Reply} {d d' : Disk} (h : Durable start t d) (he : Leaves d e d') :
      Durable start (e :: t) d'

/-- Only the writes matter. -/
theorem Durable.of_writes {start d : Disk} {t : History} (h : Durable start t d) : Durable start (writes t) d := by
  induction h with
  | start => exact .start
  | @call t e d d' h he ih =>
    cases hw : isWrite e.call with
    | true =>
      rw [writes_cons_of_write hw]
      exact .call ih he
    | false =>
      rw [writes_cons_of_not hw]
      cases he with
      | read _ => exact ih
      | _ => cases hw

/-- At every moment the keys are the old ones or the planned ones, and planned ones only behind the planned sidecar. -/
theorem Lawful.durable {Planned : Candidate → History → Prop} {t : History} {start d : Disk} (h : Lawful Planned t)
    (hd : Durable start t d) :
    d.keys = start.keys ∨
      ∃ c t₀, Planned c t₀ ∧ t₀ <:+ t ∧ d = ⟨some c.serializedKeys, some c.serializedGenerations⟩ := by
  have hd := hd.of_writes
  cases h with
  | unwritten h =>
    rw [h] at hd
    cases hd
    exact .inl rfl
  | generations hplan hnone hsuffix r h =>
    rw [h] at hd
    cases hd with
    | call hd he =>
      cases hd
      cases he with
      | read hw => cases hw
      | generations => exact .inl rfl
      | generationsKept => exact .inl rfl
  | @keys c t₀ hplan hnone hsuffix r h =>
    rw [h] at hd
    cases hd with
    | call hd he =>
      cases hd with
      | call hd hg =>
        cases hd
        cases hg with
        | read hw => cases hw
        | generations =>
          cases he with
          | read hw => cases hw
          | keys => exact .inr ⟨c, t₀, hplan, hsuffix, rfl⟩
          | keysKept => exact .inl rfl

/-! ## What each step asks -/

variable {Planned : Candidate → History → Prop} {scope : StorageScope} {t₀ : History} {α β : Type}

/-- Behind these calls the code keeps to lawful writes whatever the answers, and ends in `R`. -/
def Ends (Planned : Candidate → History → Prop) (t₀ : History) (m : Op α) (R : Option α → History → Prop) : Prop :=
  Lawful Planned t₀ →
    Spec (fun _ _ => True) (Lawful Planned) (fun _ t => t = t₀) m fun r _ t => Lawful Planned t ∧ R r t

/-- What holds if it does not throw. -/
abbrev Returns (Planned : Candidate → History → Prop) (t₀ : History) (m : Op α) (R : α → History → Prop) : Prop :=
  Ends Planned t₀ m fun r t => ∀ a, r = some a → R a t

theorem Ends.call {c : Call} (hc : ∀ r, Lawful Planned t₀ → Lawful Planned (⟨c, r⟩ :: t₀)) :
    Ends Planned t₀ (ask c) fun r t => t = ⟨c, r⟩ :: t₀ := by
  intro hP
  refine Spec.call ?_
  rintro s t r rfl -
  exact ⟨hc r hP, hc r hP, rfl⟩

theorem Ends.ask {c : Call} (hc : isWrite c = false) : Ends Planned t₀ (ask c) fun r t => t = ⟨c, r⟩ :: t₀ :=
  .call fun _ hP => hP.of_not_write hc

theorem Ends.orThrow (a : Option α) : Ends Planned t₀ (orThrow a) fun r t => r = a ∧ t = t₀ := by
  intro hP
  cases a with
  | none =>
    refine Spec.throw ?_
    rintro s t rfl
    exact ⟨hP, rfl, rfl⟩
  | some a =>
    refine Spec.pure ?_
    rintro s t rfl
    exact ⟨hP, rfl, rfl⟩

theorem Ends.bind {m : Op β} {f : β → Op α} {R : Option β → History → Prop} {R' : Option α → History → Prop}
    (hm : Ends Planned t₀ m R) (hf : ∀ b t, R (some b) t → Ends Planned t (f b) R')
    (hthrow : ∀ t, R none t → R' none t) : Ends Planned t₀ (m >>= f) R' := by
  intro hP
  refine Spec.bind (hm hP) (fun b s t h => ?_) fun s t h => ⟨h.1, hthrow t h.2⟩
  exact hf b t h.2 h.1 s t rfl

namespace Returns

variable {R R' : α → History → Prop} {m : Op α}

theorem of_ends {R : Option α → History → Prop} (h : Ends Planned t₀ m R) : Returns Planned t₀ m fun a => R (some a) :=
  fun hP => (h hP).post fun _ _ _ hr => ⟨hr.1, fun a ha => by rw [ha] at hr; exact hr.2⟩

theorem pure {a : α} (h : R a t₀) : Returns Planned t₀ (Pure.pure a) R := by
  intro hP
  refine Spec.pure ?_
  rintro s t rfl
  exact ⟨hP, fun a' ha => Option.some.inj ha ▸ h⟩

theorem throw : Returns Planned t₀ Code.throw R := by
  intro hP
  refine Spec.throw ?_
  rintro s t rfl
  exact ⟨hP, fun a ha => by cases ha⟩

theorem bind {R : β → History → Prop} {m : Op β} {f : β → Op α} (hm : Returns Planned t₀ m R)
    (hf : ∀ b t, R b t → Returns Planned t (f b) R') : Returns Planned t₀ (m >>= f) R' :=
  Ends.bind hm (fun b t h => hf b t (h b rfl)) fun _ _ _ ha => by cases ha

theorem attempt {m : Op β} {R : Option β → History → Prop} (h : Ends Planned t₀ m R) :
    Returns Planned t₀ (Code.attempt m) R :=
  fun hP => Spec.attempt ((h hP).post fun _ _ _ hr => ⟨hr.1, fun _ ha => Option.some.inj ha ▸ hr.2⟩)

theorem ite {p : Prop} [Decidable p] {m' : Op α} (h : p → Returns Planned t₀ m R) (h' : ¬ p → Returns Planned t₀ m' R) :
    Returns Planned t₀ (if p then m else m') R := by
  split
  · exact h ‹_›
  · exact h' ‹_›

theorem mono (h : Returns Planned t₀ m R) (hR : ∀ a t, R a t → R' a t) : Returns Planned t₀ m R' :=
  fun hP => (h hP).post fun _ _ t hr => ⟨hr.1, fun a ha => hR a t (hr.2 a ha)⟩

/-- Every state of every run of the code. -/
theorem reached {s : Bool} {c : Config Call Reply (Option α × Bool)} (h : Returns Planned [] m R)
    (hc : Runs.ReachedBy Config.step (fun _ _ => True) (Config.start (m s)) c) :
    Lawful Planned c.trace ∧ ∀ a s, c.prog = .done (some a, s) → R a c.trace := by
  have hP : Lawful Planned [] := .unwritten rfl
  obtain ⟨hlawful, hsafe⟩ := (h hP s [] rfl).reached hP hc
  refine ⟨hlawful, fun a s hdone => ?_⟩
  rw [hdone] at hsafe
  exact hsafe.2 a rfl

end Returns

theorem readKeysOrEmpty_returns : Returns Planned t₀ (readKeysOrEmpty scope) fun keys t =>
    ∃ answer, keysOrEmpty scope answer = some keys ∧ t = ⟨.readKeys, some answer⟩ :: t₀ := by
  refine .bind (.of_ends (.ask rfl)) ?_
  rintro answer t rfl
  exact (Returns.of_ends (.orThrow _)).mono fun keys t h => ⟨answer, h.1.symm, h.2⟩

/-- Also where it throws it has asked once. -/
theorem readGenerations_ends : Ends Planned t₀ (readGenerations scope) fun r t =>
    ∃ answer, r = answer.bind (generationsOf scope) ∧ t = ⟨.readGenerations, answer⟩ :: t₀ := by
  refine .bind (.ask rfl) ?_ fun t ht => ⟨none, rfl, ht⟩
  rintro answer t rfl hP
  exact (Ends.orThrow _ hP).post fun r s t h => ⟨h.1, some answer, h.2⟩

theorem readGenerationsAuditOnly_returns : Returns Planned t₀ (readGenerationsAuditOnly scope) fun generations t =>
    ∃ answer, generations = auditOnly scope answer ∧ t = ⟨.readGenerations, answer⟩ :: t₀ := by
  refine .bind (.attempt readGenerations_ends) ?_
  rintro read t ⟨answer, rfl, rfl⟩
  exact .pure ⟨answer, rfl, rfl⟩

theorem storeReadGenerationsAuditOnly_returns :
    Returns Planned t₀ (storeReadGenerationsAuditOnly scope) fun generations t =>
      ∃ answer, storeAuditOnly scope answer = some generations ∧ t = ⟨.readGenerations, answer⟩ :: t₀ := by
  refine .bind (.attempt (.ask rfl)) ?_
  rintro answer t rfl
  exact (Returns.of_ends (.orThrow _)).mono fun generations t h => ⟨answer, h.1.symm, h.2⟩

/-- The calls of a migration that did not throw. -/
def Migrated (m : History) : Prop := m = [] ∨ m = [⟨.migrateLegacyTupleState .preserve, some ()⟩]

theorem prepareMigration_returns : Returns Planned t₀ prepareMigration fun _ t => ∃ m, Migrated m ∧ t = m ++ t₀ := by
  intro hP
  refine Spec.get fun prepared => ?_
  cases prepared with
  | true =>
    refine Spec.pure ?_
    rintro s t ⟨-, rfl⟩
    exact ⟨hP, fun _ _ => ⟨[], .inl rfl, rfl⟩⟩
  | false =>
    refine Spec.bind (Q := fun r s t => Lawful Planned t ∧ ∀ u, r = some u →
      t = ⟨.migrateLegacyTupleState .preserve, some ()⟩ :: t₀) ?_ (fun _ => ?_) ?_
    · refine Spec.pre ((Returns.of_ends (.ask rfl)) hP) fun s t ht => ht.2
    · exact Spec.modify fun s t ht => ⟨ht.1, fun _ _ => ⟨_, .inr rfl, ht.2 _ rfl⟩⟩
    · exact fun s t ht => ⟨ht.1, fun a ha => by cases ha⟩

theorem makeRandomKey_returns : Returns Planned t₀ makeRandomKey fun key t =>
    key.length = conversationKeyBytes ∧ t = ⟨.randomBytes, some key⟩ :: t₀ := by
  refine .bind (.of_ends (.ask rfl)) ?_
  rintro key t rfl
  exact .ite (fun _ => .throw) fun hlength => .pure ⟨not_ne_iff.mp hlength, rfl⟩

theorem readNowSec_returns : Returns Planned t₀ readNowSec fun value t =>
    isPositiveSafeInteger value = true ∧ t = ⟨.nowSec, some value⟩ :: t₀ := by
  refine .bind (.of_ends (.ask rfl)) ?_
  rintro value t rfl
  exact .ite (fun hvalue => .pure ⟨hvalue, rfl⟩) fun _ => .throw

/-- Both documents are written, and the hook behind them has run. -/
def published (c : Candidate) : History :=
  [⟨.beforeCachePublish, some ()⟩, ⟨.persistKeys c.serializedKeys, some ()⟩,
    ⟨.persistGenerations c.serializedGenerations, some ()⟩]

/-- What was planned may be published. -/
theorem publish_returns {c : Candidate} (hplan : Planned c t₀) (hnone : writes t₀ = []) :
    Returns Planned t₀ (publish c.serializedGenerations c.serializedKeys) fun _ t => t = published c ++ t₀ := by
  refine .bind (.of_ends (.call fun r _ => ?_)) ?_
  · refine .generations hplan hnone (List.suffix_cons _ _) r ?_
    rw [writes_cons_of_write rfl, hnone]
  · rintro - t rfl
    refine .bind (.of_ends (.call fun r _ => ?_)) ?_
    · refine .keys hplan hnone ((List.suffix_cons _ _).trans (List.suffix_cons _ _)) r ?_
      rw [writes_cons_of_write rfl, writes_cons_of_write rfl, hnone]
    · rintro - t rfl
      exact .of_ends (.ask rfl)

/-! ## Epochs -/

/-- One more than before, or one. -/
theorem safeInteger_epochAfter {generation : Option Generation} {epoch : Double} (h : epochAfter generation = some epoch) :
    safeInteger epoch = some ((generation.bind fun g => safeInteger g.epoch).getD 0 + 1) := by
  cases generation with
  | none =>
    cases h
    exact safeInteger_toDouble (n := 1) (by decide)
  | some generation =>
    unfold epochAfter nextEpoch at h
    dsimp only at h
    rw [Option.bind_some]
    cases hold : safeInteger generation.epoch with
    | none =>
      rw [hold] at h
      cases h
    | some n =>
      rw [hold] at h
      dsimp only at h
      split at h
      · cases h
      · rename_i hbounds
        obtain ⟨hn, heq⟩ := safeInteger_eq_some hold
        have hadd := Double.add_intCast hn (n := 1) (by decide)
        rw [Int.cast_one] at hadd
        rw [heq, hadd] at h
        obtain rfl := Option.some.inj h
        exact safeInteger_toDouble (by omega)

/-! ## Reading back -/

/-- The last two calls read these documents. -/
def ReadBack (scope : StorageScope) (keys : Keys) (generations : Generations) (t₀ t : History) : Prop :=
  ∃ keysAnswer generationsAnswer storedKeys storedGenerations,
    t = ⟨.readGenerations, some generationsAnswer⟩ :: ⟨.readKeys, some keysAnswer⟩ :: t₀ ∧
    keysOrEmpty scope keysAnswer = some storedKeys ∧ generationsOf scope generationsAnswer = some storedGenerations ∧
    (∀ p, storedKeys.get p = keys.get p) ∧ ∀ p, storedGenerations.get p = generations.get p

theorem get_eq_of_matchesKeys {expected stored : Keys} (hsize : stored.size = expected.size)
    (h : matchesKeys expected stored = true) (p : JsString) : stored.get p = expected.get p := by
  refine OrderedMap.get_eq_of_size_eq hsize (fun p key hp => ?_) p
  exact of_decide_eq_true (List.all_eq_true.mp h (p, key) (OrderedMap.mem_entries.mpr hp))

theorem get_eq_of_matchesGenerations {expected stored : Generations} (hsize : stored.size = expected.size)
    (h : matchesGenerations expected stored = true) (p : JsString) : stored.get p = expected.get p := by
  refine OrderedMap.get_eq_of_size_eq hsize (fun p generation hp => ?_) p
  have hany := List.all_eq_true.mp h (p, generation) (OrderedMap.mem_entries.mpr hp)
  cases hstored : stored.get p with
  | none =>
    rw [hstored] at hany
    cases hany
  | some found =>
    rw [hstored] at hany
    obtain ⟨hepoch, hrotatedAtSec⟩ := of_decide_eq_true hany
    cases found
    cases generation
    cases hepoch
    cases hrotatedAtSec
    rfl

theorem verifyCompleteReadback_returns {keys : Keys} {generations : Generations} :
    Returns Planned t₀ (verifyCompleteReadback scope keys generations) fun _ t => ReadBack scope keys generations t₀ t := by
  refine .bind readKeysOrEmpty_returns ?_
  rintro storedKeys t ⟨keysAnswer, hkeys, rfl⟩
  refine .bind (.of_ends readGenerations_ends) ?_
  rintro storedGenerations t ⟨answer, hread, rfl⟩
  obtain ⟨generationsAnswer, rfl, hgenerations⟩ := Option.bind_eq_some_iff.mp hread.symm
  refine .ite (fun _ => .throw) fun hkeysSize => .ite (fun _ => .throw) fun hsize => ?_
  refine .ite (fun _ => .throw) fun hkeysMatch => .ite (fun _ => .throw) fun hmatch => ?_
  refine .pure ⟨keysAnswer, generationsAnswer, storedKeys, storedGenerations, rfl, hkeys, hgenerations, ?_, ?_⟩
  · rw [Bool.not_eq_false] at hkeysMatch
    exact get_eq_of_matchesKeys (not_ne_iff.mp hkeysSize) hkeysMatch
  · rw [Bool.not_eq_false] at hmatch
    exact get_eq_of_matchesGenerations (not_ne_iff.mp hsize) hmatch

/-! ## The account -/

def drawn (key : Bytes) : Event Call Reply := ⟨.randomBytes, some key⟩

/-- The entries that the loop over these peers has set. -/
structure Rotated (generations : Generations) (rotatedAtSec : Double) (peers : List JsString) (draws : List Bytes)
    (before after : Keys × Generations) : Prop where
  length : draws.length = peers.length
  bytes : ∀ key ∈ draws, key.length = conversationKeyBytes
  key : ∀ (i : Nat) p, peers[i]? = some p → after.1.get p = draws[i]?
  otherKey : ∀ p, p ∉ peers → after.1.get p = before.1.get p
  generation : ∀ p ∈ peers, ∃ epoch,
    epochAfter (generations.get p) = some epoch ∧ after.2.get p = some ⟨epoch, rotatedAtSec⟩
  otherGeneration : ∀ p, p ∉ peers → after.2.get p = before.2.get p

theorem Rotated.nil {generations : Generations} {rotatedAtSec : Double} {before : Keys × Generations} :
    Rotated generations rotatedAtSec [] [] before before where
  length := rfl
  bytes _ h := (List.not_mem_nil h).elim
  key i p hp := by cases hp
  otherKey _ _ := rfl
  generation _ h := (List.not_mem_nil h).elim
  otherGeneration _ _ := rfl

theorem Rotated.cons {generations : Generations} {rotatedAtSec epoch : Double} {peers : List JsString} {draws : List Bytes}
    {peerId : JsString} {key : Bytes} {keys : Keys} {next : Generations} {after : Keys × Generations}
    (hnodup : (peerId :: peers).Nodup) (hkey : key.length = conversationKeyBytes)
    (hepoch : epochAfter (generations.get peerId) = some epoch)
    (h : Rotated generations rotatedAtSec peers draws (keys.set peerId key, next.set peerId ⟨epoch, rotatedAtSec⟩) after) :
    Rotated generations rotatedAtSec (peerId :: peers) (key :: draws) (keys, next) after := by
  obtain ⟨hfresh, -⟩ := List.nodup_cons.mp hnodup
  have hhead : after.1.get peerId = some key := by rw [h.otherKey peerId hfresh, OrderedMap.get_set_self]
  refine ⟨?_, ?_, ?_, ?_, ?_, ?_⟩
  · rw [List.length_cons, List.length_cons, h.length]
  · rintro k hk
    obtain rfl | hk := List.mem_cons.mp hk
    · exact hkey
    · exact h.bytes k hk
  · rintro (_ | i) p hp
    · cases hp
      exact hhead
    · exact h.key i p hp
  · intro p hp
    rw [List.mem_cons, not_or] at hp
    rw [h.otherKey p hp.2, OrderedMap.get_set_of_ne _ _ hp.1]
  · intro p hp
    obtain rfl | hp := List.mem_cons.mp hp
    · exact ⟨epoch, hepoch, by rw [h.otherGeneration p hfresh, OrderedMap.get_set_self]⟩
    · exact h.generation p hp
  · intro p hp
    rw [List.mem_cons, not_or] at hp
    rw [h.otherGeneration p hp.2, OrderedMap.get_set_of_ne _ _ hp.1]

theorem Rotated.exists_key {generations : Generations} {rotatedAtSec : Double} {peers : List JsString} {draws : List Bytes}
    {before after : Keys × Generations} (h : Rotated generations rotatedAtSec peers draws before after) (hpeers : peers ≠ []) :
    ∃ peerId, after.1.has peerId = true := by
  obtain ⟨peerId, rest, rfl⟩ := List.exists_cons_of_ne_nil hpeers
  refine ⟨peerId, ?_⟩
  rw [OrderedMap.has, h.key 0 peerId rfl, List.getElem?_eq_getElem (by rw [h.length]; exact Nat.succ_pos _)]
  rfl

/-- What is stored may be another map with the same entries. -/
theorem Rotated.congr {generations : Generations} {rotatedAtSec : Double} {peers : List JsString} {draws : List Bytes}
    {before after after' : Keys × Generations} (h : Rotated generations rotatedAtSec peers draws before after)
    (hkeys : ∀ p, after'.1.get p = after.1.get p) (hgenerations : ∀ p, after'.2.get p = after.2.get p) :
    Rotated generations rotatedAtSec peers draws before after' where
  length := h.length
  bytes := h.bytes
  key i p hp := (hkeys p).trans (h.key i p hp)
  otherKey p hp := (hkeys p).trans (h.otherKey p hp)
  generation p hp := by
    obtain ⟨epoch, hepoch, hget⟩ := h.generation p hp
    exact ⟨epoch, hepoch, (hgenerations p).trans hget⟩
  otherGeneration p hp := (hgenerations p).trans (h.otherGeneration p hp)

theorem rotateEach_returns {generations : Generations} {rotatedAtSec : Double} {peers : List JsString} (hnodup : peers.Nodup)
    (keys : Keys) (next : Generations) :
    Returns Planned t₀ (rotateEach generations rotatedAtSec peers keys next) fun after t =>
      ∃ draws, Rotated generations rotatedAtSec peers draws (keys, next) after ∧ t = draws.reverse.map drawn ++ t₀ := by
  induction peers generalizing keys next t₀ with
  | nil =>
    exact .pure ⟨[], .nil, rfl⟩
  | cons peerId peers ih =>
    refine .bind makeRandomKey_returns ?_
    rintro key t ⟨hkey, rfl⟩
    refine .bind (.of_ends (.orThrow _)) ?_
    rintro epoch t ⟨hepoch, rfl⟩
    refine (ih (List.nodup_cons.mp hnodup).2 _ _).mono ?_
    rintro after t ⟨draws, hrotated, rfl⟩
    refine ⟨key :: draws, hrotated.cons hnodup hkey hepoch.symm, ?_⟩
    rw [List.reverse_cons, List.map_append, List.append_assoc]
    rfl

/-- The pair of documents that the rotation of an account plans from what it has read and drawn. -/
structure AccountCandidate (sha256Hex : Bytes → JsString) (scope : StorageScope) (maxKeys : Nat)
    (reviewedTargetDigest : JsString) (keys : Keys) (generations : Generations) (rotatedAtSec : Double) (draws : List Bytes)
    (c : Candidate) : Prop where
  target : 0 < keys.size
  digest : rotationTargetDigest sha256Hex scope keys.keys = some reviewedTargetDigest
  capacity : keys.size ≤ maxKeys
  clock : isPositiveSafeInteger rotatedAtSec = true
  drawn : draws.length = keys.keys.length
  bytes : ∀ key ∈ draws, key.length = conversationKeyBytes
  /-- The key of every peer is the one that was drawn for it. -/
  key : ∀ (i : Nat) p, keys.keys[i]? = some p → c.keys.get p = draws[i]?
  noOtherKey : ∀ p, keys.has p = false → c.keys.get p = none
  generation : ∀ p, keys.has p = true → ∃ epoch, c.generations.get p = some ⟨epoch, rotatedAtSec⟩ ∧
    safeInteger epoch = some (((generations.get p).bind fun g => safeInteger g.epoch).getD 0 + 1)
  noOtherGeneration : ∀ p, keys.has p = false → c.generations.get p = none
  serializedGenerations :
    serializeConversationKeyGenerationsDocument JsonText.doubles scope c.generations = .ok c.serializedGenerations
  serializedKeys : serializeConversationKeyDocument JsonText.doubles scope c.keys = .ok c.serializedKeys

/-- The calls of an account's rotation up to its first write. -/
def AccountPlanned (sha256Hex : Bytes → JsString) (scope : StorageScope) (maxKeys : Nat) (reviewedTargetDigest : JsString)
    (c : Candidate) (t₀ : History) : Prop :=
  ∃ m keysAnswer generationsAnswer rotatedAtSec draws keys,
    t₀ = draws.reverse.map drawn ++ ⟨.nowSec, some rotatedAtSec⟩ :: ⟨.readGenerations, generationsAnswer⟩ ::
      ⟨.readKeys, some keysAnswer⟩ :: m ∧
    Migrated m ∧ keysOrEmpty scope keysAnswer = some keys ∧
    AccountCandidate sha256Hex scope maxKeys reviewedTargetDigest keys (auditOnly scope generationsAnswer) rotatedAtSec draws c

theorem get_compactStaleGenerations (generations : Generations) {keys : Keys} (p : JsString) :
    (compactStaleGenerations generations keys).get p = if keys.has p then generations.get p else none := by
  refine Option.ext fun generation => ?_
  rw [← OrderedMap.mem_entries]
  unfold compactStaleGenerations
  rw [List.mem_filter, OrderedMap.mem_entries]
  cases keys.has p <;> simp

theorem writes_migrated {m : History} (h : Migrated m) : writes m = [] := by
  obtain rfl | rfl := h <;> rfl

theorem writes_drawn (draws : List Bytes) (t : History) : writes (draws.map drawn ++ t) = writes t := by
  induction draws with
  | nil => rfl
  | cons key draws ih => rw [List.map_cons, List.cons_append, writes_cons_of_not rfl, ih]

theorem AccountPlanned.writes {sha256Hex : Bytes → JsString} {maxKeys : Nat} {reviewedTargetDigest : JsString}
    {c : Candidate} (h : AccountPlanned sha256Hex scope maxKeys reviewedTargetDigest c t₀) : writes t₀ = [] := by
  obtain ⟨m, keysAnswer, generationsAnswer, rotatedAtSec, draws, keys, rfl, hm, -⟩ := h
  rw [writes_drawn, writes_cons_of_not rfl, writes_cons_of_not rfl, writes_cons_of_not rfl,
    writes_migrated hm]

/-- Candidates from the loop over all peers of a document. -/
theorem Rotated.candidate {sha256Hex : Bytes → JsString} {maxKeys : Nat} {reviewedTargetDigest : JsString} {keys : Keys}
    {generations : Generations} {rotatedAtSec : Double} {draws : List Bytes} {next : Keys × Generations}
    {serializedKeys serializedGenerations : JsString} (h : Rotated (compactStaleGenerations generations keys) rotatedAtSec
      keys.keys draws (.empty, .empty) next)
    (htarget : keys.size ≠ 0) (hdigest : rotationTargetDigest sha256Hex scope keys.keys = some reviewedTargetDigest)
    (hcapacity : ¬ maxKeys < keys.size) (hclock : isPositiveSafeInteger rotatedAtSec = true)
    (hgenerations : serializeConversationKeyGenerationsDocument JsonText.doubles scope next.2 = .ok serializedGenerations)
    (hkeys : serializeConversationKeyDocument JsonText.doubles scope next.1 = .ok serializedKeys) :
    AccountCandidate sha256Hex scope maxKeys reviewedTargetDigest keys generations rotatedAtSec draws
      ⟨next.1, next.2, serializedKeys, serializedGenerations⟩ where
  target := Nat.pos_of_ne_zero htarget
  digest := hdigest
  capacity := Nat.not_lt.mp hcapacity
  clock := hclock
  drawn := h.length
  bytes := h.bytes
  key := h.key
  noOtherKey p hp := h.otherKey p fun hmem => by rw [OrderedMap.mem_keys.mp hmem] at hp; cases hp
  generation p hp := by
    obtain ⟨epoch, hepoch, hget⟩ := h.generation p (OrderedMap.mem_keys.mpr hp)
    rw [get_compactStaleGenerations, if_pos hp] at hepoch
    exact ⟨epoch, hget, safeInteger_epochAfter hepoch⟩
  noOtherGeneration p hp := h.otherGeneration p fun hmem => by rw [OrderedMap.mem_keys.mp hmem] at hp; cases hp
  serializedGenerations := hgenerations
  serializedKeys := hkeys

theorem ok_of_toOption {ε : Type} {r : Except ε α} {a : α} (h : r.toOption = some a) : r = .ok a := by
  cases r with
  | ok b => rw [Option.some.inj h]
  | error e => cases h

theorem rotateAccountVerified_returns {sha256Hex : Bytes → JsString} {maxKeys : Nat} {reviewedTargetDigest : JsString} :
    Returns (AccountPlanned sha256Hex scope maxKeys reviewedTargetDigest) []
      (rotateAccountVerified sha256Hex scope maxKeys reviewedTargetDigest) fun summary t =>
        ∃ c t₀, AccountPlanned sha256Hex scope maxKeys reviewedTargetDigest c t₀ ∧
          ReadBack scope c.keys c.generations (published c ++ t₀) t ∧
          summary.peerCount = c.keys.size ∧ summary.targetDigest = reviewedTargetDigest := by
  refine .bind prepareMigration_returns ?_
  rintro - t ⟨m, hm, rfl⟩
  refine .bind readKeysOrEmpty_returns ?_
  rintro keys t ⟨keysAnswer, hkeys, rfl⟩
  refine .ite (fun _ => .throw) fun htarget => ?_
  refine .bind (.of_ends (.orThrow _)) ?_
  rintro digest t ⟨hdigest, rfl⟩
  refine .ite (fun _ => .throw) fun hreviewed => ?_
  obtain rfl := not_ne_iff.mp hreviewed
  refine .bind readGenerationsAuditOnly_returns ?_
  rintro generations t ⟨generationsAnswer, rfl, rfl⟩
  refine .ite (fun _ => .throw) fun hcapacity => ?_
  refine .bind readNowSec_returns ?_
  rintro rotatedAtSec t ⟨hclock, rfl⟩
  refine .bind (rotateEach_returns keys.keys_nodup _ _) ?_
  rintro next t ⟨draws, hrotated, rfl⟩
  refine .bind (.of_ends (.orThrow _)) ?_
  rintro serializedGenerations t ⟨hserializedGenerations, rfl⟩
  refine .bind (.of_ends (.orThrow _)) ?_
  rintro serializedKeys t ⟨hserializedKeys, rfl⟩
  have hplan : AccountPlanned sha256Hex scope maxKeys digest
      ⟨next.1, next.2, serializedKeys, serializedGenerations⟩ _ :=
    ⟨m, keysAnswer, generationsAnswer, rotatedAtSec, draws, keys, rfl, hm, hkeys, hrotated.candidate htarget hdigest.symm hcapacity hclock
      (ok_of_toOption hserializedGenerations.symm) (ok_of_toOption hserializedKeys.symm)⟩
  rw [List.append_nil]
  refine .bind (publish_returns hplan hplan.writes) ?_
  rintro - t rfl
  refine .bind verifyCompleteReadback_returns ?_
  rintro - t hread
  exact .pure ⟨_, _, hplan, hread, rfl, rfl⟩

/-! ## One peer -/

/-- The pair that the store plans from its own reads. -/
structure PeerCandidate (scope : StorageScope) (maxKeys : Nat) (peerId : JsString) (keys : Keys) (generations : Generations)
    (rotatedAtSec : Double) (key : Bytes) (result : ConversationKeyRotationResult) (c : Candidate) : Prop where
  target : keys.has peerId = true
  capacity : (compactStaleGenerations generations keys).size ≤ maxKeys
  clock : isPositiveSafeInteger rotatedAtSec = true
  bytes : key.length = conversationKeyBytes
  epoch : safeInteger result.epoch = some (((generations.get peerId).bind fun g => safeInteger g.epoch).getD 0 + 1)
  summary : result.key = key ∧ result.rotatedAtSec = rotatedAtSec
  nextKeys : c.keys = keys.set peerId key
  nextGenerations : c.generations = (compactStaleGenerations generations keys).set peerId ⟨result.epoch, rotatedAtSec⟩
  serializedGenerations :
    serializeConversationKeyGenerationsDocument JsonText.doubles scope c.generations = .ok c.serializedGenerations
  serializedKeys : serializeConversationKeyDocument JsonText.doubles scope c.keys = .ok c.serializedKeys

/-- The calls of `rotate` up to its first write, behind those of its caller. -/
def StorePlanned (scope : StorageScope) (maxKeys : Nat) (peerId : JsString) (t₁ : History)
    (result : ConversationKeyRotationResult) (c : Candidate) (t₀ : History) : Prop :=
  ∃ keysAnswer generationsAnswer rotatedAtSec key keys generations,
    t₀ = ⟨.randomBytes, some key⟩ :: ⟨.nowSec, some rotatedAtSec⟩ :: ⟨.readGenerations, generationsAnswer⟩ ::
      ⟨.readKeys, some keysAnswer⟩ :: ⟨.migrateLegacyTupleState .quarantine, some ()⟩ :: t₁ ∧
    keysOrEmpty scope keysAnswer = some keys ∧ storeAuditOnly scope generationsAnswer = some generations ∧
    PeerCandidate scope maxKeys peerId keys generations rotatedAtSec key result c

/-- What the rotator itself has read before. -/
def PeerPlanned (scope : StorageScope) (maxKeys : Nat) (peerId : JsString) (keys : Keys) (generations : Generations)
    (result : ConversationKeyRotationResult) (c : Candidate) (t₀ : History) : Prop :=
  ∃ m keysAnswer generationsAnswer, Migrated m ∧ keysOrEmpty scope keysAnswer = some keys ∧
    generations = auditOnly scope generationsAnswer ∧ keys.has peerId = true ∧
    StorePlanned scope maxKeys peerId (⟨.readGenerations, generationsAnswer⟩ :: ⟨.readKeys, some keysAnswer⟩ :: m) result c t₀

theorem StorePlanned.writes {maxKeys : Nat} {peerId : JsString} {t₁ : History} {result : ConversationKeyRotationResult}
    {c : Candidate} (h : StorePlanned scope maxKeys peerId t₁ result c t₀) (ht : writes t₁ = []) : writes t₀ = [] := by
  obtain ⟨keysAnswer, generationsAnswer, rotatedAtSec, key, keys, generations, rfl, -⟩ := h
  rw [writes_cons_of_not rfl, writes_cons_of_not rfl, writes_cons_of_not rfl, writes_cons_of_not rfl,
    writes_cons_of_not rfl, ht]

theorem rotate_returns {maxKeys : Nat} {peerId : JsString} {t₁ : History} (ht : writes t₁ = [])
    (hplan : ∀ result c t₀, StorePlanned scope maxKeys peerId t₁ result c t₀ → Planned c t₀) :
    Returns Planned t₁ (rotate scope maxKeys peerId) fun result t =>
      ∃ c t₀, StorePlanned scope maxKeys peerId t₁ result c t₀ ∧ t = published c ++ t₀ := by
  refine .bind (R := fun _ t => t = t₁) (.ite (fun _ => .throw) fun _ => .pure rfl) ?_
  rintro - t rfl
  refine .bind (.of_ends (.ask rfl)) ?_
  rintro - t rfl
  refine .bind readKeysOrEmpty_returns ?_
  rintro keys t ⟨keysAnswer, hkeys, rfl⟩
  refine .ite (fun _ => .throw) fun htarget => ?_
  rw [Bool.not_eq_false] at htarget
  refine .bind storeReadGenerationsAuditOnly_returns ?_
  rintro generations t ⟨generationsAnswer, hgenerations, rfl⟩
  refine .ite (fun _ => .throw) fun hcapacity => ?_
  refine .bind (.of_ends (.orThrow _)) ?_
  rintro epoch t ⟨hepoch, rfl⟩
  refine .bind readNowSec_returns ?_
  rintro rotatedAtSec t ⟨hclock, rfl⟩
  refine .bind makeRandomKey_returns ?_
  rintro key t ⟨hbytes, rfl⟩
  refine .bind (.of_ends (.orThrow _)) ?_
  rintro serializedGenerations t ⟨hserializedGenerations, rfl⟩
  refine .bind (.of_ends (.orThrow _)) ?_
  rintro serializedKeys t ⟨hserializedKeys, rfl⟩
  have hsize : (compactStaleGenerations generations keys).size ≤ maxKeys := by
    split at hcapacity
    · exact Nat.not_lt.mp hcapacity
    · exact Nat.le_of_lt (Nat.not_le.mp hcapacity)
  have hepoch := safeInteger_epochAfter hepoch.symm
  rw [get_compactStaleGenerations, if_pos htarget] at hepoch
  have hstore : StorePlanned scope maxKeys peerId t ⟨key, epoch, rotatedAtSec⟩ ⟨_, _, serializedKeys, serializedGenerations⟩ _ :=
    ⟨keysAnswer, generationsAnswer, rotatedAtSec, key, keys, generations, rfl, hkeys, hgenerations, htarget, hsize, hclock,
      hbytes, hepoch, ⟨rfl, rfl⟩, rfl, rfl, ok_of_toOption hserializedGenerations.symm, ok_of_toOption hserializedKeys.symm⟩
  refine .bind (publish_returns (hplan _ _ _ hstore) (hstore.writes ht)) ?_
  rintro - t rfl
  exact .pure ⟨_, _, hstore, rfl⟩

theorem rotatePeerVerified_returns {maxKeys : Nat} {peerId : JsString} :
    Returns (fun c t₀ => ∃ keys generations result, PeerPlanned scope maxKeys peerId keys generations result c t₀) []
      (rotatePeerVerified scope maxKeys peerId) fun summary t =>
        ∃ keys generations result c t₀, PeerPlanned scope maxKeys peerId keys generations result c t₀ ∧
          ReadBack scope (keys.set peerId result.key)
            ((compactStaleGenerations generations keys).set peerId ⟨result.epoch, result.rotatedAtSec⟩) (published c ++ t₀) t ∧
          summary = ⟨peerId, result.epoch, result.rotatedAtSec⟩ := by
  refine .bind (R := fun _ t => t = []) (.ite (fun _ => .throw) fun _ => .pure rfl) ?_
  rintro - t rfl
  refine .bind prepareMigration_returns ?_
  rintro - t ⟨m, hm, rfl⟩
  refine .bind readKeysOrEmpty_returns ?_
  rintro keys t ⟨keysAnswer, hkeys, rfl⟩
  refine .ite (fun _ => .throw) fun htarget => ?_
  rw [Bool.not_eq_false] at htarget
  refine .bind readGenerationsAuditOnly_returns ?_
  rintro generations t ⟨generationsAnswer, rfl, rfl⟩
  rw [List.append_nil]
  have hplan (result : ConversationKeyRotationResult) (c : Candidate) (t₀ : History)
      (h : StorePlanned scope maxKeys peerId (⟨.readGenerations, generationsAnswer⟩ :: ⟨.readKeys, some keysAnswer⟩ :: m) result c t₀) :
      PeerPlanned scope maxKeys peerId keys (auditOnly scope generationsAnswer) result c t₀ :=
    ⟨m, keysAnswer, generationsAnswer, hm, hkeys, rfl, htarget, h⟩
  refine .bind (rotate_returns ?_ fun result c t₀ h => ⟨_, _, _, hplan result c t₀ h⟩) ?_
  · rw [writes_cons_of_not rfl, writes_cons_of_not rfl, writes_migrated hm]
  · rintro result t ⟨c, t₀, hstore, rfl⟩
    refine .bind verifyCompleteReadback_returns ?_
    rintro - t hread
    exact .pure ⟨_, _, _, c, t₀, hplan _ _ _ hstore, hread, rfl⟩

end Webchannel.Rotation
