import Webchannel.Channel.Registry

/-!
# The law of the peer registry

In every run the peers with a subscription and the peers with a key are the same, each with one live subscription to its
own subject, and what is published is sealed under the key of the peer it is for.
-/

namespace Webchannel.Channel

open Envelope Runs
open Ingress (Number)

variable {channel : Nats.NatsChannel} {limits : NatsChannelLimits} {initial : NatsTransport} {s : State} {p q peerId : JsString}

/-- The subscriptions of the transport: the ones it had, and the channel's own. -/
def Owned (channel : Nats.NatsChannel) (initial : NatsTransport) (s : State) (sid : Nat) (subject : JsString) : Prop :=
  initial.subs.get sid = some subject ∨ s.registerSid = some sid ∧ subject = channel.registerWildcard ∨
    ∃ p, s.peerSubscriptions.get p = some sid ∧ subject = channel.inboundSubject p

variable (channel limits initial) in
structure Consistent (s : State) : Prop where
  keys : ∀ p, s.peerSessionKeys.has p = s.peerSubscriptions.has p
  size : (Number.ofNat 1).le limits.maxPeers = true →
    ∀ n : Nat, limits.maxPeers.le (.ofNat n) = true → s.peerSubscriptions.size ≤ n
  windows : ∀ p, s.seenMessageIds.has p = true → s.peerSubscriptions.has p = true
  subs : ∀ sid subject, s.transport.subs.get sid = some subject ↔ Owned channel initial s sid subject
  peerSid : ∀ p sid, s.peerSubscriptions.get p = some sid → initial.sidCounter < sid ∧ sid ≤ s.transport.sidCounter
  injective : ∀ p q sid, s.peerSubscriptions.get p = some sid → s.peerSubscriptions.get q = some sid → p = q
  registerSid : ∀ sid, s.registerSid = some sid →
    (initial.sidCounter < sid ∧ sid ≤ s.transport.sidCounter) ∧ ∀ p, s.peerSubscriptions.get p ≠ some sid
  disposed : s.disposed = true → s.peerSubscriptions = .empty ∧ s.registerSid = none
  counter : initial.sidCounter ≤ s.transport.sidCounter

/-- A transport numbers its subscriptions from one. -/
def NatsTransport.Numbered (transport : NatsTransport) : Prop :=
  ∀ sid subject, transport.subs.get sid = some subject → sid ≤ transport.sidCounter

theorem numbered_empty : NatsTransport.Numbered {} := fun _ _ h => nomatch h

theorem consistent_start (channel : Nats.NatsChannel) (limits : NatsChannelLimits) (initial : NatsTransport) :
    Consistent channel limits initial { transport := initial } where
  keys := fun _ => rfl
  size := fun _ n _ => Nat.zero_le n
  windows := fun _ h => h
  subs := fun _ _ => ⟨.inl, fun h => h.elim id (Or.rec (fun h => nomatch h.1) fun ⟨_, h, _⟩ => nomatch h)⟩
  peerSid := fun _ _ h => nomatch h
  injective := fun _ _ _ h => nomatch h
  registerSid := fun _ h => nomatch h
  disposed := fun h => nomatch h
  counter := Nat.le_refl _

/-! ## Unregistering -/

theorem dropSubscription_eq (h : Consistent channel limits initial s) (p : JsString) :
    s.dropSubscription p = match s.peerSubscriptions.get p with
      | some sid =>
        { s with transport := s.transport.unsubscribe sid, peerSubscriptions := s.peerSubscriptions.delete p }
      | none => s := by
  unfold State.dropSubscription
  cases hget : s.peerSubscriptions.get p with
  | none => rfl
  | some sid => exact if_pos (Nat.ne_of_gt (Nat.lt_of_le_of_lt (Nat.zero_le _) (h.peerSid p sid hget).1))

theorem unregisterPeer_subscriptions (h : Consistent channel limits initial s) (p : JsString) :
    (s.unregisterPeer p).peerSubscriptions = s.peerSubscriptions.delete p := by
  unfold State.unregisterPeer
  rw [dropSubscription_eq h]
  cases hget : s.peerSubscriptions.get p with
  | some sid => rfl
  | none => exact (OrderedMap.delete_of_not_has (OrderedMap.has_eq_false_iff.mpr hget)).symm

theorem unregisterPeer_frame (h : Consistent channel limits initial s) (p : JsString) :
    (s.unregisterPeer p).peerSessionKeys = s.peerSessionKeys.delete p ∧
      (s.unregisterPeer p).seenMessageIds = s.seenMessageIds.delete p ∧
      (s.unregisterPeer p).disposed = s.disposed ∧ (s.unregisterPeer p).registerSid = s.registerSid ∧
      (s.unregisterPeer p).transport.sidCounter = s.transport.sidCounter ∧
      (s.unregisterPeer p).transport.published = s.transport.published := by
  unfold State.unregisterPeer
  rw [dropSubscription_eq h]
  cases s.peerSubscriptions.get p with
  | some sid => exact ⟨rfl, rfl, rfl, rfl, rfl, rfl⟩
  | none => exact ⟨rfl, rfl, rfl, rfl, rfl, rfl⟩

theorem unregisterPeer_subs (h : Consistent channel limits initial s) (p : JsString) (sid : Nat) :
    (s.unregisterPeer p).transport.subs.get sid =
      if s.peerSubscriptions.get p = some sid then none else s.transport.subs.get sid := by
  unfold State.unregisterPeer
  rw [dropSubscription_eq h]
  cases hget : s.peerSubscriptions.get p with
  | none => rfl
  | some sid' =>
    refine (OrderedMap.get_delete_eq _ sid' sid).trans ?_
    by_cases hsid : sid = sid'
    · rw [if_pos hsid, if_pos (congrArg some hsid.symm)]
    · rw [if_neg hsid, if_neg fun heq => hsid (Option.some.inj heq).symm]

theorem Consistent.unregisterPeer (hinitial : initial.Numbered) (h : Consistent channel limits initial s) (p : JsString) :
    Consistent channel limits initial (s.unregisterPeer p) := by
  obtain ⟨hkeys, hseen, hdisposed, hregister, hcounter, -⟩ := unregisterPeer_frame h p
  have hpeers := unregisterPeer_subscriptions h p
  have hget (q : JsString) (sid : Nat) :
      (s.unregisterPeer p).peerSubscriptions.get q = some sid ↔ q ≠ p ∧ s.peerSubscriptions.get q = some sid := by
    rw [hpeers, OrderedMap.get_delete_eq]
    by_cases hq : q = p
    · rw [if_pos hq]
      exact ⟨fun h => (by cases h), fun h => absurd hq h.1⟩
    · rw [if_neg hq]
      exact ⟨fun h => ⟨hq, h⟩, fun h => h.2⟩
  constructor
  · intro q
    rw [hkeys, hpeers, OrderedMap.has_delete_eq, OrderedMap.has_delete_eq, h.keys]
  · intro hmax n hn
    rw [hpeers]
    exact (List.length_filter_le _ _).trans (h.size hmax n hn)
  · intro q
    rw [hseen, hpeers, OrderedMap.has_delete_eq, OrderedMap.has_delete_eq, Bool.and_eq_true, Bool.and_eq_true]
    exact And.imp_right (h.windows q)
  · intro sid subject
    rw [unregisterPeer_subs h]
    unfold Owned
    rw [hregister]
    simp only [hget]
    split
    · rename_i hsid
      -- The number was the one of this peer alone.
      refine ⟨fun h => (by cases h), ?_⟩
      rintro (hold | ⟨hreg, -⟩ | ⟨q, ⟨hne, hq⟩, -⟩)
      · exact absurd (h.peerSid p sid hsid).1 (Nat.not_lt_of_le (hinitial sid subject hold))
      · exact absurd hsid ((h.registerSid sid hreg).2 p)
      · exact absurd (h.injective q p sid hq hsid) hne
    · rename_i hsid
      rw [h.subs]
      refine or_congr_right (or_congr_right (exists_congr fun q => and_congr_left fun _ => ?_))
      exact ⟨fun hq => ⟨fun heq => hsid (heq ▸ hq), hq⟩, fun hq => hq.2⟩
  · intro q sid hq
    rw [hcounter]
    exact h.peerSid q sid ((hget q sid).mp hq).2
  · intro q q' sid hq hq'
    exact h.injective q q' sid ((hget q sid).mp hq).2 ((hget q' sid).mp hq').2
  · intro sid hsid
    rw [hregister] at hsid
    rw [hcounter]
    exact ⟨(h.registerSid sid hsid).1, fun q hq => (h.registerSid sid hsid).2 q ((hget q sid).mp hq).2⟩
  · intro hd
    rw [hdisposed] at hd
    rw [hpeers, hregister, (h.disposed hd).1]
    exact ⟨rfl, (h.disposed hd).2⟩
  · rw [hcounter]
    exact h.counter

/-! ## Making room -/

theorem evictPeers_consistent (hinitial : initial.Numbered) (maxPeers : Number) (turns : Nat)
    (h : Consistent channel limits initial s) : Consistent channel limits initial (State.evictPeers maxPeers turns s) := by
  induction turns generalizing s with
  | zero => exact h
  | succ turns ih =>
    unfold State.evictPeers
    split
    · split
      · exact h
      · exact ih (h.unregisterPeer hinitial _)
    · exact h

/-- What the loop leaves as it was. -/
theorem evictPeers_frame (hinitial : initial.Numbered) (maxPeers : Number) (turns : Nat)
    (h : Consistent channel limits initial s) :
    (State.evictPeers maxPeers turns s).disposed = s.disposed ∧
      (State.evictPeers maxPeers turns s).transport.published = s.transport.published ∧
      (∀ p, s.peerSubscriptions.has p = false → (State.evictPeers maxPeers turns s).peerSubscriptions.has p = false) ∧
      ∀ p, (State.evictPeers maxPeers turns s).peerSubscriptions.has p = true →
        (State.evictPeers maxPeers turns s).seenMessageIds.get p = s.seenMessageIds.get p ∧
        (State.evictPeers maxPeers turns s).peerSessionKeys.get p = s.peerSessionKeys.get p := by
  induction turns generalizing s with
  | zero => exact ⟨rfl, rfl, fun _ h => h, fun _ _ => ⟨rfl, rfl⟩⟩
  | succ turns ih =>
    unfold State.evictPeers
    split
    · split
      · exact ⟨rfl, rfl, fun _ h => h, fun _ _ => ⟨rfl, rfl⟩⟩
      · rename_i oldest _ _
        obtain ⟨hkeys, hseen, hdisposed, -, -, hpublished⟩ := unregisterPeer_frame h oldest
        have hpeers := unregisterPeer_subscriptions h oldest
        obtain ⟨hd, hp, hout, hin⟩ := ih (h.unregisterPeer hinitial oldest)
        refine ⟨hd.trans hdisposed, hp.trans hpublished, fun p hp => hout p ?_, fun p hp => ?_⟩
        · rw [hpeers, OrderedMap.has_delete_eq, hp, Bool.and_false]
        · have hne : p ≠ oldest := by
            rintro rfl
            rw [hout p (by rw [hpeers, OrderedMap.has_delete_eq]; simp)] at hp
            cases hp
          rw [(hin p hp).1, (hin p hp).2, hseen, hkeys, OrderedMap.get_delete_of_ne _ hne, OrderedMap.get_delete_of_ne _ hne]
          exact ⟨rfl, rfl⟩
    · exact ⟨rfl, rfl, fun _ h => h, fun _ _ => ⟨rfl, rfl⟩⟩

/-- There is room for one more peer. -/
theorem evictPeers_room {maxPeers : Number} (hmax : (Number.ofNat 1).le maxPeers = true) (turns : Nat)
    (h : Consistent channel limits initial s) (hinitial : initial.Numbered) (hturns : s.peerSubscriptions.size ≤ turns) :
    maxPeers.le (.ofNat (State.evictPeers maxPeers turns s).peerSubscriptions.size) = false := by
  have hzero : maxPeers.le (.ofNat 0) = false := by
    cases hle : maxPeers.le (.ofNat 0) with
    | false => rfl
    | true => exact absurd (Number.le_trans hmax hle) (by decide)
  induction turns generalizing s with
  | zero =>
    unfold State.evictPeers
    rw [Nat.le_zero.mp hturns]
    exact hzero
  | succ turns ih =>
    unfold State.evictPeers
    split
    · split
      · rename_i hkeys
        rw [OrderedMap.keys_eq_nil_iff.mp hkeys]
        exact hzero
      · rename_i oldest rest hkeys
        refine ih (h.unregisterPeer hinitial oldest) ?_
        rw [unregisterPeer_subscriptions h, ← OrderedMap.length_keys, OrderedMap.keys_delete_oldest hkeys]
        rw [← OrderedMap.length_keys, hkeys, List.length_cons] at hturns
        omega
    · rename_i hroom
      exact Bool.eq_false_iff.mpr hroom

theorem evictPeers_of_room {maxPeers : Number} (hroom : maxPeers.le (.ofNat s.peerSubscriptions.size) = false)
    (turns : Nat) : State.evictPeers maxPeers turns s = s := by
  cases turns with
  | zero => rfl
  | succ turns =>
    unfold State.evictPeers
    rw [hroom]
    rfl

/-! ## Registering -/

/-- No subscription has a number that is yet to come. -/
theorem Consistent.get_next (hinitial : initial.Numbered) (h : Consistent channel limits initial s) (subject : JsString) :
    ¬ Owned channel initial s (s.transport.sidCounter + 1) subject := by
  rintro (hold | ⟨hreg, -⟩ | ⟨q, hq, -⟩)
  · exact absurd (hinitial _ _ hold) (Nat.not_le_of_lt (Nat.lt_succ_of_le h.counter))
  · exact absurd (h.registerSid _ hreg).1.2 (Nat.not_succ_le_self _)
  · exact absurd (h.peerSid q _ hq).2 (Nat.not_succ_le_self _)

/-- The transport after the next subscription. -/
theorem Consistent.get_subscribed (hinitial : initial.Numbered) (h : Consistent channel limits initial s)
    {subject : JsString} (sid : Nat) (subject' : JsString) :
    (s.transport.subs.set (s.transport.sidCounter + 1) subject).get sid = some subject' ↔
      Owned channel initial s sid subject' ∨ sid = s.transport.sidCounter + 1 ∧ subject' = subject := by
  rw [OrderedMap.get_set_eq, ← h.subs]
  by_cases hsid : sid = s.transport.sidCounter + 1
  · rw [if_pos hsid]
    constructor
    · exact fun heq => .inr ⟨hsid, (Option.some.inj heq).symm⟩
    · rintro (hold | ⟨-, rfl⟩)
      · rw [h.subs, hsid] at hold
        exact absurd hold (h.get_next hinitial subject')
      · rfl
  · rw [if_neg hsid]
    exact ⟨.inl, fun hor => hor.resolve_right fun h => hsid h.1⟩

variable (channel) in
/-- The state with a new subscription for a peer. -/
def State.subscribed (s : State) (p : JsString) (key : Bytes) : State :=
  { s with
    transport :=
      { s.transport with
        sidCounter := s.transport.sidCounter + 1
        subs := s.transport.subs.set (s.transport.sidCounter + 1) (channel.inboundSubject p) }
    peerSubscriptions := s.peerSubscriptions.set p (s.transport.sidCounter + 1)
    peerSessionKeys := s.peerSessionKeys.set p key }

theorem Consistent.subscribePeer (hinitial : initial.Numbered) (h : Consistent channel limits initial s)
    (hdisposed : s.disposed = false) (hnew : s.peerSubscriptions.has p = false)
    (hroom : (Number.ofNat 1).le limits.maxPeers = true → limits.maxPeers.le (.ofNat s.peerSubscriptions.size) = false)
    (key : Bytes) :
    Consistent channel limits initial (s.subscribed channel p key) := by
  have hget (q : JsString) (sid : Nat) : (s.subscribed channel p key).peerSubscriptions.get q = some sid ↔
      s.peerSubscriptions.get q = some sid ∨ q = p ∧ sid = s.transport.sidCounter + 1 := by
    unfold State.subscribed
    rw [OrderedMap.get_set_eq]
    by_cases hq : q = p
    · rw [if_pos hq, hq, OrderedMap.has_eq_false_iff.mp hnew]
      exact ⟨fun heq => .inr ⟨rfl, (Option.some.inj heq).symm⟩, fun hor => hor.elim nofun fun h => congrArg some h.2.symm⟩
    · rw [if_neg hq]
      exact ⟨.inl, fun hor => hor.resolve_right fun h => hq h.1⟩
  constructor
  · intro q
    unfold State.subscribed
    rw [OrderedMap.has_set_eq, OrderedMap.has_set_eq, h.keys]
  · intro hmax n hn
    have hlt : s.peerSubscriptions.size < n := by
      refine Nat.lt_of_not_le fun hle => ?_
      have hfull := Number.le_trans hn (Number.ofNat_le hle)
      rw [hroom hmax] at hfull
      cases hfull
    unfold State.subscribed
    rw [← OrderedMap.length_keys, OrderedMap.keys_set_of_not_has _ hnew, List.length_append, OrderedMap.length_keys]
    exact hlt
  · intro q hq
    unfold State.subscribed
    rw [OrderedMap.has_set_eq, h.windows q hq, Bool.or_true]
  · intro sid subject
    refine (h.get_subscribed hinitial sid subject).trans ?_
    unfold Owned
    simp only [hget]
    constructor
    · rintro ((hold | hreg | ⟨q, hq, hsub⟩) | ⟨hsid, hsub⟩)
      · exact .inl hold
      · exact .inr (.inl hreg)
      · exact .inr (.inr ⟨q, .inl hq, hsub⟩)
      · exact .inr (.inr ⟨p, .inr ⟨rfl, hsid⟩, hsub⟩)
    · rintro (hold | hreg | ⟨q, hq | ⟨rfl, hsid⟩, hsub⟩)
      · exact .inl (.inl hold)
      · exact .inl (.inr (.inl hreg))
      · exact .inl (.inr (.inr ⟨q, hq, hsub⟩))
      · exact .inr ⟨hsid, hsub⟩
  · intro q sid hq
    obtain hq | ⟨-, rfl⟩ := (hget q sid).mp hq
    · exact ⟨(h.peerSid q sid hq).1, Nat.le_succ_of_le (h.peerSid q sid hq).2⟩
    · exact ⟨Nat.lt_succ_of_le h.counter, Nat.le_refl _⟩
  · intro q q' sid hq hq'
    obtain hold | ⟨hp, hsid⟩ := (hget q sid).mp hq <;> obtain hold' | ⟨hp', hsid'⟩ := (hget q' sid).mp hq'
    · exact h.injective q q' sid hold hold'
    · exact absurd (hsid' ▸ (h.peerSid q sid hold).2) (Nat.not_succ_le_self _)
    · exact absurd (hsid ▸ (h.peerSid q' sid hold').2) (Nat.not_succ_le_self _)
    · exact hp.trans hp'.symm
  · intro sid hsid
    obtain ⟨⟨hlow, hhigh⟩, hother⟩ := h.registerSid sid hsid
    refine ⟨⟨hlow, Nat.le_succ_of_le hhigh⟩, fun q hq => ?_⟩
    obtain hq | ⟨-, rfl⟩ := (hget q sid).mp hq
    · exact hother q hq
    · exact absurd hhigh (Nat.not_succ_le_self _)
  · exact fun hd => absurd (hdisposed.symm.trans hd) (by decide)
  · exact Nat.le_succ_of_le h.counter

/-- A key that is set again for a registered peer. -/
theorem Consistent.setKey (h : Consistent channel limits initial s) (hpeer : s.peerSubscriptions.has p = true) (key : Bytes) :
    Consistent channel limits initial { s with peerSessionKeys := s.peerSessionKeys.set p key } where
  keys := fun q => by
    rw [OrderedMap.has_set_eq, h.keys]
    by_cases hq : q = p
    · rw [hq, hpeer, Bool.or_true]
    · rw [decide_eq_false hq, Bool.false_or]
  size := h.size
  windows := h.windows
  subs := h.subs
  peerSid := h.peerSid
  injective := h.injective
  registerSid := h.registerSid
  disposed := h.disposed
  counter := h.counter

/-- What registering a peer can do. -/
theorem registerPeer_cases (ν : Type) (s : State) (channel : Nats.NatsChannel) (limits : NatsChannelLimits) (p : JsString)
    (key : Option Bytes) (isOpen : Bool) :
    (s.disposed = true ∨ key = none) ∧ (s.registerPeer channel limits p key isOpen : State × Outcome ν) = (s, .threw) ∨
      ∃ k, s.disposed = false ∧ key = some k ∧
        (s.peerSubscriptions.has p = true ∧ (s.registerPeer channel limits p key isOpen : State × Outcome ν) =
            ({ s with peerSessionKeys := s.peerSessionKeys.set p k }, .done) ∨
          s.peerSubscriptions.has p = false ∧ (s.registerPeer channel limits p key isOpen : State × Outcome ν) =
            if isOpen then ((State.evictPeers limits.maxPeers s.peerSubscriptions.size s).subscribed channel p k, .done)
            else (State.evictPeers limits.maxPeers s.peerSubscriptions.size s, .threw)) := by
  unfold State.registerPeer
  by_cases hdisposed : s.disposed = true
  · exact .inl ⟨.inl hdisposed, if_pos hdisposed⟩
  rw [if_neg hdisposed]
  cases key with
  | none => exact .inl ⟨.inr rfl, rfl⟩
  | some k =>
    refine .inr ⟨k, Bool.eq_false_iff.mpr hdisposed, rfl, ?_⟩
    by_cases hpeer : s.peerSubscriptions.has p = true
    · exact .inl ⟨hpeer, if_pos hpeer⟩
    · refine .inr ⟨Bool.eq_false_iff.mpr hpeer, (if_neg hpeer).trans ?_⟩
      cases isOpen <;> rfl

theorem Consistent.registerPeer {ν : Type} (hinitial : initial.Numbered) (h : Consistent channel limits initial s) (p : JsString)
    (key : Option Bytes) (isOpen : Bool) :
    Consistent channel limits initial (s.registerPeer channel limits p key isOpen : State × Outcome ν).1 := by
  obtain ⟨-, heq⟩ | ⟨k, hdisposed, -, ⟨hpeer, heq⟩ | ⟨hpeer, heq⟩⟩ :=
    registerPeer_cases ν s channel limits p key isOpen
  · rw [heq]
    exact h
  · rw [heq]
    exact h.setKey hpeer k
  · have hevicted := evictPeers_consistent hinitial limits.maxPeers s.peerSubscriptions.size h
    rw [heq]
    cases isOpen with
    | false => exact hevicted
    | true =>
      obtain ⟨hd, -, hout, -⟩ := evictPeers_frame hinitial limits.maxPeers s.peerSubscriptions.size h
      exact hevicted.subscribePeer hinitial (hd.trans hdisposed) (hout p hpeer)
        (fun hmax => evictPeers_room hmax s.peerSubscriptions.size h hinitial (Nat.le_refl _)) k

/-! ## The register wildcard -/

/-- The wildcard is subscribed. -/
theorem Consistent.addRegister (hinitial : initial.Numbered) (h : Consistent channel limits initial s)
    (hdisposed : s.disposed = false) (hregister : s.registerSid = none) :
    Consistent channel limits initial
      { s with
        transport :=
          { s.transport with
            sidCounter := s.transport.sidCounter + 1
            subs := s.transport.subs.set (s.transport.sidCounter + 1) channel.registerWildcard }
        registerSid := some (s.transport.sidCounter + 1) } := by
  constructor
  · exact h.keys
  · exact h.size
  · exact h.windows
  · intro sid subject
    refine (h.get_subscribed hinitial sid subject).trans ?_
    unfold Owned
    rw [hregister]
    constructor
    · rintro ((hold | ⟨hnone, -⟩ | hpeer) | ⟨rfl, hsub⟩)
      · exact .inl hold
      · cases hnone
      · exact .inr (.inr hpeer)
      · exact .inr (.inl ⟨rfl, hsub⟩)
    · rintro (hold | ⟨hsid, hsub⟩ | hpeer)
      · exact .inl (.inl hold)
      · exact .inr ⟨(Option.some.inj hsid).symm, hsub⟩
      · exact .inl (.inr (.inr hpeer))
  · exact fun q sid hq => ⟨(h.peerSid q sid hq).1, Nat.le_succ_of_le (h.peerSid q sid hq).2⟩
  · exact h.injective
  · rintro sid ⟨⟩
    exact ⟨⟨Nat.lt_succ_of_le h.counter, Nat.le_refl _⟩,
      fun q hq => absurd (h.peerSid q _ hq).2 (Nat.not_succ_le_self _)⟩
  · exact fun hd => absurd (hdisposed.symm.trans hd) (by decide)
  · exact Nat.le_succ_of_le h.counter

theorem Consistent.subscribeRegister {ν : Type} (hinitial : initial.Numbered) (h : Consistent channel limits initial s)
    (isOpen : Bool) : Consistent channel limits initial (s.subscribeRegister channel isOpen : State × Outcome ν).1 := by
  unfold State.subscribeRegister
  by_cases hdisposed : s.disposed = true
  · rw [if_pos hdisposed]
    exact h
  rw [if_neg hdisposed]
  by_cases hregister : s.registerSid.isSome = true
  · rw [if_pos hregister]
    exact h
  rw [if_neg hregister]
  cases isOpen with
  | false => exact h
  | true => exact h.addRegister hinitial (Bool.eq_false_iff.mpr hdisposed) (Option.not_isSome_iff_eq_none.mp hregister)

/-- The wildcard is given up. -/
theorem Consistent.dropRegister (hinitial : initial.Numbered) (h : Consistent channel limits initial s) {sid : Nat}
    (hregister : s.registerSid = some sid) :
    Consistent channel limits initial { s with transport := s.transport.unsubscribe sid, registerSid := none } := by
  obtain ⟨⟨hlow, -⟩, hother⟩ := h.registerSid sid hregister
  constructor
  · exact h.keys
  · exact h.size
  · exact h.windows
  · intro sid' subject
    refine (Eq.congr_left (OrderedMap.get_delete_eq _ sid sid')).trans ?_
    unfold Owned
    by_cases hsid : sid' = sid
    · rw [if_pos hsid]
      refine ⟨nofun, ?_⟩
      rintro (hold | ⟨hnone, -⟩ | ⟨q, hq, -⟩)
      · exact absurd hlow (Nat.not_lt_of_le (hsid ▸ hinitial sid' subject hold))
      · cases hnone
      · exact absurd (hsid ▸ hq) (hother q)
    · rw [if_neg hsid, h.subs]
      refine or_congr_right (or_congr_left ⟨fun hreg => ?_, fun hnone => nomatch hnone.1⟩)
      exact absurd (Option.some.inj (hreg.1.symm.trans hregister)) hsid
  · exact h.peerSid
  · exact h.injective
  · exact fun _ hnone => nomatch hnone
  · exact fun hd => ⟨(h.disposed hd).1, rfl⟩
  · exact h.counter

/-- What the wildcard has nothing to do with. -/
structure SamePeers (s s' : State) : Prop where
  subscriptions : s'.peerSubscriptions = s.peerSubscriptions
  keys : s'.peerSessionKeys = s.peerSessionKeys
  windows : s'.seenMessageIds = s.seenMessageIds
  published : s'.transport.published = s.transport.published

theorem subscribeRegister_samePeers {ν : Type} (s : State) (channel : Nats.NatsChannel) (isOpen : Bool) :
    SamePeers s (s.subscribeRegister channel isOpen : State × Outcome ν).1 := by
  unfold State.subscribeRegister
  split
  · exact ⟨rfl, rfl, rfl, rfl⟩
  split
  · exact ⟨rfl, rfl, rfl, rfl⟩
  cases isOpen <;> exact ⟨rfl, rfl, rfl, rfl⟩

theorem disposeRegister_samePeers (s : State) (sid : Nat) : SamePeers s (s.disposeRegister sid) := by
  unfold State.disposeRegister
  split <;> exact ⟨rfl, rfl, rfl, rfl⟩

theorem Consistent.disposeRegister (hinitial : initial.Numbered) (h : Consistent channel limits initial s) (sid : Nat) :
    Consistent channel limits initial (s.disposeRegister sid) := by
  unfold State.disposeRegister
  split
  · exact h.dropRegister hinitial ‹_›
  · exact h

/-! ## Disposing -/

theorem get_foldl_unsubscribe (sids : List Nat) (transport : NatsTransport) (sid : Nat) :
    (sids.foldl NatsTransport.unsubscribe transport).subs.get sid =
      if sid ∈ sids then none else transport.subs.get sid := by
  have hsubs : (sids.foldl NatsTransport.unsubscribe transport).subs = sids.foldl OrderedMap.delete transport.subs := by
    induction sids generalizing transport with
    | nil => rfl
    | cons sid sids ih => exact ih (transport.unsubscribe sid)
  rw [hsubs]
  exact OrderedMap.get_foldl_delete sids transport.subs sid

theorem foldl_unsubscribe_frame (sids : List Nat) (transport : NatsTransport) :
    (sids.foldl NatsTransport.unsubscribe transport).sidCounter = transport.sidCounter ∧
      (sids.foldl NatsTransport.unsubscribe transport).published = transport.published := by
  induction sids generalizing transport with
  | nil => exact ⟨rfl, rfl⟩
  | cons sid sids ih => exact ih (transport.unsubscribe sid)

theorem Consistent.dispose (hinitial : initial.Numbered) (h : Consistent channel limits initial s) :
    Consistent channel limits initial s.dispose := by
  unfold State.dispose
  split
  · exact h
  rename_i hdisposed
  -- First the wildcard goes, then the peers.
  obtain ⟨s', hs', hregister, h'⟩ : ∃ s', State.dropRegister { s with disposed := true } = { s' with disposed := true } ∧
      s'.registerSid = none ∧ Consistent channel limits initial s' := by
    unfold State.dropRegister
    cases hsid : s.registerSid with
    | none => exact ⟨s, by rw [hsid], hsid, h⟩
    | some sid => exact ⟨_, rfl, rfl, h.dropRegister hinitial hsid⟩
  rw [hs']
  obtain ⟨hcounter, -⟩ := foldl_unsubscribe_frame s'.peerSubscriptions.values s'.transport
  constructor
  · exact fun _ => rfl
  · exact fun _ n _ => Nat.zero_le n
  · exact fun _ hseen => hseen
  · intro sid subject
    refine (Eq.congr_left (get_foldl_unsubscribe _ _ sid)).trans ?_
    unfold Owned
    by_cases hmem : sid ∈ s'.peerSubscriptions.values
    · rw [if_pos hmem]
      obtain ⟨q, hq⟩ := OrderedMap.mem_values.mp hmem
      refine ⟨nofun, ?_⟩
      rintro (hold | ⟨hreg, -⟩ | ⟨q', hq', -⟩)
      · exact absurd (h'.peerSid q sid hq).1 (Nat.not_lt_of_le (hinitial sid subject hold))
      · exact absurd (hregister.symm.trans hreg) nofun
      · cases hq'
    · rw [if_neg hmem, h'.subs]
      refine or_congr_right (or_congr_right ⟨fun hpeer => ?_, fun hnone => nomatch hnone.choose_spec.1⟩)
      obtain ⟨q, hq, -⟩ := hpeer
      exact absurd (OrderedMap.mem_values.mpr ⟨q, hq⟩) hmem
  · exact fun _ _ hq => nomatch hq
  · exact fun _ _ _ hq => nomatch hq
  · exact fun _ hreg => absurd (hregister.symm.trans hreg) nofun
  · exact fun _ => ⟨rfl, hregister⟩
  · exact Nat.le_trans h'.counter (Nat.le_of_eq hcounter.symm)

theorem dispose_published (s : State) : s.dispose.transport.published = s.transport.published := by
  unfold State.dispose
  split
  · rfl
  · refine (foldl_unsubscribe_frame _ _).2.trans ?_
    unfold State.dropRegister
    dsimp only
    cases s.registerSid <;> rfl

/-! ## Messages -/

/-- The replay window of a peer. -/
def State.window (s : State) (p : JsString) : OrderedMap JsString Rat := (s.seenMessageIds.get p).getD .empty

/-- The state with another replay window for a peer. -/
def State.withWindow (s : State) (p : JsString) (seen : OrderedMap JsString Rat) : State :=
  { s with seenMessageIds := s.seenMessageIds.set p seen }

/-- The window with one more id. -/
def remember (limits : NatsChannelLimits) (seen : OrderedMap JsString Rat) (id : JsString) (ts : Rat) :
    OrderedMap JsString Rat :=
  State.trimSeen limits.maxSeenMessageIdsPerPeer (seen.set id ts).size (seen.set id ts)

theorem acceptFreshInbound_cases (s : State) (limits : NatsChannelLimits) (p id : JsString) (ts : Rat) (now : Int) :
    s.acceptFreshInbound limits p id ts now = (s, false) ∨
      s.acceptFreshInbound limits p id ts now = (s.withWindow p (s.window p), false) ∨
      limits.replayWindowMs.lt (abs (skew now ts)) = false ∧ (s.window p).has id = false ∧
        s.acceptFreshInbound limits p id ts now = (s.withWindow p (remember limits (s.window p) id ts), true) := by
  unfold State.acceptFreshInbound
  by_cases hskew : limits.replayWindowMs.lt (abs (skew now ts)) = true
  · exact .inl (if_pos hskew)
  rw [if_neg hskew]
  by_cases hseen : (s.window p).has id = true
  · exact .inr (.inl (if_pos hseen))
  · exact .inr (.inr ⟨Bool.eq_false_iff.mpr hskew, Bool.eq_false_iff.mpr hseen, if_neg hseen⟩)

section Steps

variable {ν : Type} [DecidableEq ν] {codec : Codec ν}

/-- What a message can do. -/
theorem handleMessage_cases (s : State) (codec : Codec ν) (channel : Nats.NatsChannel) (limits : NatsChannelLimits)
    (subject : JsString) (payload : Bytes) (now : Int) :
    s.handleMessage codec channel limits subject payload now = (s, .dropped) ∨
      ∃ p key, channel.handleNatsMessage subject = .encrypted p ∧ s.peerSessionKeys.get p = some key ∧
        (s.handleMessage codec channel limits subject payload now = (s.withWindow p (s.window p), .dropped) ∨
          ∃ routing message,
            Agent.openEnvelope codec.numbers codec.ciphers codec.fromBase64Url payload key = .ok (routing, message) ∧
            limits.replayWindowMs.lt (abs (skew now (codec.value routing.ts))) = false ∧
            (s.window p).has routing.messageId = false ∧
            s.handleMessage codec channel limits subject payload now =
              (s.withWindow p (remember limits (s.window p) routing.messageId (codec.value routing.ts)),
                .admitted p routing.messageId (codec.value routing.ts) message)) := by
  unfold State.handleMessage
  by_cases hdisposed : s.disposed = true
  · exact .inl (if_pos hdisposed)
  rw [if_neg hdisposed]
  cases hsubject : channel.handleNatsMessage subject with
  | dropped => exact .inl rfl
  | register p => exact .inl rfl
  | plaintext p => exact .inl rfl
  | encrypted p =>
    dsimp only
    unfold State.handleEncryptedInbound
    cases hkey : s.peerSessionKeys.get p with
    | none => exact .inl rfl
    | some key =>
      dsimp only
      cases hopen : Agent.openEnvelope codec.numbers codec.ciphers codec.fromBase64Url payload key with
      | error _ => exact .inl rfl
      | ok opened =>
        obtain ⟨routing, message⟩ := opened
        dsimp only
        obtain heq | heq | ⟨hskew, hseen, heq⟩ :=
          acceptFreshInbound_cases s limits p routing.messageId (codec.value routing.ts) now
        · rw [heq]
          exact .inl rfl
        · rw [heq]
          exact .inr ⟨p, key, rfl, hkey, .inl rfl⟩
        · rw [heq]
          exact .inr ⟨p, key, rfl, hkey, .inr ⟨routing, message, hopen, hskew, hseen, rfl⟩⟩

/-- A fresh message. -/
theorem handleMessage_fresh {subject : JsString} {payload : Bytes} {now : Int} {key : Bytes}
    {routing : EnvelopeRouting ν} {message : Json ν} (hdisposed : s.disposed = false)
    (hsubject : channel.handleNatsMessage subject = .encrypted p) (hkey : s.peerSessionKeys.get p = some key)
    (hopen : Agent.openEnvelope codec.numbers codec.ciphers codec.fromBase64Url payload key = .ok (routing, message))
    (hskew : limits.replayWindowMs.lt (abs (skew now (codec.value routing.ts))) = false)
    (hseen : (s.window p).has routing.messageId = false) :
    s.handleMessage codec channel limits subject payload now =
      (s.withWindow p (remember limits (s.window p) routing.messageId (codec.value routing.ts)),
        .admitted p routing.messageId (codec.value routing.ts) message) := by
  have haccept : s.acceptFreshInbound limits p routing.messageId (codec.value routing.ts) now =
      (s.withWindow p (remember limits (s.window p) routing.messageId (codec.value routing.ts)), true) := by
    unfold State.acceptFreshInbound
    rw [if_neg (Bool.eq_false_iff.mp hskew)]
    exact if_neg (Bool.eq_false_iff.mp hseen)
  unfold State.handleMessage State.handleEncryptedInbound
  rw [if_neg (Bool.eq_false_iff.mp hdisposed), hsubject]
  dsimp only
  rw [hkey]
  dsimp only
  rw [hopen]
  dsimp only
  rw [haccept]

theorem Consistent.withWindow (h : Consistent channel limits initial s) (hpeer : s.peerSubscriptions.has p = true)
    (seen : OrderedMap JsString Rat) : Consistent channel limits initial (s.withWindow p seen) where
  keys := h.keys
  size := h.size
  windows := fun q hq => by
    unfold State.withWindow at hq
    rw [OrderedMap.has_set_eq, Bool.or_eq_true] at hq
    obtain hq | hq := hq
    · rw [of_decide_eq_true hq]
      exact hpeer
    · exact h.windows q hq
  subs := h.subs
  peerSid := h.peerSid
  injective := h.injective
  registerSid := h.registerSid
  disposed := h.disposed
  counter := h.counter

theorem Consistent.registered (h : Consistent channel limits initial s) {key : Bytes}
    (hkey : s.peerSessionKeys.get p = some key) : s.peerSubscriptions.has p = true := by
  rw [← h.keys, OrderedMap.has, hkey]
  rfl

theorem Consistent.handleMessage (h : Consistent channel limits initial s) (subject : JsString) (payload : Bytes)
    (now : Int) : Consistent channel limits initial (s.handleMessage codec channel limits subject payload now).1 := by
  obtain heq | ⟨p, key, -, hkey, heq | ⟨routing, message, -, -, -, heq⟩⟩ :=
    handleMessage_cases s codec channel limits subject payload now
  · rw [heq]
    exact h
  · rw [heq]
    exact h.withWindow (h.registered hkey) _
  · rw [heq]
    exact h.withWindow (h.registered hkey) _

omit [DecidableEq ν] in
/-- What a send can do. -/
theorem sendToPeer_cases (s : State) (codec : Codec ν) (channel : Nats.NatsChannel) (p : JsString) (payload : Json ν)
    (connected accepts : Bool) (id nonce : Bytes) (now : ν) :
    s.sendToPeer codec channel p payload connected accepts id nonce now = (s, .sent false) ∨
      ∃ key, s.disposed = false ∧ s.peerSessionKeys.get p = some key ∧
        s.sendToPeer codec channel p payload connected accepts id nonce now =
          ({ s with transport := { s.transport with published := s.transport.published ++ [(channel.outboundSubject p,
            Agent.sealEnvelope codec.numbers codec.ciphers ⟨channel.accountId, channel.tenant, p⟩ key payload
              (js "conversation") id nonce now)] } }, .sent true) := by
  unfold State.sendToPeer
  by_cases hoff : s.disposed = true ∨ connected = false
  · exact .inl (if_pos hoff)
  rw [if_neg hoff]
  cases hkey : s.peerSessionKeys.get p with
  | none => exact .inl rfl
  | some key =>
    cases accepts with
    | false => exact .inl rfl
    | true => exact .inr ⟨key, Bool.eq_false_iff.mpr fun hd => hoff (.inl hd), rfl, rfl⟩

omit [DecidableEq ν] in
theorem Consistent.sendToPeer (h : Consistent channel limits initial s) (p : JsString) (payload : Json ν)
    (connected accepts : Bool) (id nonce : Bytes) (now : ν) :
    Consistent channel limits initial (s.sendToPeer codec channel p payload connected accepts id nonce now).1 := by
  obtain heq | ⟨key, -, -, heq⟩ := sendToPeer_cases s codec channel p payload connected accepts id nonce now
  · rw [heq]
    exact h
  · rw [heq]
    exact ⟨h.keys, h.size, h.windows, h.subs, h.peerSid, h.injective, h.registerSid, h.disposed, h.counter⟩

/-- Every call keeps the registry consistent. -/
theorem Consistent.step (hinitial : initial.Numbered) (h : Consistent channel limits initial s) (a : Action ν) :
    Consistent channel limits initial (step codec channel limits s a).1 := by
  cases a with
  | registerPeer p key isOpen => exact h.registerPeer hinitial p key isOpen
  | unregisterPeer p => exact h.unregisterPeer hinitial p
  | subscribeRegister isOpen => exact h.subscribeRegister hinitial isOpen
  | disposeRegister sid => exact h.disposeRegister hinitial sid
  | message subject payload now => exact h.handleMessage subject payload now
  | sendToPeer p payload connected accepts id nonce now => exact h.sendToPeer p payload connected accepts id nonce now
  | dispose => exact h.dispose hinitial

theorem consistent_reached {ok : Run ν → Action ν → Prop} {clock : Int} {r : Run ν} (hinitial : initial.Numbered)
    (hr : ReachedBy (Run.step codec channel limits) ok (Run.start initial clock) r) :
    Consistent channel limits initial r.channel := by
  refine hr.invariant (I := fun r => Consistent channel limits initial r.channel) (consistent_start channel limits initial) ?_
  rintro r a r' h - ⟨⟩
  exact h.step hinitial a

end Steps

end Webchannel.Channel
