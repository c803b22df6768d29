import Webchannel.Channel.Peers
import Webchannel.Envelope.Agreement

/-!
# Registering peers

What holds of the registry in every run, of what it publishes, and of a registration that throws.
-/

namespace Webchannel.Channel

open Envelope Runs
open Ingress (Number)

variable {ν : Type} {channel : Nats.NatsChannel} {limits : NatsChannelLimits} {initial : NatsTransport} {s : State}
  {p q : JsString}

/-! ## Subjects -/

theorem outboundSubject_injective (h : channel.outboundSubject p = channel.outboundSubject q) : p = q :=
  List.append_cancel_left (List.append_cancel_right h)

theorem inboundSubject_injective (h : channel.inboundSubject p = channel.inboundSubject q) : p = q :=
  List.append_cancel_left (List.append_cancel_right h)

theorem inboundSubject_ne_registerWildcard (channel : Nats.NatsChannel) (p : JsString) :
    channel.inboundSubject p ≠ channel.registerWildcard := by
  intro h
  have hlast := congrArg List.getLast? h
  unfold Nats.NatsChannel.registerWildcard Nats.NatsChannel.registerSubject Nats.NatsChannel.inboundSubject at hlast
  rw [List.getLast?_append_of_ne_nil _ (by decide), List.getLast?_append_of_ne_nil _ (by decide)] at hlast
  exact absurd hlast (by decide)

/-! ## Keys -/

/-- The key of a registration of the peer that returned. -/
def registeredKey (p : JsString) : Action ν × Outcome ν → Option Bytes
  | (.registerPeer q (some key) _, .done) => if q = p then some key else none
  | _ => none

/-- What the key store returned at the latest registration of the peer. -/
def latestKey (p : JsString) (events : List (Action ν × Outcome ν)) : Option Bytes := events.findSome? (registeredKey p)

variable [DecidableEq ν] {codec : Codec ν}

/-- A key is the one it was, or the one of this registration. -/
theorem step_key (hinitial : initial.Numbered) (h : Consistent channel limits initial s) (a : Action ν) {key : Bytes}
    (hkey : (step codec channel limits s a).1.peerSessionKeys.get p = some key) :
    registeredKey p (a, (step codec channel limits s a).2) = some key ∨
      registeredKey p (a, (step codec channel limits s a).2) = none ∧ s.peerSessionKeys.get p = some key := by
  cases a with
  | unregisterPeer q =>
    unfold step at hkey
    dsimp only at hkey
    rw [(unregisterPeer_frame h q).1] at hkey
    exact .inr ⟨rfl, OrderedMap.get_of_get_delete hkey⟩
  | subscribeRegister isOpen => exact .inr ⟨rfl, (subscribeRegister_samePeers s channel isOpen).keys ▸ hkey⟩
  | disposeRegister sid => exact .inr ⟨rfl, (disposeRegister_samePeers s sid).keys ▸ hkey⟩
  | message subject payload now =>
    refine .inr ⟨rfl, ?_⟩
    unfold step at hkey
    dsimp only at hkey
    obtain heq | ⟨p', key', -, -, heq | ⟨routing, message, -, -, -, heq⟩⟩ :=
      handleMessage_cases s codec channel limits subject payload now <;>
    · rw [heq] at hkey
      exact hkey
  | sendToPeer q payload connected accepts id nonce now =>
    refine .inr ⟨rfl, ?_⟩
    unfold step at hkey
    dsimp only at hkey
    obtain heq | ⟨key', -, -, heq⟩ := sendToPeer_cases s codec channel q payload connected accepts id nonce now <;>
    · rw [heq] at hkey
      exact hkey
  | dispose =>
    refine .inr ⟨rfl, ?_⟩
    unfold step State.dispose at hkey
    dsimp only at hkey
    split at hkey
    · exact hkey
    · cases hkey
  | registerPeer q k isOpen =>
    have hset (m : OrderedMap JsString Bytes) (k : Bytes) (hget : (m.set q k).get p = some key) (hm : m.get p = some key →
        s.peerSessionKeys.get p = some key) : registeredKey p ((.registerPeer q (some k) isOpen, .done) : Action ν × Outcome ν) = some key ∨
        registeredKey p ((.registerPeer q (some k) isOpen, .done) : Action ν × Outcome ν) = none ∧
          s.peerSessionKeys.get p = some key := by
      unfold registeredKey
      rw [OrderedMap.get_set_eq] at hget
      by_cases hq : q = p
      · rw [if_pos hq.symm] at hget
        exact .inl ((if_pos hq).trans hget)
      · rw [if_neg (Ne.symm hq)] at hget
        exact .inr ⟨if_neg hq, hm hget⟩
    have hthrew : registeredKey p ((.registerPeer q k isOpen, .threw) : Action ν × Outcome ν) = none := by
      unfold registeredKey
      cases k <;> rfl
    unfold step at hkey ⊢
    dsimp only at hkey ⊢
    obtain ⟨-, heq⟩ | ⟨k, -, rfl, ⟨-, heq⟩ | ⟨-, heq⟩⟩ := registerPeer_cases ν s channel limits q k isOpen
    · rw [heq] at hkey ⊢
      exact .inr ⟨hthrew, hkey⟩
    · rw [heq] at hkey ⊢
      exact hset _ k hkey id
    · have hevicted := evictPeers_frame hinitial limits.maxPeers s.peerSubscriptions.size h
      have hconsistent := evictPeers_consistent hinitial limits.maxPeers s.peerSubscriptions.size h
      have hold (hget : (State.evictPeers limits.maxPeers s.peerSubscriptions.size s).peerSessionKeys.get p = some key) :
          s.peerSessionKeys.get p = some key := by
        rw [← (hevicted.2.2.2 p (hconsistent.registered hget)).2]
        exact hget
      rw [heq] at hkey ⊢
      cases isOpen with
      | false => exact .inr ⟨hthrew, hold hkey⟩
      | true => exact hset _ k hkey hold

/-! ## Frames -/

variable (channel codec) in
/-- What a call published on the subject of a peer was sealed under its key. -/
def SealedPublications (s s' : State) : Prop :=
  ∃ frames, s'.transport.published = s.transport.published ++ frames ∧ ∀ frame ∈ frames, ∀ p,
    frame.1 = channel.outboundSubject p → s.disposed = false ∧ s.peerSubscriptions.has p = true ∧
      ∃ key payload id nonce now, s.peerSessionKeys.get p = some key ∧
        frame.2 = Agent.sealEnvelope codec.numbers codec.ciphers ⟨channel.accountId, channel.tenant, p⟩ key payload
          (js "conversation") id nonce now

omit [DecidableEq ν] in
theorem sealedPublications_of_eq {s s' : State} (h : s'.transport.published = s.transport.published) :
    SealedPublications channel codec s s' :=
  ⟨[], h.trans (List.append_nil _).symm, nofun⟩

theorem step_sealed (hinitial : initial.Numbered) (h : Consistent channel limits initial s) (a : Action ν) :
    SealedPublications channel codec s (step codec channel limits s a).1 := by
  cases a with
  | unregisterPeer q => exact sealedPublications_of_eq (unregisterPeer_frame h q).2.2.2.2.2
  | subscribeRegister isOpen => exact sealedPublications_of_eq (subscribeRegister_samePeers s channel isOpen).published
  | disposeRegister sid => exact sealedPublications_of_eq (disposeRegister_samePeers s sid).published
  | dispose => exact sealedPublications_of_eq (dispose_published s)
  | registerPeer q key isOpen =>
    refine sealedPublications_of_eq ?_
    have hevicted := (evictPeers_frame hinitial limits.maxPeers s.peerSubscriptions.size h).2.1
    unfold step
    dsimp only
    obtain ⟨-, heq⟩ | ⟨k, -, -, ⟨-, heq⟩ | ⟨-, heq⟩⟩ := registerPeer_cases ν s channel limits q key isOpen <;> rw [heq]
    cases isOpen <;> exact hevicted
  | message subject payload now =>
    refine sealedPublications_of_eq ?_
    unfold step
    dsimp only
    obtain heq | ⟨p', key', -, -, heq | ⟨routing, message, -, -, -, heq⟩⟩ :=
      handleMessage_cases s codec channel limits subject payload now <;> rw [heq] <;> rfl
  | sendToPeer q payload connected accepts id nonce now =>
    unfold step
    dsimp only
    obtain heq | ⟨key, hdisposed, hkey, heq⟩ := sendToPeer_cases s codec channel q payload connected accepts id nonce now
    · rw [heq]
      exact sealedPublications_of_eq rfl
    · rw [heq]
      refine ⟨_, rfl, fun frame hframe p hsubject => ?_⟩
      obtain rfl := List.mem_singleton.mp hframe
      obtain rfl := outboundSubject_injective hsubject
      exact ⟨hdisposed, h.registered hkey, key, payload, id, nonce, now, hkey, rfl⟩

/-! ## A call that throws -/

/-- The peers are as they were. -/
structure LeavesPeers (s s' : State) : Prop where
  subscriptions : s'.peerSubscriptions = s.peerSubscriptions
  keys : s'.peerSessionKeys = s.peerSessionKeys
  windows : s'.seenMessageIds = s.seenMessageIds
  live : s'.transport.subs = s.transport.subs

theorem LeavesPeers.refl (s : State) : LeavesPeers s s := ⟨rfl, rfl, rfl, rfl⟩

variable (limits) in
/-- A new peer comes when the registry is full, and the transport is not open: room is made for nobody. -/
def EvictsInVain (s : State) : Action ν → Prop
  | .registerPeer p key isOpen =>
    s.disposed = false ∧ key.isSome = true ∧ s.peerSubscriptions.has p = false ∧ isOpen = false ∧
      limits.maxPeers.le (.ofNat s.peerSubscriptions.size) = true
  | _ => False

theorem throw_leaves_iff (hinitial : initial.Numbered) (hmax : (Number.ofNat 1).le limits.maxPeers = true)
    (h : Consistent channel limits initial s) (a : Action ν) (hthrew : (step codec channel limits s a).2 = .threw) :
    LeavesPeers s (step codec channel limits s a).1 ↔ ¬ EvictsInVain limits s a := by
  have hsame {s' : State} (hs : s' = s) (hno : ¬ EvictsInVain limits s a) :
      LeavesPeers s s' ↔ ¬ EvictsInVain limits s a :=
    ⟨fun _ => hno, fun _ => hs ▸ .refl s⟩
  cases a with
  | unregisterPeer q => cases hthrew
  | disposeRegister sid => cases hthrew
  | dispose => cases hthrew
  | subscribeRegister isOpen =>
    refine hsame ?_ id
    unfold step State.subscribeRegister at hthrew ⊢
    dsimp only at hthrew ⊢
    by_cases hdisposed : s.disposed = true
    · rw [if_pos hdisposed]
    rw [if_neg hdisposed] at hthrew ⊢
    by_cases hregister : s.registerSid.isSome = true
    · rw [if_pos hregister]
    rw [if_neg hregister] at hthrew ⊢
    cases isOpen with
    | false => rfl
    | true => cases hthrew
  | message subject payload now =>
    unfold step at hthrew
    dsimp only at hthrew
    obtain heq | ⟨p', key', -, -, heq | ⟨routing, message, -, -, -, heq⟩⟩ :=
      handleMessage_cases s codec channel limits subject payload now <;>
    · rw [heq] at hthrew
      cases hthrew
  | sendToPeer q payload connected accepts id nonce now =>
    unfold step at hthrew
    dsimp only at hthrew
    obtain heq | ⟨key, -, -, heq⟩ := sendToPeer_cases s codec channel q payload connected accepts id nonce now <;>
    · rw [heq] at hthrew
      cases hthrew
  | registerPeer q key isOpen =>
    unfold step at hthrew ⊢
    dsimp only at hthrew ⊢
    obtain ⟨hno, heq⟩ | ⟨k, hdisposed, rfl, ⟨-, heq⟩ | ⟨hnew, heq⟩⟩ :=
      registerPeer_cases ν s channel limits q key isOpen
    · rw [heq]
      refine hsame rfl fun hvain => ?_
      obtain hdisposed | rfl := hno
      · exact absurd (hdisposed.symm.trans hvain.1) (by decide)
      · exact absurd hvain.2.1 (by decide)
    · rw [heq] at hthrew
      cases hthrew
    · rw [heq] at hthrew ⊢
      cases isOpen with
      | true => cases hthrew
      | false =>
        rw [if_neg (by decide)]
        constructor
        · rintro hleaves ⟨-, -, -, -, hfull⟩
          have hroom := evictPeers_room hmax s.peerSubscriptions.size h hinitial (Nat.le_refl _)
          rw [hleaves.subscriptions, hfull] at hroom
          cases hroom
        · intro hno
          have hroom : limits.maxPeers.le (.ofNat s.peerSubscriptions.size) = false :=
            Bool.eq_false_iff.mpr fun hfull => hno ⟨hdisposed, rfl, hnew, rfl, hfull⟩
          rw [evictPeers_of_room hroom]
          exact .refl s

/-! ## The law -/

variable (channel limits initial) in
/-- The registry of a channel with its history. -/
structure RegistryLaw (r : Run ν) : Prop where
  samePeers : ∀ p, r.channel.peerSubscriptions.has p = r.channel.peerSessionKeys.has p
  bounded : ∀ n : Nat, limits.maxPeers.le (.ofNat n) = true → r.channel.peerSubscriptions.size ≤ n
  own : ∀ p sid, r.channel.peerSubscriptions.get p = some sid →
    r.channel.transport.subs.get sid = some (channel.inboundSubject p)
  only : ∀ p sid, r.channel.transport.subs.get sid = some (channel.inboundSubject p) →
    initial.subs.get sid = some (channel.inboundSubject p) ∨ r.channel.peerSubscriptions.get p = some sid
  key : ∀ p key, r.channel.peerSessionKeys.get p = some key → latestKey p r.events = some key
  windows : ∀ p, r.channel.seenMessageIds.has p = true → r.channel.peerSubscriptions.has p = true

theorem latestKey_reached {ok : Run ν → Action ν → Prop} {clock : Int} {r : Run ν} (hinitial : initial.Numbered)
    (hr : ReachedBy (Run.step codec channel limits) ok (Run.start initial clock) r) {key : Bytes}
    (hkey : r.channel.peerSessionKeys.get p = some key) : latestKey p r.events = some key := by
  revert key
  refine hr.invariant (I := fun r => Consistent channel limits initial r.channel ∧ ∀ {key : Bytes},
    r.channel.peerSessionKeys.get p = some key → latestKey p r.events = some key)
    ⟨consistent_start channel limits initial, fun h => nomatch h⟩ ?_ |>.2
  rintro r a r' ⟨h, hlatest⟩ - ⟨⟩
  refine ⟨h.step hinitial a, fun {key} hkey => ?_⟩
  change latestKey p ((a, (step codec channel limits r.channel a).2) :: r.events) = some key
  unfold latestKey
  rw [List.findSome?_cons]
  obtain hnew | ⟨hnone, hold⟩ := step_key hinitial h a hkey
  · rw [hnew]
  · rw [hnone]
    exact hlatest hold

/-- In every run the registry is as it should be; every call publishes only what is sealed under the key of a registered
peer, and nothing when the channel is disposed; and a call that throws leaves all peers as they were, unless it made room
for a new peer that the transport then did not take. -/
theorem registry_verified (codec : Codec ν) (channel : Nats.NatsChannel) {limits : NatsChannelLimits}
    (hmax : (Number.ofNat 1).le limits.maxPeers = true) {initial : NatsTransport} (hinitial : initial.Numbered)
    {clock : Int} {r : Run ν} (hr : Reached (Run.step codec channel limits) (Run.start initial clock) r) :
    RegistryLaw channel limits initial r ∧ ∀ a : Action ν,
      SealedPublications channel codec r.channel (step codec channel limits r.channel a).1 ∧
      ((step codec channel limits r.channel a).2 = .threw →
        (LeavesPeers r.channel (step codec channel limits r.channel a).1 ↔ ¬ EvictsInVain limits r.channel a)) := by
  have h := consistent_reached hinitial hr
  refine ⟨⟨fun p => (h.keys p).symm, h.size hmax, ?_, ?_, ?_, h.windows⟩, fun a => ⟨step_sealed hinitial h a, ?_⟩⟩
  · exact fun p sid hp => (h.subs sid _).mpr (.inr (.inr ⟨p, hp, rfl⟩))
  · intro p sid hsid
    obtain hold | ⟨-, hwild⟩ | ⟨q, hq, hsubject⟩ := (h.subs sid _).mp hsid
    · exact .inl hold
    · exact absurd hwild (inboundSubject_ne_registerWildcard channel p)
    · obtain rfl := inboundSubject_injective hsubject
      exact .inr hq
  · exact fun p key hkey => latestKey_reached hinitial hr hkey
  · exact throw_leaves_iff hinitial hmax h a

/-! ### One peer -/

def agentCodec : Codec Nat := ⟨naturalNumbers, rfcCiphers, bufferOfBase64Url, fun n => n⟩

def defaultChannel : Nats.NatsChannel := ⟨js "acme", js "default", true, true⟩

def onePeer : NatsChannelLimits := { maxPeers := .ofNat 1 }

/-- Alice is registered. -/
def withAlice (limits : NatsChannelLimits) : Run Nat :=
  (Run.step agentCodec defaultChannel limits (Run.start {} 0) (.registerPeer (js "alice") (some key32) true)).getD
    (Run.start {} 0)

theorem withAlice_step (limits : NatsChannelLimits) :
    Run.step agentCodec defaultChannel limits (Run.start {} 0) (.registerPeer (js "alice") (some key32) true) =
      some (withAlice limits) := rfl

theorem registry_verified_alice :
    (step agentCodec defaultChannel onePeer (withAlice onePeer).channel (.registerPeer (js "bob") none false)).2 = .threw ∧
      LeavesPeers (withAlice onePeer).channel
        (step agentCodec defaultChannel onePeer (withAlice onePeer).channel (.registerPeer (js "bob") none false)).1 := by
  refine ⟨rfl, ?_⟩
  have hverified := registry_verified agentCodec defaultChannel (by decide) numbered_empty
    (Reached.start.step (withAlice_step onePeer))
  exact ((hverified.2 (.registerPeer (js "bob") none false)).2 rfl).mpr fun hvain => absurd hvain.2.1 (by decide)

/-- Bob's registration throws, and Alice is gone. -/
theorem registry_evicts_alice :
    Reached (Run.step agentCodec defaultChannel onePeer) (Run.start {} 0) (withAlice onePeer) ∧
    (withAlice onePeer).channel.peerSubscriptions.has (js "alice") = true ∧
    (step agentCodec defaultChannel onePeer (withAlice onePeer).channel (.registerPeer (js "bob") (some key32) false)).2 =
      .threw ∧
    (step agentCodec defaultChannel onePeer (withAlice onePeer).channel
      (.registerPeer (js "bob") (some key32) false)).1.peerSubscriptions.has (js "alice") = false :=
  ⟨Reached.start.step (withAlice_step onePeer), rfl, rfl, rfl⟩

end Webchannel.Channel
