import Mathlib.Tactic.Linarith
import Webchannel.Channel.Law

/-!
# Replays

A message that went on for a registered peer goes on a second time only when its id has been forgotten before the window
of its `ts` closed.
-/

namespace Webchannel.Channel

open Envelope Runs
open Ingress (Number)

/-! ## Clocks -/

theorem le_infinity {a : Number} (h : a ≠ .nan) : a.le .infinity = true := by
  cases a with
  | nan => exact absurd rfl h
  | negInfinity => rfl
  | infinity => rfl
  | finite q => rfl

theorem finite_le_finite {p q : Rat} (h : p ≤ q) : (Number.finite p).le (.finite q) = true :=
  Number.le_of_not_lt nofun nofun (decide_eq_false (not_lt.mpr h))

theorem lt_of_lt_of_le {a b c : Number} (hab : a.lt b = true) (hbc : b.le c = true) : a.lt c = true := by
  cases hac : a.lt c with
  | true => rfl
  | false =>
    have hnan : a ≠ .nan ∧ c ≠ .nan := by
      constructor <;> rintro rfl
      · cases hab
      · cases b <;> cases hbc
    have hba := Number.le_trans hbc (Number.le_of_not_lt hnan.1 hnan.2 hac)
    rw [Number.not_lt_of_le hba] at hab
    cases hab

theorem ofDouble_ne_nan (d : Double) : ofDouble d ≠ .nan := by
  unfold ofDouble
  split <;> nofun

/-- A negative number is rounded to no positive one. -/
theorem toDouble_nonpos {q : Rat} (h : q ≤ 0) : (ofDouble (toDouble q)).le (.finite 0) = true := by
  unfold toDouble
  split
  · exact finite_le_finite (roundDouble_nonpos h)
  · rename_i hlarge
    have hneg : q < 0 := by
      refine h.lt_of_ne fun hzero => hlarge ?_
      rw [hzero, show roundDouble 0 = 0 from le_antisymm (roundDouble_nonpos le_rfl) (roundDouble_nonneg le_rfl)]
      norm_num
    unfold ofDouble
    rw [decide_eq_true hneg]
    rfl

theorem zero_le_abs {a : Number} (h : a ≠ .nan) : (Number.finite 0).le (abs a) = true := by
  cases a with
  | nan => exact absurd rfl h
  | negInfinity => rfl
  | infinity => rfl
  | finite q => exact finite_le_finite (abs_nonneg q)

theorem le_abs {a : Number} (h : a ≠ .nan) : a.le (abs a) = true := by
  cases a with
  | nan => exact absurd rfl h
  | negInfinity => rfl
  | infinity => rfl
  | finite q => exact finite_le_finite (le_abs_self q)

theorem toDouble_mono {p q : Rat} (hp : 0 ≤ p) (h : p ≤ q) : (ofDouble (toDouble p)).le (ofDouble (toDouble q)) = true := by
  have hmono := roundDouble_mono hp h
  by_cases hq : |roundDouble q| < 2 ^ 1024
  · have hp' : |roundDouble p| < 2 ^ 1024 := by
      rw [abs_of_nonneg (roundDouble_nonneg hp)]
      rw [abs_of_nonneg (roundDouble_nonneg (hp.trans h))] at hq
      exact hmono.trans_lt hq
    unfold toDouble
    rw [dif_pos hq, dif_pos hp']
    exact finite_le_finite hmono
  · have hinfinite : ofDouble (toDouble q) = .infinity := by
      unfold toDouble ofDouble
      rw [dif_neg hq, decide_eq_false (not_lt.mpr (hp.trans h))]
    rw [hinfinite]
    exact le_infinity (ofDouble_ne_nan _)

theorem skew_le_abs {now now' : Int} (h : now ≤ now') (ts : Rat) : (skew now ts).le (abs (skew now' ts)) = true := by
  have hcast : (now : Rat) - ts ≤ now' - ts := by
    have : (now : Rat) ≤ now' := by exact_mod_cast h
    linarith
  unfold skew
  obtain hneg | hpos := le_total ((now : Rat) - ts) 0
  · exact Number.le_trans (toDouble_nonpos hneg) (zero_le_abs (ofDouble_ne_nan _))
  · exact Number.le_trans (toDouble_mono hpos hcast) (le_abs (ofDouble_ne_nan _))

/-- What is older than the window stays outside it. -/
theorem old_rejected {window : Number} {now now' : Int} {ts : Rat} (hold : window.lt (skew now ts) = true)
    (h : now ≤ now') : window.lt (abs (skew now' ts)) = true :=
  lt_of_lt_of_le hold (skew_le_abs h ts)

/-! ## The window of a peer -/

section Window

variable {limits : NatsChannelLimits} {seen : OrderedMap JsString Rat} {id : JsString}

theorem empty_fits (hone : limits.maxSeenMessageIdsPerPeer.lt (.ofNat 1) = false) :
    limits.maxSeenMessageIdsPerPeer.lt (.ofNat 0) = false :=
  Bool.eq_false_iff.mpr fun hlt => Bool.eq_false_iff.mp hone (lt_of_lt_of_le hlt (Number.ofNat_le (Nat.zero_le 1)))

theorem trimSeen_of_fits (hfits : limits.maxSeenMessageIdsPerPeer.lt (.ofNat seen.size) = false) (turns : Nat) :
    State.trimSeen limits.maxSeenMessageIdsPerPeer turns seen = seen := by
  cases turns with
  | zero => rfl
  | succ turns =>
    unfold State.trimSeen
    rw [hfits]
    rfl

theorem size_set_new (hnew : seen.has id = false) (ts : Rat) : (seen.set id ts).size = seen.size + 1 := by
  rw [← OrderedMap.length_keys, OrderedMap.keys_set_of_not_has _ hnew, List.length_append, OrderedMap.length_keys]
  rfl

theorem get_of_head? {k : JsString} {t : Rat} (h : seen.entries.head? = some (k, t)) : seen.get k = some t :=
  OrderedMap.mem_entries.mp (List.mem_of_mem_head? h)

/-- One more id drops at most the oldest one, and that only when there are too many. -/
theorem remember_spec (hone : limits.maxSeenMessageIdsPerPeer.lt (.ofNat 1) = false)
    (hfits : limits.maxSeenMessageIdsPerPeer.lt (.ofNat seen.size) = false) (hnew : seen.has id = false) (ts : Rat) :
    limits.maxSeenMessageIdsPerPeer.lt (.ofNat (remember limits seen id ts).size) = false ∧
      ∀ k t, (seen.set id ts).get k = some t → (remember limits seen id ts).get k = some t ∨
        limits.maxSeenMessageIdsPerPeer.lt (.ofNat (seen.size + 1)) = true ∧ seen.entries.head? = some (k, t) := by
  have hsize := size_set_new hnew ts
  unfold remember
  cases hlt : limits.maxSeenMessageIdsPerPeer.lt (.ofNat (seen.size + 1)) with
  | false =>
    rw [← hsize] at hlt
    rw [trimSeen_of_fits hlt]
    exact ⟨hlt, fun k t hk => .inl hk⟩
  | true =>
    cases hentries : seen.entries with
    | nil =>
      have hzero : seen.size = 0 := congrArg List.length hentries
      rw [hzero, hone] at hlt
      cases hlt
    | cons first rest =>
      have hkeys : (seen.set id ts).keys = first.1 :: (rest.map Prod.fst ++ [id]) := by
        rw [OrderedMap.keys_set_of_not_has _ hnew, OrderedMap.keys, hentries]
        rfl
      have hsmall : ((seen.set id ts).delete first.1).size = seen.size := by
        have hlength : (seen.set id ts).keys.length = seen.size + 1 := (OrderedMap.length_keys _).trans hsize
        rw [hkeys, List.length_cons] at hlength
        rw [← OrderedMap.length_keys, OrderedMap.keys_delete_oldest hkeys]
        omega
      have htrim : State.trimSeen limits.maxSeenMessageIdsPerPeer (seen.set id ts).size (seen.set id ts) =
          (seen.set id ts).delete first.1 := by
        rw [hsize]
        unfold State.trimSeen
        rw [hsize, hlt, hkeys]
        exact trimSeen_of_fits (hsmall ▸ hfits) seen.size
      rw [htrim, hsmall]
      refine ⟨hfits, fun k t hk => ?_⟩
      rw [OrderedMap.get_delete_eq]
      by_cases hfirst : k = first.1
      · have hhead : seen.get first.1 = some first.2 := get_of_head? (congrArg List.head? hentries)
        have hne : first.1 ≠ id := by
          rintro rfl
          rw [OrderedMap.has, hhead] at hnew
          cases hnew
        rw [hfirst, OrderedMap.get_set_of_ne _ _ hne, hhead] at hk
        right
        rw [hfirst, ← Option.some.inj hk]
        exact ⟨rfl, rfl⟩
      · rw [if_neg hfirst]
        exact .inl hk

end Window

/-! ## Runs -/

variable {ν : Type} [DecidableEq ν] {codec : Codec ν} {channel : Nats.NatsChannel} {limits : NatsChannelLimits}
  {initial : NatsTransport} {s : State} {p : JsString}

theorem window_withWindow (s : State) (p q : JsString) (seen : OrderedMap JsString Rat) :
    (s.withWindow p seen).window q = if q = p then seen else s.window q := by
  unfold State.window State.withWindow
  rw [OrderedMap.get_set_eq]
  split <;> rfl

/-- The replay windows of the peers that are left after a call. -/
theorem step_windows (hinitial : initial.Numbered) (h : Consistent channel limits initial s) {a : Action ν}
    (ha : ∀ subject payload now, a ≠ .message subject payload now)
    (hp : (step codec channel limits s a).1.peerSubscriptions.has p = true) :
    (step codec channel limits s a).1.seenMessageIds.get p = s.seenMessageIds.get p := by
  cases a with
  | message subject payload now => exact absurd rfl (ha subject payload now)
  | unregisterPeer q =>
    unfold step at hp ⊢
    dsimp only at hp ⊢
    rw [unregisterPeer_subscriptions h, OrderedMap.has_delete_eq, Bool.and_eq_true] at hp
    rw [(unregisterPeer_frame h q).2.1]
    exact OrderedMap.get_delete_of_ne _ (of_decide_eq_true hp.1)
  | subscribeRegister isOpen => exact congrArg (OrderedMap.get · p) (subscribeRegister_samePeers s channel isOpen).windows
  | disposeRegister sid => exact congrArg (OrderedMap.get · p) (disposeRegister_samePeers s sid).windows
  | dispose =>
    unfold step State.dispose at hp ⊢
    dsimp only at hp ⊢
    by_cases hdisposed : s.disposed = true
    · rw [if_pos hdisposed]
    · rw [if_neg hdisposed] at hp
      cases hp
  | sendToPeer q payload connected accepts id nonce now =>
    unfold step
    dsimp only
    obtain heq | ⟨key, -, -, heq⟩ := sendToPeer_cases s codec channel q payload connected accepts id nonce now <;> rw [heq]
  | registerPeer q key isOpen =>
    unfold step at hp ⊢
    dsimp only at hp ⊢
    have hevicted := evictPeers_consistent hinitial limits.maxPeers s.peerSubscriptions.size h
    obtain ⟨-, -, hout, hin⟩ := evictPeers_frame hinitial limits.maxPeers s.peerSubscriptions.size h
    obtain ⟨-, heq⟩ | ⟨k, -, -, ⟨-, heq⟩ | ⟨hnew, heq⟩⟩ := registerPeer_cases ν s channel limits q key isOpen
    · rw [heq]
    · rw [heq]
    · rw [heq] at hp ⊢
      cases isOpen with
      | false => exact (hin p hp).1
      | true =>
        unfold State.subscribed at hp
        rw [if_pos rfl, OrderedMap.has_set_eq, Bool.or_eq_true] at hp
        obtain hp | hp := hp
        -- The new peer has no window, before or after.
        · have hnone {s' : State} (h' : Consistent channel limits initial s') (hq : s'.peerSubscriptions.has q = false) :
              s'.seenMessageIds.get q = none := by
            refine OrderedMap.has_eq_false_iff.mp (Bool.eq_false_iff.mpr fun hseen => ?_)
            rw [h'.windows q hseen] at hq
            cases hq
          rw [of_decide_eq_true hp, hnone h hnew]
          have hstill := hnone hevicted (hout q hnew)
          exact hstill
        · exact (hin p hp).1

theorem step_admission (codec : Codec ν) (channel : Nats.NatsChannel) (limits : NatsChannelLimits) (s : State) {a : Action ν}
    (ha : ∀ subject payload now, a ≠ .message subject payload now) :
    Run.admission (step codec channel limits s a).2 = [] := by
  cases a with
  | message subject payload now => exact absurd rfl (ha subject payload now)
  | unregisterPeer q => rfl
  | disposeRegister sid => rfl
  | dispose => rfl
  | subscribeRegister isOpen =>
    unfold step State.subscribeRegister
    dsimp only
    by_cases hdisposed : s.disposed = true
    · rw [if_pos hdisposed]
      rfl
    rw [if_neg hdisposed]
    by_cases hregister : s.registerSid.isSome = true
    · rw [if_pos hregister]
      rfl
    rw [if_neg hregister]
    cases isOpen <;> rfl
  | sendToPeer q payload connected accepts id nonce now =>
    unfold step
    dsimp only
    obtain heq | ⟨key, -, -, heq⟩ := sendToPeer_cases s codec channel q payload connected accepts id nonce now <;>
      rw [heq] <;> rfl
  | registerPeer q key isOpen =>
    unfold step
    dsimp only
    obtain ⟨-, heq⟩ | ⟨k, -, -, ⟨-, heq⟩ | ⟨-, heq⟩⟩ := registerPeer_cases ν s channel limits q key isOpen <;> rw [heq]
    · rfl
    · rfl
    · cases isOpen <;> rfl

/-- The clock does not go back. -/
def InOrder (r : Run ν) (a : Action ν) : Prop := r.clock ≤ Run.reading r.clock a

variable (codec channel limits) in
/-- Where a fresh message is one more than the window of its peer may hold, the oldest id of the window is older than
`replayWindowMs`. -/
def Covered (r : Run ν) : Action ν → Prop
  | .message subject payload now => ∀ p key routing message,
    channel.handleNatsMessage subject = .encrypted p → r.channel.peerSessionKeys.get p = some key →
    Agent.openEnvelope codec.numbers codec.ciphers codec.fromBase64Url payload key = .ok (routing, message) →
    limits.replayWindowMs.lt (abs (skew now (codec.value routing.ts))) = false →
    (r.channel.window p).has routing.messageId = false →
    limits.maxSeenMessageIdsPerPeer.lt (.ofNat ((r.channel.window p).size + 1)) = true →
    ∀ oldest, (r.channel.window p).entries.head? = some oldest → limits.replayWindowMs.lt (skew now oldest.2) = true
  | _ => True

variable (limits) in
/-- The window of the peer has the id, or no clock reading to come lets the message through. -/
def Refused (s : State) (clock : Int) (e : JsString × JsString × Rat) : Prop :=
  (s.window e.1).get e.2.1 = some e.2.2 ∨ ∀ now, clock ≤ now → limits.replayWindowMs.lt (abs (skew now e.2.2)) = true

variable (channel limits initial) in
structure Remembered (r : Run ν) : Prop where
  consistent : Consistent channel limits initial r.channel
  fits : ∀ p, limits.maxSeenMessageIdsPerPeer.lt (.ofNat (r.channel.window p).size) = false
  refused : ∀ e ∈ r.admitted, Refused limits r.channel r.clock e
  once : r.admitted.Nodup

theorem Refused.later {s' : State} {clock clock' : Int} {e : JsString × JsString × Rat} (h : Refused limits s clock e)
    (hclock : clock ≤ clock') (hwindow : (s'.window e.1).get e.2.1 = (s.window e.1).get e.2.1) :
    Refused limits s' clock' e :=
  h.imp hwindow.trans fun hold now hnow => hold now (hclock.trans hnow)

omit [DecidableEq ν] in
/-- A step that admits nothing and keeps the windows of the peers that are left. -/
theorem Remembered.keep {r r' : Run ν} (hone : limits.maxSeenMessageIdsPerPeer.lt (.ofNat 1) = false)
    (h : Remembered channel limits initial r) (hconsistent : Consistent channel limits initial r'.channel)
    (hclock : r.clock ≤ r'.clock)
    (hadmitted : r'.admitted = r.admitted.filter fun e => r'.channel.peerSubscriptions.has e.1)
    (hwindows : ∀ p, r'.channel.peerSubscriptions.has p = true → r'.channel.window p = r.channel.window p) :
    Remembered channel limits initial r' where
  consistent := hconsistent
  fits := fun p => by
    cases hp : r'.channel.peerSubscriptions.has p with
    | true =>
      rw [hwindows p hp]
      exact h.fits p
    | false =>
      have hnone : r'.channel.seenMessageIds.has p = false := by
        refine Bool.eq_false_iff.mpr fun hseen => ?_
        rw [hconsistent.windows p hseen] at hp
        cases hp
      unfold State.window
      rw [OrderedMap.has_eq_false_iff.mp hnone]
      exact empty_fits hone
  refused := fun e he => by
    rw [hadmitted] at he
    obtain ⟨hmem, hp⟩ := List.mem_filter.mp he
    exact (h.refused e hmem).later hclock (by rw [hwindows e.1 hp])
  once := by
    rw [hadmitted]
    exact h.once.filter _

omit [DecidableEq ν] in
/-- A fresh message, whose id the window takes. -/
theorem Remembered.admit {r : Run ν} {now : Int} {id : JsString} {ts : Rat}
    (hone : limits.maxSeenMessageIdsPerPeer.lt (.ofNat 1) = false) (h : Remembered channel limits initial r)
    (hpeer : r.channel.peerSubscriptions.has p = true) (hclock : r.clock ≤ now)
    (hskew : limits.replayWindowMs.lt (abs (skew now ts)) = false) (hnew : (r.channel.window p).has id = false)
    (hcovered : limits.maxSeenMessageIdsPerPeer.lt (.ofNat ((r.channel.window p).size + 1)) = true →
      ∀ oldest, (r.channel.window p).entries.head? = some oldest → limits.replayWindowMs.lt (skew now oldest.2) = true)
    (events : List (Action ν × Outcome ν)) :
    Remembered channel limits initial
      ⟨r.channel.withWindow p (remember limits (r.channel.window p) id ts), now, events, (p, id, ts) :: r.admitted⟩ := by
  obtain ⟨hfits, hget⟩ := remember_spec hone (h.fits p) hnew ts
  have hwindow (q : JsString) := window_withWindow r.channel p q (remember limits (r.channel.window p) id ts)
  -- What leaves the window is older than it.
  have hkept {k : JsString} {t : Rat} (hk : ((r.channel.window p).set id ts).get k = some t) :
      Refused limits (r.channel.withWindow p (remember limits (r.channel.window p) id ts)) now (p, k, t) := by
    obtain hk | ⟨hfull, hhead⟩ := hget k t hk
    · left
      rw [hwindow, if_pos rfl]
      exact hk
    · exact .inr fun now' hnow => old_rejected (hcovered hfull _ hhead) hnow
  refine ⟨h.consistent.withWindow hpeer _, fun q => ?_, List.forall_mem_cons.mpr ⟨?_, ?_⟩, List.nodup_cons.mpr ⟨?_, h.once⟩⟩
  · dsimp only
    rw [hwindow]
    split
    · exact hfits
    · exact h.fits q
  · exact hkept (OrderedMap.get_set_self _ _ _)
  · rintro ⟨q, k, t⟩ he
    obtain hk | hold := h.refused _ he
    · by_cases hq : q = p
      · subst hq
        refine hkept ?_
        have hne : k ≠ id := by
          rintro rfl
          rw [OrderedMap.has, hk] at hnew
          cases hnew
        rw [OrderedMap.get_set_of_ne _ _ hne]
        exact hk
      · left
        rw [hwindow, if_neg hq]
        exact hk
    · exact .inr fun now' hnow => hold now' (hclock.trans hnow)
  · intro hmem
    obtain hk | hold := h.refused _ hmem
    · rw [OrderedMap.has, hk] at hnew
      cases hnew
    · rw [hold now hclock] at hskew
      cases hskew

theorem run_step_of {r r' : Run ν} {a : Action ν} {s' : State} {outcome : Outcome ν}
    (h : step codec channel limits r.channel a = (s', outcome)) (hstep : Run.step codec channel limits r a = some r') :
    r' = ⟨s', Run.reading r.clock a, (a, outcome) :: r.events,
      (Run.admission outcome ++ r.admitted).filter fun e => s'.peerSubscriptions.has e.1⟩ := by
  unfold Run.step at hstep
  rw [h] at hstep
  exact (Option.some.inj hstep).symm

theorem Remembered.step {r r' : Run ν} (hinitial : initial.Numbered)
    (hone : limits.maxSeenMessageIdsPerPeer.lt (.ofNat 1) = false) (h : Remembered channel limits initial r) {a : Action ν}
    (horder : InOrder r a) (hcovered : Covered codec channel limits r a)
    (hstep : Run.step codec channel limits r a = some r') : Remembered channel limits initial r' := by
  by_cases ha : ∃ subject payload now, a = .message subject payload now
  · obtain ⟨subject, payload, now, rfl⟩ := ha
    obtain heq | ⟨p, key, hsubject, hkey, heq | ⟨routing, message, hopen, hskew, hnew, heq⟩⟩ :=
      handleMessage_cases r.channel codec channel limits subject payload now
    · obtain rfl := run_step_of (a := .message subject payload now) heq hstep
      exact h.keep hone h.consistent horder rfl fun _ _ => rfl
    · obtain rfl := run_step_of (a := .message subject payload now) heq hstep
      refine h.keep hone (h.consistent.withWindow (h.consistent.registered hkey) _) horder rfl fun q _ => ?_
      refine (window_withWindow r.channel p q _).trans ?_
      split
      · rename_i hq
        rw [hq]
      · rfl
    · obtain rfl := run_step_of (a := .message subject payload now) heq hstep
      have hwent := h.admit hone (h.consistent.registered hkey) horder hskew hnew
        (hcovered p key routing message hsubject hkey hopen hskew hnew)
        ((.message subject payload now, .admitted p routing.messageId (codec.value routing.ts) message) :: r.events)
      refine ⟨hwent.consistent, hwent.fits, fun e he => hwent.refused e (List.mem_filter.mp he).1, ?_⟩
      exact List.Nodup.filter _ hwent.once
  · have hother : ∀ subject payload now, a ≠ .message subject payload now :=
      fun subject payload now heq => ha ⟨subject, payload, now, heq⟩
    have hnone := step_admission codec channel limits r.channel hother
    obtain rfl := run_step_of (Prod.mk.eta.symm) hstep
    refine h.keep hone (h.consistent.step hinitial a) horder ?_ fun p hp => ?_
    · dsimp only
      rw [hnone, List.nil_append]
    · unfold State.window
      exact congrArg (·.getD .empty) (step_windows hinitial h.consistent hother hp)

/-- A channel on whose runs the clock does not go back, and whose peers have their oldest id forgotten only when it is
older than the window: no message goes on twice for a peer that stays registered. -/
theorem admitted_once (codec : Codec ν) (channel : Nats.NatsChannel) {limits : NatsChannelLimits}
    (hmax : (Number.ofNat 1).le limits.maxSeenMessageIdsPerPeer = true) {initial : NatsTransport}
    (hinitial : initial.Numbered) {clock : Int} {r : Run ν}
    (hr : ReachedBy (Run.step codec channel limits) (fun r a => InOrder r a ∧ Covered codec channel limits r a)
      (Run.start initial clock) r) : r.admitted.Nodup := by
  have hone := Number.not_lt_of_le hmax
  refine (hr.invariant (I := Remembered channel limits initial) ⟨consistent_start channel limits initial, ?_, nofun,
    List.nodup_nil⟩ fun r a r' h hok hstep => h.step hinitial hone hok.1 hok.2 hstep).once
  exact fun _ => empty_fits hone

/-! ### A window of one id -/

def oneId : NatsChannelLimits := { maxSeenMessageIdsPerPeer := .ofNat 1 }

/-- What Alice's browser sends at time zero, with an id of its own. -/
def frame (id : Bytes) : Bytes :=
  encodeUtf8 (Browser.sealMessage naturalNumbers rfcCiphers alice key32 (.str (js "hi")) (js "conversation") id nonce12 0)

theorem open_frame {id : Bytes} (hid : id.length = 8) :
    Agent.openEnvelope agentCodec.numbers agentCodec.ciphers agentCodec.fromBase64Url (frame id) key32 =
      .ok (Agent.fullRouting alice (js "conversation") id 0, .str (js "hi")) := by
  have hfull : (Agent.fullRouting alice (js "conversation") id (0 : Nat)).NonEmpty := fullRouting_nonEmpty 0 (by decide)
    (by decide) (by decide) (by decide) hid
  exact (open_sealMessage rfcCiphers_correct bufferOfBase64Url_base64url rfl rfl (.str (js "hi")) 0 hfull).1

theorem skew_zero : skew 0 ((0 : Nat) : Rat) = .finite 0 := by
  have hzero := toDouble_intCast (n := 0) (by decide)
  unfold skew ofDouble
  rw [show (((0 : Int) : Rat) - ((0 : Nat) : Rat)) = ((0 : Int) : Rat) by simp, hzero]
  rfl

/-- Alice's channel receives a frame of hers at time zero. -/
def delivered (r : Run Nat) (id : Bytes) : Run Nat :=
  (Run.step agentCodec defaultChannel oneId r (.message (defaultChannel.inboundSubject (js "alice")) (frame id) 0)).getD r

theorem delivered_step (r : Run Nat) (id : Bytes) :
    Run.step agentCodec defaultChannel oneId r (.message (defaultChannel.inboundSubject (js "alice")) (frame id) 0) =
      some (delivered r id) := rfl

theorem delivered_fresh {r : Run Nat} (id : Bytes) (hid : id.length = 8) (hdisposed : r.channel.disposed = false)
    (hkey : r.channel.peerSessionKeys.get (js "alice") = some key32)
    (hnew : (r.channel.window (js "alice")).has (Agent.hex id) = false) :
    (delivered r id).channel = r.channel.withWindow (js "alice")
        (remember oneId (r.channel.window (js "alice")) (Agent.hex id) 0) ∧
      (delivered r id).clock = 0 ∧
      (delivered r id).admitted = ((js "alice", Agent.hex id, 0) :: r.admitted).filter fun e =>
        r.channel.peerSubscriptions.has e.1 := by
  have hsubject : defaultChannel.handleNatsMessage (defaultChannel.inboundSubject (js "alice")) = .encrypted (js "alice") := by
    decide
  have hskew : oneId.replayWindowMs.lt (abs (skew 0 ((0 : Nat) : Rat))) = false := by
    rw [skew_zero]
    decide
  have hfresh : step agentCodec defaultChannel oneId r.channel
      (.message (defaultChannel.inboundSubject (js "alice")) (frame id) 0) = _ :=
    handleMessage_fresh hdisposed hsubject hkey (open_frame hid) hskew hnew
  rw [run_step_of hfresh (delivered_step r id)]
  exact ⟨rfl, rfl, rfl⟩

def idA : Bytes := List.replicate 8 1

def idB : Bytes := List.replicate 8 2

theorem admitted_once_alice : (delivered (withAlice oneId) idA).admitted.Nodup := by
  have hstart : ReachedBy (Run.step agentCodec defaultChannel oneId)
      (fun r a => InOrder r a ∧ Covered agentCodec defaultChannel oneId r a) (Run.start {} 0) (withAlice oneId) :=
    ReachedBy.start.step (a := .registerPeer (js "alice") (some key32) true) ⟨Int.le_refl 0, trivial⟩ (withAlice_step oneId)
  refine admitted_once agentCodec defaultChannel (by decide) numbered_empty
    (ReachedBy.step hstart ?_ (delivered_step (withAlice oneId) idA))
  refine ⟨Int.le_refl 0, ?_⟩
  -- The first id finds the window empty.
  intro p key routing message _ hkey _ _ _ _ oldest hoff
  cases hoff

/-- Alice's first frame goes on again after her second one, at the same time. -/
theorem replay_admitted : ∃ r, ReachedBy (Run.step agentCodec defaultChannel oneId) InOrder (Run.start {} 0) r ∧
    r.admitted = [(js "alice", Agent.hex idA, 0), (js "alice", Agent.hex idB, 0), (js "alice", Agent.hex idA, 0)] ∧
    ¬ r.admitted.Nodup := by
  obtain ⟨ha, hta, hla⟩ := delivered_fresh (r := withAlice oneId) idA rfl rfl rfl rfl
  obtain ⟨hb, htb, hlb⟩ := delivered_fresh (r := delivered (withAlice oneId) idA) idB rfl (by rw [ha]; rfl)
    (by rw [ha]; rfl) (by rw [ha]; decide)
  obtain ⟨hc, htc, hlc⟩ := delivered_fresh (r := delivered (delivered (withAlice oneId) idA) idB) idA rfl
    (by rw [hb, ha]; rfl) (by rw [hb, ha]; rfl) (by rw [hb, ha]; decide)
  have hadmitted : (delivered (delivered (delivered (withAlice oneId) idA) idB) idA).admitted =
      [(js "alice", Agent.hex idA, 0), (js "alice", Agent.hex idB, 0), (js "alice", Agent.hex idA, 0)] := by
    rw [hlc, hlb, hla, hb, ha]
    decide
  refine ⟨delivered (delivered (delivered (withAlice oneId) idA) idB) idA, ?_, hadmitted, ?_⟩
  · have hstart : ReachedBy (Run.step agentCodec defaultChannel oneId) InOrder (Run.start {} 0) (withAlice oneId) :=
      ReachedBy.start.step (a := .registerPeer (js "alice") (some key32) true) (Int.le_refl 0) (withAlice_step oneId)
    refine ReachedBy.step (ReachedBy.step (ReachedBy.step hstart ?_ (delivered_step _ idA)) ?_ (delivered_step _ idB)) ?_
      (delivered_step _ idA)
    · exact Int.le_refl 0
    · exact Int.le_of_eq hta
    · exact Int.le_of_eq htb
  · rw [hadmitted]
    decide

end Webchannel.Channel
