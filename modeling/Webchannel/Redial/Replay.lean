import Webchannel.Redial.Transport

/-!
# The plugin's NATS transport keeps the server's table

What the server knows of an open current socket is always part of the transport's table. It is
all of it on a dial of the owner, which starts from an empty table, and on a dial of the
reconnect loop from the moment its microtask has replayed the table.
-/

namespace Webchannel.Redial.Plugin

open Webchannel.Reentrant Prog Contract Webchannel.Registrations

variable {t t' t'' : Transport} {s s' : Nat} {d d' : Dial}

/-! ### What stays -/

structure Same (t t' : Transport) : Prop where
  given : t'.given = t.given
  sidCounter : t'.sidCounter = t.sidCounter

theorem Same.refl (t : Transport) : Same t t := ⟨rfl, rfl⟩

theorem Same.trans (h : Same t t') (h' : Same t' t'') : Same t t'' :=
  ⟨h'.given.trans h.given, h'.sidCounter.trans h.sidCounter⟩

/-- No sid was given out twice, and the next one is new. -/
structure Fresh (t : Transport) : Prop where
  nodup : t.given.Nodup
  bound : ∀ sid ∈ t.given, sid ≤ t.sidCounter

theorem Same.fresh (h : Same t t') (hf : Fresh t) : Fresh t' :=
  ⟨h.given ▸ hf.nodup, fun sid hsid => h.sidCounter ▸ hf.bound sid (h.given ▸ hsid)⟩

/-! ### The invariant -/

/-- The current socket and the table. The promise of a dial that goes on is open until its first
`PONG`; the replay of a reconnect is owed until then and while its microtask waits. -/
structure Fits (t : Transport) (s : Nat) (d : Dial) : Prop where
  wire : d.connectOnWire = true → d.readyState ≠ .connecting
  connecting : d.readyState = .connecting → (∀ sid, d.served sid = none) ∧ d.established = false
  pending : d.readyState = .connecting ∨ d.readyState = .open → d.established = false → d.settled = false
  within : d.readyState = .open → Within d.served t.subs.get
  owner : d.byReconnect = false → d.readyState = .connecting → ∀ sid, t.subs.get sid = none
  exact : d.readyState = .open → d.byReconnect = false ∨ d.established = true ∧ Resumed.established s ∉ t.microtasks →
    d.served = t.subs.get

/-- No dial was made yet, and none is due. -/
structure Untouched (t : Transport) : Prop where
  reconnectTimer : t.reconnectTimer = false
  microtasks : t.microtasks = []
  dials : ∀ s, t.dial? s = none

structure Inv (t : Transport) : Prop where
  keys : ∀ sid, t.sidCounter < sid → t.subs.get sid = none
  shutdown : t.shutdownPromise = true → t.closed = true
  closed : t.closed = true → t.ws = none ∧ ∀ sid, t.subs.get sid = none
  idle : t.ownerMayConnect = true → t.ws = none ∧ ∀ sid, t.subs.get sid = none
  first : t.ownerMayConnect = true → t.closed = true ∨ Untouched t
  live : ∀ s, t.ws = some s → ∃ d, t.dial? s = some d ∧ Fits t s d

theorem inv_init (options : Options) : Inv (Transport.init options) where
  keys _ _ := rfl
  shutdown := nofun
  closed := nofun
  idle _ := ⟨rfl, fun _ => rfl⟩
  first _ := .inr ⟨rfl, rfl, fun _ => rfl⟩
  live := nofun

/-- A dial that is not behind: no state is entered anew, and the same commands were sent. -/
structure Ahead (d d' : Dial) : Prop where
  wire : d'.connectOnWire = true → d.connectOnWire = true ∨ d'.readyState ≠ .connecting
  connecting : d'.readyState = .connecting → d.readyState = .connecting
  opens : d'.readyState = .open → d.readyState = .open
  byReconnect : d'.byReconnect = d.byReconnect
  established : d'.established = d.established
  settled : d'.readyState = .connecting ∨ d'.readyState = .open → d'.settled = d.settled
  served : d'.served = d.served

theorem Fits.ahead (h : Fits t s d) (ha : Ahead d d') : Fits t s d' where
  wire hw hc := (ha.wire hw).elim (fun hw => h.wire hw (ha.connecting hc)) fun hne => hne hc
  connecting hc := by
    obtain ⟨hnone, hest⟩ := h.connecting (ha.connecting hc)
    exact ⟨fun sid => ha.served ▸ hnone sid, ha.established.trans hest⟩
  pending hstate hest :=
    (ha.settled hstate).trans (h.pending (hstate.imp ha.connecting ha.opens) (ha.established ▸ hest))
  within ho := ha.served ▸ h.within (ha.opens ho)
  owner hby hc := h.owner (ha.byReconnect ▸ hby) (ha.connecting hc)
  exact ho hall := ha.served ▸ h.exact (ha.opens ho) (by rw [← ha.byReconnect, ← ha.established]; exact hall)

/-- What the invariant says of a dial depends on the table and on the replays that wait. -/
theorem Fits.congr (h : Fits t s d) (hsubs : t'.subs = t.subs)
    (hmicro : Resumed.established s ∉ t'.microtasks → Resumed.established s ∉ t.microtasks) : Fits t' s d where
  wire := h.wire
  connecting := h.connecting
  pending := h.pending
  within ho := hsubs ▸ h.within ho
  owner hby hc := hsubs ▸ h.owner hby hc
  exact ho hall := hsubs ▸ h.exact ho (hall.imp_right fun ⟨hest, hnot⟩ => ⟨hest, hmicro hnot⟩)

/-- Nothing that the invariant speaks about has changed but the sockets, and they are ahead. -/
structure Steady (t t' : Transport) : Prop extends Same t t' where
  subs : t'.subs = t.subs
  ws : t'.ws = t.ws
  closed : t'.closed = t.closed
  shutdownPromise : t'.shutdownPromise = t.shutdownPromise
  ownerMayConnect : t'.ownerMayConnect = t.ownerMayConnect
  microtasks : ∀ s, Resumed.established s ∉ t'.microtasks → Resumed.established s ∉ t.microtasks
  untouched : t.ownerMayConnect = true → t.closed = false → Untouched t → Untouched t'

theorem Steady.refl (t : Transport) : Steady t t := ⟨.refl t, rfl, rfl, rfl, rfl, rfl, fun _ h => h, fun _ _ h => h⟩

theorem Inv.over (h : Inv t) (hs : Steady t t')
    (hlive : ∀ s d, t.ws = some s → t.dial? s = some d → Fits t s d → ∃ d', t'.dial? s = some d' ∧ Fits t' s d') :
    Inv t' where
  keys sid hlt := by rw [hs.subs]; exact h.keys sid (hs.sidCounter ▸ hlt)
  shutdown hsd := hs.closed.trans (h.shutdown (hs.shutdownPromise ▸ hsd))
  closed hc := by
    rw [hs.ws, hs.subs]
    exact h.closed (hs.closed ▸ hc)
  idle hi := by
    rw [hs.ws, hs.subs]
    exact h.idle (hs.ownerMayConnect ▸ hi)
  first hi := by
    have howner : t.ownerMayConnect = true := hs.ownerMayConnect ▸ hi
    cases hclosed : t.closed with
    | true => exact .inl (hs.closed.trans hclosed)
    | false => exact .inr (hs.untouched howner hclosed ((h.first howner).resolve_left (by rw [hclosed]; exact nofun)))
  live s hws := by
    obtain ⟨d, hd, hfits⟩ := h.live s (hs.ws ▸ hws)
    exact hlive s d (hs.ws ▸ hws) hd hfits

theorem Inv.steady (h : Inv t) (hs : Steady t t')
    (hdial : ∀ s d, t.ws = some s → t.dial? s = some d → Fits t s d → ∃ d', t'.dial? s = some d' ∧ Ahead d d') :
    Inv t' := by
  refine h.over hs fun s d hws hd hfits => ?_
  obtain ⟨d', hd', ha⟩ := hdial s d hws hd hfits
  exact ⟨d', hd', (hfits.ahead ha).congr hs.subs (hs.microtasks s)⟩

theorem Ahead.refl (d : Dial) : Ahead d d := ⟨.inl, fun h => h, fun h => h, rfl, rfl, fun _ => rfl, rfl⟩

theorem Ahead.of_socket (hsocket : d'.toSocket = d.toSocket) (hby : d'.byReconnect = d.byReconnect)
    (hest : d'.established = d.established) (hsettled : d'.settled = d.settled)
    (hwire : d'.connectOnWire = true → d.connectOnWire = true ∨ d'.readyState ≠ .connecting) : Ahead d d' where
  wire := hwire
  connecting h := (congrArg Socket.readyState hsocket) ▸ h
  opens h := (congrArg Socket.readyState hsocket) ▸ h
  byReconnect := hby
  established := hest
  settled _ := hsettled
  served := congrArg Socket.served hsocket

/-- A socket that is given up is neither connecting nor open. -/
theorem Ahead.given_up (hstate : d'.readyState ≠ .connecting ∧ d'.readyState ≠ .open) (hby : d'.byReconnect = d.byReconnect)
    (hest : d'.established = d.established) (hserved : d'.served = d.served) : Ahead d d' where
  wire _ := .inr hstate.1
  connecting h := absurd h hstate.1
  opens h := absurd h hstate.2
  byReconnect := hby
  established := hest
  settled h := absurd h (by rintro (h | h); exacts [hstate.1 h, hstate.2 h])
  served := hserved

/-- The sockets are as they were. -/
theorem Inv.timers (h : Inv t) (hs : Steady t t') (hdials : t'.dials = t.dials) : Inv t' :=
  h.steady hs fun s d _ hd _ => ⟨d, (congrArg (·.get s) hdials).trans hd, .refl d⟩

theorem dial?_setDial_none (hd : t.dial? s' = none) (f : Dial → Dial) : (t.setDial s f).dial? s' = none := by
  have hget := Heap.get_update t.dials s s' f
  rw [show t.dials.get s' = none from hd, Option.map_none, ite_self] at hget
  exact hget

theorem Untouched.setDial (h : Untouched t) (s : Nat) (f : Dial → Dial) : Untouched (t.setDial s f) :=
  ⟨h.reconnectTimer, h.microtasks, fun s' => dial?_setDial_none (h.dials s') f⟩

theorem steady_setDial (t : Transport) (s : Nat) (f : Dial → Dial) : Steady t (t.setDial s f) :=
  ⟨⟨rfl, rfl⟩, rfl, rfl, rfl, rfl, rfl, fun _ h => h, fun _ _ h => h.setDial s f⟩

theorem dial?_setDial (hd : t.dial? s = some d) (f : Dial → Dial) : (t.setDial s f).dial? s = some (f d) :=
  Heap.get_update_self hd

theorem dial?_setDial_of_ne (hne : s' ≠ s) (f : Dial → Dial) : (t.setDial s f).dial? s' = t.dial? s' :=
  Heap.get_update_of_ne hne

/-- One dial changes, with whatever changes beside the sockets. -/
theorem Inv.setDial (h : Inv t) {f : Dial → Dial} (hs : Steady t t') (hdials : t'.dials = (t.setDial s f).dials)
    (hf : ∀ d, t.ws = some s → t.dial? s = some d → Fits t s d → Ahead d (f d)) : Inv t' := by
  refine h.steady hs fun s' d hws hd hfits => ?_
  rw [show t'.dial? s' = (t.setDial s f).dial? s' from congrArg (·.get s') hdials]
  by_cases hne : s' = s
  · subst hne
    exact ⟨f d, dial?_setDial hd f, hf d hws hd hfits⟩
  · exact ⟨d, (dial?_setDial_of_ne hne f).trans hd, .refl d⟩

/-- A closure variable is assigned that the invariant does not look at. -/
theorem Inv.flag (h : Inv t) {f : Dial → Dial} (hf : ∀ d, Ahead d (f d)) : Inv (t.setDial s f) :=
  h.setDial (steady_setDial t s f) rfl fun d _ _ _ => hf d

theorem Inv.closeSocket (h : Inv t) (s : Nat) : Inv (t.closeSocket s) :=
  h.setDial (steady_setDial ..) rfl fun _ _ _ _ =>
    .given_up Socket.readyState_close_ne_open.symm rfl rfl rfl

/-- A command that is none of the subscriptions'. -/
theorem Inv.sendOn (h : Inv t) {line : Wire} (hline : line.command = none) : Inv (t.sendOn s line) := by
  refine h.setDial (steady_setDial ..) rfl fun d _ _ _ => ⟨.inl, fun hc => ?_, fun ho => ?_, rfl, rfl, fun _ => rfl, ?_⟩
  · exact (Socket.readyState_send line d.toSocket) ▸ hc
  · exact (Socket.readyState_send line d.toSocket) ▸ ho
  · exact Socket.served_send_plain hline

theorem same_send (t : Transport) (line : Wire) : Same t (t.send line) := by
  unfold Transport.send
  split
  · exact .refl t
  · exact ⟨rfl, rfl⟩

theorem Inv.send (h : Inv t) {line : Wire} (hline : line.command = none) : Inv (t.send line) := by
  unfold Transport.send
  split
  · exact h
  · exact h.sendOn hline

/-! ### The promise of a dial -/

theorem steady_settle_false (t : Transport) (s : Nat) : Steady t (t.settle s false) := by
  unfold Transport.settle
  split
  · exact .refl t
  · split
    · exact .refl t
    · rename_i d hd _
      refine ⟨⟨rfl, rfl⟩, rfl, rfl, rfl, rfl, rfl, fun s' hnot hmem => hnot ?_, fun _ _ h => ?_⟩
      · dsimp only
        split
        · exact List.mem_append_left _ hmem
        · exact hmem
      · exact absurd (hd.symm.trans (h.dials s)) nofun

/-- Rejecting the promise of a socket that is given up. -/
theorem Inv.settle_false (h : Inv t)
    (hgone : ∀ d, t.ws = some s → t.dial? s = some d → d.settled = false →
      d.readyState ≠ .connecting ∧ d.readyState ≠ .open) : Inv (t.settle s false) := by
  have hs := steady_settle_false t s
  unfold Transport.settle at hs ⊢
  split
  · exact h
  · rename_i d hd
    rw [hd] at hs
    dsimp only at hs
    split
    · exact h
    · rename_i hsettled
      rw [if_neg hsettled] at hs
      refine h.setDial hs rfl fun d' hws hd' _ => ?_
      obtain rfl : d = d' := Option.some.inj (hd.symm.trans hd')
      exact .given_up (hgone d hws hd (Bool.eq_false_iff.mpr hsettled)) rfl rfl rfl

/-- The dial after a failed handshake, whatever its promise was. -/
theorem dials_fail (t : Transport) (s : Nat) : ∃ f : Dial → Dial, (t.fail s).dials = (t.setDial s f).dials ∧
    ∀ d, t.dial? s = some d → Ahead d (f d) := by
  unfold Transport.fail Transport.settle
  cases hd : t.dial? s with
  | none =>
    refine ⟨fun d => { d with toSocket := d.toSocket.close }, rfl, nofun⟩
  | some d =>
    dsimp only
    split
    · refine ⟨fun d => { d with toSocket := d.toSocket.close }, rfl, fun d' _ => ?_⟩
      exact .given_up Socket.readyState_close_ne_open.symm rfl rfl rfl
    · refine ⟨_, Heap.update_update .., fun d' _ => ?_⟩
      exact .given_up Socket.readyState_close_ne_open.symm rfl rfl rfl

theorem steady_fail (t : Transport) (s : Nat) : Steady t (t.fail s) := by
  have h := steady_settle_false t s
  exact ⟨⟨h.given, h.sidCounter⟩, h.subs, h.ws, h.closed, h.shutdownPromise, h.ownerMayConnect, h.microtasks,
    fun howner hclosed hu => (h.untouched howner hclosed hu).setDial s _⟩

theorem Inv.fail (h : Inv t) (s : Nat) : Inv (t.fail s) := by
  obtain ⟨f, hdials, hf⟩ := dials_fail t s
  exact h.setDial (steady_fail t s) hdials fun d _ hd _ => hf d hd

/-- The first `PONG`: the dial is established and its promise resolves. -/
theorem Inv.establish (h : Inv t) (hnew : ∀ d, t.dial? s = some d → d.established = false)
    (hwired : ∀ d, t.dial? s = some d → d.connectOnWire = true) :
    Inv ((t.setDial s ({ · with established := true })).settle s true) := by
  cases hd : t.dial? s with
  | none =>
    have hnone : (t.setDial s ({ · with established := true })).dial? s = none := by
      simp only [Transport.dial?, Transport.setDial, Heap.get_update] at hd ⊢
      simp [hd]
    rw [Transport.settle, hnone]
    exact h.setDial (steady_setDial ..) rfl fun d _ hd' _ => absurd (hd.symm.trans hd') nofun
  | some d =>
    rw [Transport.settle, dial?_setDial hd]
    have hest := hnew d hd
    dsimp only
    split
    · -- A promise that was rejected before belongs to a socket that was given up.
      rename_i hsettled
      refine h.over (steady_setDial ..) fun s' d' hws hd' hfits => ?_
      by_cases hne : s' = s
      · subst hne
        obtain rfl : d = d' := Option.some.inj (hd.symm.trans hd')
        have hstarted := hfits.wire (hwired d hd)
        refine ⟨_, dial?_setDial hd _, fun _ => hstarted, fun hc => absurd hc hstarted, fun _ => nofun, hfits.within,
          fun _ hc => absurd hc hstarted, fun ho _ => ?_⟩
        exact absurd (hsettled.symm.trans (hfits.pending (.inr ho) hest)) nofun
      · exact ⟨d', (dial?_setDial_of_ne hne _).trans hd', hfits.congr rfl fun hnot => hnot⟩
    · have hmicro : ∀ s', Resumed.established s' ∉
          (if d.byReconnect then t.microtasks ++ [Resumed.of s true] else t.microtasks) →
          Resumed.established s' ∉ t.microtasks := by
        intro s' hnot hmem
        apply hnot
        split
        · exact List.mem_append_left _ hmem
        · exact hmem
      refine h.over ⟨⟨rfl, rfl⟩, rfl, rfl, rfl, rfl, rfl, hmicro, fun _ _ hu => absurd (hd.symm.trans (hu.dials s)) nofun⟩
        fun s' d' hws hd' hfits => ?_
      by_cases hne : s' = s
      · subst hne
        obtain rfl : d = d' := Option.some.inj (hd.symm.trans hd')
        have hstarted := hfits.wire (hwired d hd)
        refine ⟨_, dial?_setDial (dial?_setDial hd _) _, fun _ => hstarted, fun hc => absurd hc hstarted, fun _ => nofun,
          hfits.within, fun _ hc => absurd hc hstarted, fun ho hall => hfits.exact ho ?_⟩
        refine .inl ?_
        rcases hall with hby | ⟨-, hnot⟩
        · exact hby
        · cases hby : d.byReconnect with
          | false => rfl
          | true => exact absurd (by simp [hby, Resumed.of]) hnot
      · exact ⟨d', (dial?_setDial_of_ne hne _).trans ((dial?_setDial_of_ne hne _).trans hd'), hfits.congr rfl (hmicro s')⟩

/-! ### Subscriptions -/

theorem isOpen_eq (hws : t.ws = some s) (hd : t.dial? s = some d) : t.isOpen = (d.readyState == .open) := by
  simp only [Transport.isOpen, hws, Option.bind_some]
  rw [show t.dials.get s = some d from hd]
  rfl

theorem isOpen_none (hws : t.ws = none) : t.isOpen = false := by
  simp [Transport.isOpen, hws]

/-- The table changes in one place and the server is told. -/
theorem Inv.tell (h : Inv t) (sid : Nat) (o : Option Subject) (line : Wire) (hws : t.ws = some s)
    (hd : t.dial? s = some d) (hopen : d.readyState = .open) {command : Command Nat Subject} (hline : line.command = some command)
    (hsids : t.sidCounter ≤ t'.sidCounter) (hsid : o.isSome = true → sid ≤ t'.sidCounter)
    (hsubs : t'.subs.get = Function.update t.subs.get sid o)
    (hknown : ∀ known, Within known t.subs.get → process known command = Function.update known sid o)
    (hsame : t'.ws = t.ws ∧ t'.closed = t.closed ∧ t'.shutdownPromise = t.shutdownPromise ∧
      t'.ownerMayConnect = t.ownerMayConnect ∧ t'.microtasks = t.microtasks ∧ t'.dials = (t.sendOn s line).dials) :
    Inv t' := by
  obtain ⟨hws', hclosed, hshutdown, howner, hmicro, hdials⟩ := hsame
  have hbusy (hi : t'.ownerMayConnect = true) : False :=
    absurd (hws.symm.trans (h.idle (howner ▸ hi)).1) nofun
  refine ⟨fun sid' hlt => ?_, fun hsd => ?_, fun hc => ?_, fun hi => (hbusy hi).elim, fun hi => (hbusy hi).elim,
    fun s' hs' => ?_⟩
  · rw [hsubs]
    by_cases hne : sid' = sid
    · subst hne
      rw [Function.update_self]
      cases o with
      | none => rfl
      | some subject => exact absurd (hsid rfl) (Nat.not_le_of_lt hlt)
    · rw [Function.update_of_ne hne]
      exact h.keys sid' (Nat.lt_of_le_of_lt hsids hlt)
  · exact hclosed.trans (h.shutdown (hshutdown ▸ hsd))
  · exact absurd (hws.symm.trans (h.closed (hclosed ▸ hc)).1) nofun
  · obtain rfl : s = s' := Option.some.inj (hws.symm.trans (hws'.symm.trans hs'))
    obtain ⟨d', hd', hfits⟩ := h.live s hws
    obtain rfl : d = d' := Option.some.inj (hd.symm.trans hd')
    have hstate : (d.toSocket.send line).readyState = .open := (Socket.readyState_send ..).trans hopen
    have hserved : (d.toSocket.send line).served = Function.update d.served sid o :=
      (Socket.served_send hopen hline).trans (hknown _ (hfits.within hopen))
    refine ⟨_, (congrArg (·.get s) hdials).trans (dial?_setDial hd _), fun _ hc => ?_, fun hc => ?_, fun _ hest => ?_,
      fun _ => ?_, fun _ hc => ?_, fun _ hall => ?_⟩
    · exact absurd (hstate.symm.trans hc) nofun
    · exact absurd (hstate.symm.trans hc) nofun
    · exact hfits.pending (.inr hopen) hest
    · exact (congrArg (Within · t'.subs.get) hserved).mpr (hsubs ▸ (hfits.within hopen).update sid o)
    · exact absurd (hstate.symm.trans hc) nofun
    · refine hserved.trans ?_
      rw [hfits.exact hopen (hmicro ▸ hall), hsubs]

theorem Inv.subscribe (h : Inv t) (subject : Subject) : Inv (t.subscribe subject) := by
  unfold Transport.subscribe
  split
  · exact h
  rename_i hcond
  cases hws : t.ws with
  | none => simp [isOpen_none hws] at hcond
  | some s =>
    obtain ⟨d, hd, -⟩ := h.live s hws
    have hopen : d.readyState = .open := by simpa [isOpen_eq hws hd] using hcond
    have hnew : t.subs.get (t.sidCounter + 1) = none := h.keys _ (Nat.lt_succ_self _)
    refine h.tell (t.sidCounter + 1) (some subject) (.sub subject (t.sidCounter + 1)) hws hd hopen rfl
      (Nat.le_succ _) (fun _ => Nat.le_refl _) (get_set_update ..) (fun known hwithin => ?_)
      ⟨hws.symm, rfl, rfl, rfl, rfl, rfl⟩
    exact process_register_fresh (hwithin.none_of_none hnew)

theorem fresh_subscribe (t : Transport) (subject : Subject) (hf : Fresh t) : Fresh (t.subscribe subject) := by
  unfold Transport.subscribe
  split
  · exact hf
  · refine (same_send _ _).fresh ⟨?_, fun sid hsid => ?_⟩
    · refine List.nodup_cons.mpr ⟨fun hmem => ?_, hf.nodup⟩
      exact Nat.not_succ_le_self _ (hf.bound _ hmem)
    · rcases List.mem_cons.mp hsid with rfl | hold
      · exact Nat.le_refl _
      · exact Nat.le_succ_of_le (hf.bound sid hold)

theorem same_unsubscribe (t : Transport) (sid : Nat) : Same t (t.unsubscribe sid) := by
  unfold Transport.unsubscribe
  dsimp only
  split
  · have hsent := same_send { t with subs := t.subs.delete sid } (.unsub sid)
    exact ⟨hsent.given, hsent.sidCounter⟩
  · exact ⟨rfl, rfl⟩

theorem Inv.unsubscribe (h : Inv t) (sid : Nat) : Inv (t.unsubscribe sid) := by
  have htable := get_delete_update t.subs sid
  have hnone : ∀ sid', t.subs.get sid' = none → (t.subs.delete sid).get sid' = none := by
    intro sid' hget
    rw [OrderedMap.get_delete_eq, hget, ite_self]
  unfold Transport.unsubscribe
  dsimp only
  split
  · rename_i hcond
    have hisOpen : t.isOpen = true := hcond
    cases hws : t.ws with
    | none => simp [isOpen_none hws] at hisOpen
    | some s =>
      obtain ⟨d, hd, -⟩ := h.live s hws
      have hopen : d.readyState = .open := by simpa [isOpen_eq hws hd] using hisOpen
      exact h.tell sid none (.unsub sid) hws hd hopen rfl (Nat.le_refl _) nofun htable
        (fun _ _ => rfl) ⟨hws.symm, rfl, rfl, rfl, rfl, rfl⟩
  · rename_i hcond
    refine ⟨fun sid' hlt => hnone sid' (h.keys sid' hlt), h.shutdown, fun hc => ?_, fun hi => ?_, fun hi => ?_, fun s hws => ?_⟩
    · exact ⟨(h.closed hc).1, fun sid' => hnone sid' ((h.closed hc).2 sid')⟩
    · exact ⟨(h.idle hi).1, fun sid' => hnone sid' ((h.idle hi).2 sid')⟩
    · exact (h.first hi).imp_right fun hu => ⟨hu.reconnectTimer, hu.microtasks, hu.dials⟩
    · obtain ⟨d, hd, hfits⟩ := h.live s hws
      have hnot : d.readyState ≠ .open := fun ho => hcond ((isOpen_eq (t := t) hws hd).trans (by rw [ho]; rfl))
      exact ⟨d, hd, hfits.wire, hfits.connecting, hfits.pending, fun ho => absurd ho hnot,
        fun hby hc sid' => hnone sid' (hfits.owner hby hc sid'), fun ho => absurd ho hnot⟩

/-! ### Closing and dialling -/

theorem confirmSocketClosed_keeps (t : Transport) (socket : Option Nat) :
    (t.confirmSocketClosed socket).closed = t.closed ∧ (t.confirmSocketClosed socket).ws = t.ws ∧
      (t.confirmSocketClosed socket).subs = t.subs ∧ Same t (t.confirmSocketClosed socket) := by
  cases socket with
  | none => exact ⟨rfl, rfl, rfl, rfl, rfl⟩
  | some s =>
    unfold Transport.confirmSocketClosed
    dsimp only
    split <;> exact ⟨rfl, rfl, rfl, rfl, rfl⟩

/-- After a shutdown there is no socket and the table is empty. -/
theorem inv_shutdown (h : t.shutdownPromise = false) : Inv t.closeGracefully := by
  rw [Transport.closeGracefully, if_neg (Bool.eq_false_iff.mp h)]
  obtain ⟨hclosed, hws, hsubs, -⟩ := confirmSocketClosed_keeps { t with
    closed := true, reconnectTimer := false, connected := false, subs := .empty,
    retainedSocket := t.ws.or t.retainedSocket, ws := none, shutdownPromise := true } (t.ws.or t.retainedSocket)
  have hempty (sid : Nat) : OrderedMap.get _ sid = none := (congrArg (OrderedMap.get · sid) hsubs).trans rfl
  exact ⟨fun sid _ => hempty sid, fun _ => hclosed, fun _ => ⟨hws, hempty⟩, fun _ => ⟨hws, hempty⟩,
    fun _ => .inl hclosed, fun s hs => absurd (hws.symm.trans hs) nofun⟩

/-- A shutdown that has begun is not begun again. -/
theorem closeGracefully_of_shutdown (h : t.shutdownPromise = true) : t.closeGracefully = t := if_pos h

theorem Inv.closeGracefully (h : Inv t) : Inv t.closeGracefully := by
  cases hshutdown : t.shutdownPromise with
  | true => rwa [closeGracefully_of_shutdown hshutdown]
  | false => exact inv_shutdown hshutdown

theorem same_closeGracefully (t : Transport) : Same t t.closeGracefully := by
  unfold Transport.closeGracefully
  split
  · exact .refl t
  · have hsame := (confirmSocketClosed_keeps { t with
      closed := true, reconnectTimer := false, connected := false, subs := .empty,
      retainedSocket := t.ws.or t.retainedSocket, ws := none, shutdownPromise := true } (t.ws.or t.retainedSocket)).2.2.2
    exact ⟨hsame.given, hsame.sidCounter⟩

theorem Inv.scheduleReconnect (h : Inv t) (hidle : t.closed = false → t.ownerMayConnect = false) :
    Inv t.scheduleReconnect := by
  unfold Transport.scheduleReconnect
  split
  · exact h
  · refine h.timers ⟨⟨rfl, rfl⟩, rfl, rfl, rfl, rfl, rfl, fun _ h => h, fun howner hclosed => ?_⟩ rfl
    exact absurd (howner.symm.trans (hidle hclosed)) nofun

theorem same_scheduleReconnect (t : Transport) : Same t t.scheduleReconnect := by
  unfold Transport.scheduleReconnect
  split <;> exact ⟨rfl, rfl⟩

theorem Inv.refuse (h : Inv t) (hidle : t.ownerMayConnect = false) (byReconnect : Bool) : Inv (t.refuse byReconnect) := by
  refine h.timers ⟨⟨rfl, rfl⟩, rfl, rfl, rfl, rfl, rfl, fun s hnot hmem => hnot ?_,
    fun howner => absurd (howner.symm.trans hidle) nofun⟩ rfl
  unfold Transport.refuse
  dsimp only
  split
  · exact List.mem_append_left _ hmem
  · exact hmem

/-- A new dial owes the server the table, unless the table is empty. -/
theorem Inv.dialNew (h : Inv t) (hclosed : t.closed = false) (hidle : t.ownerMayConnect = false) (byReconnect signal : Bool)
    (howner : byReconnect = false → ∀ sid, t.subs.get sid = none) : Inv (t.dialNew byReconnect signal) where
  keys := h.keys
  shutdown := h.shutdown
  closed hc := absurd (hclosed.symm.trans hc) nofun
  idle hi := absurd (hidle.symm.trans hi) nofun
  first hi := absurd (hidle.symm.trans hi) nofun
  live s hs := by
    obtain rfl : t.dials.next = s := Option.some.inj hs
    exact ⟨_, Heap.get_alloc_next _ _, nofun, fun _ => ⟨fun _ => rfl, rfl⟩, fun _ _ => rfl, nofun, fun hby _ => howner hby, nofun⟩

/-- The socket of the dial opens; nothing was sent on it, and the table of an owner's dial is empty. -/
theorem Inv.opened (h : Inv t) (hd : t.dial? s = some d) (hstate : d.readyState = .connecting) :
    Inv (t.setDial s fun d => { d with toSocket := d.toSocket.opened }) := by
  refine h.over (steady_setDial ..) fun s' d' hws hd' hfits => ?_
  by_cases hne : s' = s
  · subst hne
    obtain rfl : d = d' := Option.some.inj (hd.symm.trans hd')
    obtain ⟨hnone, hest⟩ := hfits.connecting hstate
    refine ⟨_, dial?_setDial hd _, fun _ => nofun, nofun, fun _ _ => hfits.pending (.inl hstate) hest, fun _ sid subject hget => ?_, nofun,
      fun _ hall => ?_⟩
    · exact absurd ((hnone sid).symm.trans hget) nofun
    · rcases hall with hby | ⟨htrue, -⟩
      · funext sid
        exact (hnone sid).trans (hfits.owner hby hstate sid).symm
      · exact absurd (hest.symm.trans htrue) nofun
  · exact ⟨d', (dial?_setDial_of_ne hne _).trans hd', hfits.congr rfl fun hnot => hnot⟩

theorem Inv.socketClosed (h : Inv t) (s : Nat) : Inv (t.setDial s fun d => { d with toSocket := d.toSocket.closed }) :=
  h.flag fun _ => .given_up ⟨nofun, nofun⟩ rfl rfl rfl

/-- `CONNECT` and the first `PING` change nothing that the invariant looks at. -/
theorem Inv.sendConnect (h : Inv t) (hopen : ∀ d, t.ws = some s → t.dial? s = some d → d.readyState = .open) :
    Inv (t.sendConnect s) := by
  have hwire : Inv (t.setDial s ({ · with connectOnWire := true })) := by
    refine h.setDial (steady_setDial ..) rfl fun d hws hd _ => .of_socket rfl rfl rfl rfl fun _ => .inr ?_
    rw [show d.readyState = .open from hopen d hws hd]
    exact nofun
  exact ((hwire.sendOn rfl).sendOn rfl).flag fun _ => .of_socket rfl rfl rfl rfl .inl

/-! ### The replay -/

theorem foldl_send (hws : t.ws = some s) (lines : List Wire) : lines.foldl (fun t line => t.send line) t =
    t.setDial s fun d => { d with toSocket := d.toSocket.sendAll lines } := by
  induction lines generalizing t with
  | nil => exact (congrArg (fun dials => { t with dials }) (Heap.update_eq_self fun d _ => rfl)).symm
  | cons line lines ih =>
    have hsent : t.send line = t.sendOn s line := by simp only [Transport.send, hws]
    rw [List.foldl_cons, hsent, ih (t := t.sendOn s line) hws]
    exact congrArg (fun dials => { t with dials }) (Heap.update_update ..)

theorem foldl_send_none (hws : t.ws = none) (lines : List Wire) : lines.foldl (fun t line => t.send line) t = t := by
  induction lines with
  | nil => rfl
  | cons line lines ih =>
    have hsent : t.send line = t := by simp only [Transport.send, hws]
    rw [List.foldl_cons, hsent, ih]

theorem same_replay (t : Transport) : Same t t.replay := by
  unfold Transport.replay
  cases hws : t.ws with
  | none => rw [foldl_send_none hws]; exact .refl t
  | some s => rw [foldl_send hws]; exact ⟨rfl, rfl⟩

/-- What holds when a microtask has been taken off: its replay is due at once. -/
structure Owing (m : Resumed) (t : Transport) : Prop where
  keys : ∀ sid, t.sidCounter < sid → t.subs.get sid = none
  shutdown : t.shutdownPromise = true → t.closed = true
  closed : t.closed = true → t.ws = none ∧ ∀ sid, t.subs.get sid = none
  idle : t.ownerMayConnect = true → t.ws = none ∧ ∀ sid, t.subs.get sid = none
  first : t.ownerMayConnect = true → t.closed = true
  live : ∀ s, t.ws = some s → ∃ d, t.dial? s = some d ∧ Fits { t with microtasks := m :: t.microtasks } s d

theorem Inv.owing {m : Resumed} {rest : List Resumed} (h : Inv t) (hm : t.microtasks = m :: rest) :
    Owing m { t with microtasks := rest } where
  keys := h.keys
  shutdown := h.shutdown
  closed := h.closed
  idle := h.idle
  first hi := (h.first hi).resolve_right fun hu => absurd (hm.symm.trans hu.microtasks) nofun
  live s hs := by
    obtain ⟨d, hd, hfits⟩ := h.live s hs
    exact ⟨d, hd, hfits.congr rfl fun hnot => hm ▸ hnot⟩

/-- A dial that failed owes nothing. -/
theorem Owing.failed (h : Owing .failed t) : Inv t := by
  refine ⟨h.keys, h.shutdown, h.closed, h.idle, fun hi => .inl (h.first hi), fun s hs => ?_⟩
  obtain ⟨d, hd, hfits⟩ := h.live s hs
  exact ⟨d, hd, hfits.congr rfl fun hnot hmem => (List.mem_cons.mp hmem).elim nofun hnot⟩

/-- Nothing is owed where there is no socket. -/
theorem Owing.gone {m : Resumed} (h : Owing m t) (hws : t.ws = none) : Inv t :=
  ⟨h.keys, h.shutdown, h.closed, h.idle, fun hi => .inl (h.first hi), fun _ hs => absurd (hws.symm.trans hs) nofun⟩

theorem Owing.replay {m : Resumed} (h : Owing m t) : Inv t.replay := by
  unfold Transport.replay
  cases hws : t.ws with
  | none =>
    rw [foldl_send_none hws]
    exact h.gone hws
  | some s =>
    rw [foldl_send hws]
    refine ⟨h.keys, h.shutdown, h.closed, h.idle, fun hi => .inl (h.first hi), fun s' hs' => ?_⟩
    obtain rfl : s = s' := Option.some.inj (hws.symm.trans hs')
    obtain ⟨d, hd, hfits⟩ := h.live s hws
    have hstate := Socket.readyState_sendAll (replayLines t.subs) d.toSocket
    have hdone (ho : d.readyState = .open) := Socket.served_replay (s := d.toSocket) ho (hfits.within ho)
    refine ⟨_, dial?_setDial hd _, fun hwire hc => ?_, fun hc => ?_, fun hs hest => ?_, fun ho => ?_, fun hby hc => ?_,
      fun ho _ => ?_⟩
    · exact hfits.wire hwire (hstate ▸ hc)
    · have hconn : d.readyState = .connecting := hstate ▸ hc
      obtain ⟨hnone, hest⟩ := hfits.connecting hconn
      refine ⟨fun sid => ?_, hest⟩
      exact (congrFun (Socket.served_sendAll_of_not_open (by rw [hconn]; exact nofun) _) sid).trans (hnone sid)
    · exact hfits.pending (hs.imp hstate.symm.trans hstate.symm.trans) hest
    · exact (hdone (hstate ▸ ho)).symm ▸ Within.refl _
    · exact hfits.owner hby (hstate ▸ hc)
    · exact hdone (hstate ▸ ho)

/-! ### The contract -/

def contract : Contract Transport Ask Answer Event Entry Unit where
  inv _ t _ := Inv t
  changes t t' := Fresh t → Fresh t'
  atAct _ _ _ := True
  okAnswer _ _ _ := True
  okEnter _ _ _ _ := True
  base := ()
  changes_refl _ h := h

theorem keeps_modify {f : Transport → Transport} (hsame : ∀ t, Same t (f t)) (hinv : ∀ t, Inv t → Inv (f t)) :
    contract.Keeps (fun t _ => Inv t) (modify f) :=
  Spec.modify fun t _ h => ⟨(hsame t).fresh, hinv t h⟩

theorem keeps_call (event : Event) : contract.Keeps (fun t _ => Inv t) (call event) :=
  Spec.call fun _ _ h => ⟨trivial, (), h, fun _ _ _ _ h' => h'⟩

theorem keeps_safeEmitFor (current : Option Nat) (event : Event) :
    contract.Keeps (fun t _ => Inv t) (safeEmitFor current event) := by
  refine Keeps.loop fun _ => Keeps.bind (Keeps.query _) fun more => Keeps.get fun v => ?_
  exact Keeps.ite (Keeps.bind (keeps_call event) fun _ => Keeps.pure _) (Keeps.pure _)

theorem keeps_emit (event : Event) : contract.Keeps (fun t _ => Inv t) (emit event) := by
  refine Keeps.loop fun _ => Keeps.bind (Keeps.query _) fun more => ?_
  refine Keeps.ite (Keeps.bind (keeps_call event) fun _ => ?_) (Keeps.pure _)
  exact Keeps.bind (Keeps.query _) fun threw => Keeps.ite (Keeps.pure _) (Keeps.pure _)

theorem keeps_fail (s : Nat) : contract.Keeps (fun t _ => Inv t) (modify (·.fail s)) :=
  keeps_modify (fun t => (steady_fail t s).toSame) fun _ h => h.fail s

/-- A closure variable is assigned that the invariant does not look at. -/
theorem keeps_flag (s : Nat) {f : Dial → Dial} (hf : ∀ d, Ahead d (f d)) :
    contract.Keeps (fun t _ => Inv t) (modify (·.setDial s f)) :=
  keeps_modify (fun _ => ⟨rfl, rfl⟩) fun _ h => h.flag hf

/-! ### Dialling and closing -/

/-- Whoever waits to connect has closed the transport before. -/
def Owned (t : Transport) : Prop := t.closed = false → t.ownerMayConnect = false

theorem Inv.owned (h : Inv t) (hbusy : ¬ Untouched t) : Owned t := by
  intro hclosed
  cases howner : t.ownerMayConnect with
  | false => rfl
  | true =>
    rcases h.first howner with hc | hu
    · exact absurd (hclosed.symm.trans hc) nofun
    · exact absurd hu hbusy

/-- `connect` of the owner finds an empty table, `connect` of the reconnect loop an open transport. -/
theorem spec_connect (byReconnect signal : Bool) :
    contract.Spec (fun t _ => Inv t ∧ t.ownerMayConnect = false ∧ (byReconnect = false → ∀ sid, t.subs.get sid = none))
      (connect byReconnect signal) fun _ t _ => Inv t := by
  refine Spec.get fun v => Spec.ite (fun _ => Spec.modify fun t _ h => ?_) fun _ => ?_
  · exact ⟨Same.fresh ⟨rfl, rfl⟩, h.2.1.refuse h.2.2.1 byReconnect⟩
  refine Spec.bind (Q := fun _ t _ => Inv t ∧ t.closed = false ∧ t.ownerMayConnect = false ∧
    (byReconnect = false → ∀ sid, t.subs.get sid = none)) (Spec.modify fun t _ h => ?_) fun _ => ?_
  · obtain ⟨-, hinv, hidle, howner⟩ := h
    have hfirst (hi : t.ownerMayConnect = true) : False := absurd (hidle.symm.trans hi) nofun
    exact ⟨Same.fresh ⟨rfl, rfl⟩, ⟨hinv.keys, nofun, nofun, hinv.idle, fun hi => (hfirst hi).elim, fun s hs => by
      obtain ⟨d, hd, hfits⟩ := hinv.live s hs
      exact ⟨d, hd, hfits.congr rfl fun hnot => hnot⟩⟩, rfl, hidle, howner⟩
  refine Spec.bind (Spec.query fun t _ made h _ => h) fun made => Spec.ite (fun _ => Spec.modify fun t _ h => ?_)
    fun _ => Spec.modify fun t _ h => ?_
  · obtain ⟨hinv, hclosed, hidle, howner⟩ := h
    exact ⟨Same.fresh ⟨rfl, rfl⟩, hinv.dialNew hclosed hidle byReconnect signal howner⟩
  · exact ⟨Same.fresh ⟨rfl, rfl⟩, h.1.refuse h.2.2.1 byReconnect⟩

theorem spec_reconnectOnce :
    contract.Spec (fun t _ => Inv t ∧ Owned t) reconnectOnce fun _ t _ => Inv t := by
  refine Spec.get fun v => Spec.onlyIf (fun hv => (spec_connect true false).pre ?_) fun _ t _ h => h.2.1
  rintro t l ⟨rfl, h, howned⟩
  exact ⟨h, howned (by simpa using hv), nofun⟩

theorem same_settle (t : Transport) (s : Nat) (ok : Bool) : Same t (t.settle s ok) := by
  unfold Transport.settle
  split
  · exact .refl t
  · split
    · exact .refl t
    · exact ⟨rfl, rfl⟩

theorem shutdownPromise_settle (t : Transport) (s : Nat) (ok : Bool) :
    (t.settle s ok).shutdownPromise = t.shutdownPromise := by
  unfold Transport.settle
  split
  · rfl
  · split <;> rfl

/-- An aborted dial closes the transport, unless a shutdown has done so already. -/
theorem Inv.abort (h : Inv t) (s : Nat) : Inv ((t.settle s false).disconnect) := by
  unfold Transport.disconnect
  cases hshutdown : t.shutdownPromise with
  | false => exact inv_shutdown ((shutdownPromise_settle t s false).trans hshutdown)
  | true =>
    have hws := (h.closed (h.shutdown hshutdown)).1
    exact (h.settle_false (s := s) fun d hs => absurd (hws.symm.trans hs) nofun).closeGracefully

/-! ### Reading -/

theorem keeps_protocolViolation (s : Nat) : contract.Keeps (fun t _ => Inv t) (protocolViolation s) :=
  Keeps.get fun _ => Keeps.bind (Keeps.onlyIf (keeps_safeEmitFor _ _)) fun _ => keeps_fail s

theorem keeps_finishSigned (s : Nat) : contract.Keeps (fun t _ => Inv t) (finishSigned s) := by
  refine keeps_modify (fun t => ?_) fun t h => ?_
  · split
    · exact .refl t
    · exact ⟨rfl, rfl⟩
  · split
    · exact h
    · rename_i hcond
      refine h.sendConnect fun d hs hd => ?_
      simpa [hs, isOpen_eq hs hd] using hcond

theorem keeps_sendConnectWithJwt (s : Nat) : contract.Keeps (fun t _ => Inv t) (sendConnectWithJwt s) := by
  refine Keeps.bind (Keeps.query _) fun signing => ?_
  cases signing with
  | later => exact keeps_flag s fun _ => .of_socket rfl rfl rfl rfl .inl
  | signed => exact keeps_finishSigned s
  | failed => exact keeps_fail s

/-- The first `PONG` of a dial comes after its `CONNECT`. -/
theorem spec_onFirstPong (s : Nat) :
    contract.Spec (fun t _ => Inv t ∧ t.flag (·.connectOnWire) s = true) (onFirstPong s) fun _ t _ => Inv t := by
  refine Spec.get fun v => Spec.ite (fun _ => ?_) fun hv => ?_
  · exact (Keeps.get fun v' => Keeps.onlyIf (keeps_safeEmitFor _ _)).pre fun _ _ h => h.2.1
  refine Spec.bind (Q := fun _ t _ => Inv t) (Spec.modify ?_) fun _ => Keeps.get fun v' => Keeps.onlyIf ?_
  · rintro t l ⟨rfl, h, hwired⟩
    have hmark : Same t (t.setDial s ({ · with established := true })) := ⟨rfl, rfl⟩
    refine ⟨(hmark.trans (same_settle _ s true)).fresh, h.establish (fun d hd => ?_) fun d hd => ?_⟩
    · simpa [Transport.flag, hd] using hv
    · simpa [Transport.flag, hd] using hwired
  · refine Keeps.bind (keeps_modify (fun _ => ⟨rfl, rfl⟩) fun t h => ?_) fun _ => keeps_safeEmitFor _ _
    exact h.timers ⟨⟨rfl, rfl⟩, rfl, rfl, rfl, rfl, rfl, fun _ h => h, fun _ _ h => ⟨h.reconnectTimer, h.microtasks, h.dials⟩⟩ rfl

theorem keeps_drainBuffer (s : Nat) (lines : List Line) : contract.Keeps (fun t _ => Inv t) (drainBuffer s lines) := by
  induction lines with
  | nil => exact Keeps.pure ()
  | cons line rest ih =>
    cases line with
    | info =>
      refine Keeps.get fun v => Keeps.bind (Keeps.onlyIf (Keeps.bind ?_ fun _ => keeps_sendConnectWithJwt s)) fun _ => ih
      refine keeps_modify (fun _ => ⟨rfl, rfl⟩) fun t h => ?_
      have hsent : Inv (t.setDial s ({ · with connectSent := true })) := h.flag fun _ => .of_socket rfl rfl rfl rfl .inl
      exact hsent.flag fun _ => .of_socket rfl rfl rfl rfl .inl
    | pong =>
      refine Spec.get fun v => Spec.ite (fun hv => Spec.bind ((spec_onFirstPong s).pre ?_) fun _ => ?_) fun _ => ?_
      · rintro t l ⟨rfl, h⟩
        exact ⟨h, hv⟩
      · exact Keeps.get fun v' => Keeps.ite (Keeps.pure ()) ih
      · exact ih.pre fun _ _ h => h.2
    | ping => exact Keeps.bind (keeps_modify (fun _ => ⟨rfl, rfl⟩) fun _ h => h.sendOn rfl) fun _ => ih
    | msg => exact Keeps.bind (keeps_safeEmitFor _ _) fun _ => Keeps.get fun v => Keeps.ite (Keeps.pure ()) ih
    | err =>
      refine Keeps.get fun v => Keeps.ite (Keeps.bind (keeps_safeEmitFor _ _) fun _ => ?_) (keeps_fail s)
      exact Keeps.get fun v' => Keeps.ite (Keeps.pure ()) ih
    | violation => exact keeps_protocolViolation s
    | other => exact ih

/-! ### Handlers and microtasks -/

theorem spec_onOpen (s : Nat) :
    contract.Spec (fun t _ => Inv t ∧ ∀ d, t.dial? s = some d → d.readyState = .open) (onOpen s) fun _ t _ => Inv t := by
  refine Spec.get fun v => Spec.ite (fun _ => Spec.pure fun _ _ h => h.2.1) fun _ => Spec.ite (fun _ => ?_) fun _ => ?_
  · exact Spec.modify fun t _ h => ⟨Same.fresh ⟨rfl, rfl⟩, h.2.1.flag fun _ => .of_socket rfl rfl rfl rfl .inl⟩
  · exact Spec.modify fun t _ h => ⟨Same.fresh ⟨rfl, rfl⟩, h.2.1.sendConnect fun d _ hd => h.2.2 d hd⟩

theorem keeps_onError (s : Nat) : contract.Keeps (fun t _ => Inv t) (onError s) := by
  refine Keeps.get fun v => Keeps.ite (keeps_fail s) (Keeps.onlyIf (Keeps.bind ?_ fun _ => keeps_safeEmitFor _ _))
  refine keeps_modify (fun _ => ⟨rfl, rfl⟩) fun t h => ?_
  exact h.timers ⟨⟨rfl, rfl⟩, rfl, rfl, rfl, rfl, rfl, fun _ h => h, fun _ _ h => ⟨h.reconnectTimer, h.microtasks, h.dials⟩⟩ rfl

theorem same_ite {p : Prop} [Decidable p] (h : Same t t') : Same t (if p then t' else t) := by
  split
  · exact h
  · exact .refl t

/-- The transport lets go of its socket. -/
theorem Inv.release (h : Inv t) : Inv { t with ws := none } where
  keys := h.keys
  shutdown := h.shutdown
  closed hc := ⟨rfl, (h.closed hc).2⟩
  idle hi := ⟨rfl, (h.idle hi).2⟩
  first hi := (h.first hi).imp_right fun hu => ⟨hu.reconnectTimer, hu.microtasks, hu.dials⟩
  live := nofun

theorem spec_onClose (s : Nat) :
    contract.Spec (fun t _ => Inv t ∧ ∀ d, t.dial? s = some d → d.readyState = .closed) (onClose s) fun _ t _ => Inv t := by
  refine Spec.bind (Q := fun _ t _ => Inv t) (Spec.modify fun t _ h => ?_) fun _ => Keeps.get fun v => ?_
  · refine ⟨(same_settle t s false).fresh, h.1.settle_false fun d _ hd _ => ?_⟩
    rw [h.2 d hd]
    exact ⟨nofun, nofun⟩
  refine Keeps.ite (keeps_flag s fun _ => .of_socket rfl rfl rfl rfl .inl) (Keeps.bind ?_ fun _ => ?_)
  · refine keeps_modify (fun _ => ⟨rfl, rfl⟩) fun t h => ?_
    exact h.timers ⟨⟨rfl, rfl⟩, rfl, rfl, rfl, rfl, rfl, fun _ h => h, fun _ _ h => ⟨h.reconnectTimer, h.microtasks, h.dials⟩⟩ rfl
  refine Keeps.bind (keeps_emit _) fun threw => Keeps.onlyIf (Keeps.bind ?_ fun _ => Keeps.bind ?_ fun _ => ?_)
  · refine keeps_modify (fun t => same_ite (same_scheduleReconnect t)) fun t h => ?_
    split
    · rename_i hcond
      refine h.scheduleReconnect (h.owned fun hu => ?_)
      simp [Transport.flag, hu.dials s] at hcond
    · exact h
  · refine keeps_modify (fun t => same_ite ⟨rfl, rfl⟩) fun t h => ?_
    split
    · exact h.release
    · exact h
  · exact keeps_flag s fun _ => .of_socket rfl rfl rfl rfl .inl

/-- What the microtask of a dial has left to do. -/
theorem spec_resumeReconnect (m : Resumed) :
    contract.Spec (fun t _ => Owing m t) (resumeReconnect m) fun _ t _ => Inv t := by
  cases m with
  | failed =>
    refine Spec.modify fun t _ h => ⟨(same_scheduleReconnect t).fresh, h.failed.scheduleReconnect fun hclosed => ?_⟩
    cases howner : t.ownerMayConnect with
    | false => rfl
    | true => exact absurd (hclosed.symm.trans (h.first howner)) nofun
  | established s =>
    refine Spec.get fun v => Spec.ite (fun hv => Spec.modify ?_) fun _ => ?_
    · rintro t l ⟨rfl, h⟩
      exact ⟨(same_closeGracefully t).fresh, (h.gone (h.closed hv).1).closeGracefully⟩
    · refine Spec.bind (Q := fun _ t _ => Inv t) (Spec.modify fun t _ h => ⟨(same_replay t).fresh, h.2.replay⟩) fun _ => ?_
      exact Keeps.bind (keeps_emit _) fun _ => Keeps.pure _

/-- The owner connects with an empty table. -/
theorem Inv.taken (h : Inv t) : Inv { t with ownerMayConnect := false } where
  keys := h.keys
  shutdown := h.shutdown
  closed := h.closed
  idle := nofun
  first := nofun
  live s hs := by
    obtain ⟨d, hd, hfits⟩ := h.live s hs
    exact ⟨d, hd, hfits.congr rfl fun hnot => hnot⟩

/-- A confirmed close gives the transport back to its owner. -/
theorem Inv.confirmed (h : Inv t) (hshutdown : t.shutdownPromise = true) : Inv { t with ownerMayConnect := true } where
  keys := h.keys
  shutdown := h.shutdown
  closed := h.closed
  idle _ := h.closed (h.shutdown hshutdown)
  first _ := .inl (h.shutdown hshutdown)
  live _ hs := absurd ((h.closed (h.shutdown hshutdown)).1.symm.trans hs) nofun

theorem flag_eq_true {f : Dial → Bool} (h : t.flag f s = true) : ∃ d, t.dial? s = some d ∧ f d = true := by
  obtain ⟨d, hd, hf⟩ := (Option.any_eq_true _ _).mp h
  exact ⟨d, hd, hf⟩

theorem honours : Honours machine contract := by
  intro e top w t l hadmits hok htop hinv
  cases e with
  | connect signal =>
    refine ⟨Same.fresh ⟨rfl, rfl⟩, spec_connect false signal _ l ⟨?_, rfl, fun _ => (hinv.idle hadmits).2⟩⟩
    exact hinv.taken
  | abort s => exact ⟨(Same.trans (same_settle t s false) (same_closeGracefully _)).fresh, hinv.abort s⟩
  | subscribe subject => exact ⟨fresh_subscribe t subject, hinv.subscribe subject⟩
  | unsubscribe sid => exact ⟨(same_unsubscribe t sid).fresh, hinv.unsubscribe sid⟩
  | publish subject replyTo payload =>
    refine keeps_modify (fun t => ?_) (fun t h => ?_) t l hinv
    · unfold Transport.publish
      split
      · exact .refl t
      · exact same_send t _
    · unfold Transport.publish
      split
      · exact h
      · exact h.send rfl
  | flush =>
    refine keeps_modify (fun t => ?_) (fun t h => ?_) t l hinv
    · unfold Transport.flush
      split
      · exact .refl t
      · exact same_send t _
    · unfold Transport.flush
      split
      · exact h
      · exact h.send rfl
  | disconnect => exact ⟨(same_closeGracefully t).fresh, hinv.closeGracefully⟩
  | closeGracefully => exact ⟨(same_closeGracefully t).fresh, hinv.closeGracefully⟩
  | probePhysicalClose =>
    have hstart : Same t { t with shutdownPromise := false } := ⟨rfl, rfl⟩
    exact ⟨(hstart.trans (same_closeGracefully _)).fresh, inv_shutdown rfl⟩
  | opened s =>
    obtain ⟨-, hflag⟩ := Bool.and_eq_true_iff.mp hadmits
    obtain ⟨d, hd, hstate⟩ := flag_eq_true hflag
    refine ⟨Same.fresh ⟨rfl, rfl⟩, fun h => h, ?_⟩
    refine Spec.onlyIf (fun _ => spec_onOpen s) (fun _ _ _ h => h.1) _ l ⟨hinv.opened hd (by simpa using hstate), fun d' hd' => ?_⟩
    obtain rfl := Option.some.inj ((dial?_setDial hd _).symm.trans hd')
    rfl
  | message s lines => exact Keeps.get (fun v => Keeps.ite (Keeps.pure ()) (keeps_drainBuffer s lines)) t l hinv
  | error s => exact keeps_onError s t l hinv
  | unexpectedResponse s => exact keeps_fail s t l hinv
  | peerCloses s => exact ⟨Same.fresh ⟨rfl, rfl⟩, hinv.closeSocket s⟩
  | closed s =>
    obtain ⟨-, hflag⟩ := Bool.and_eq_true_iff.mp hadmits
    obtain ⟨d, hd, -⟩ := flag_eq_true hflag
    refine ⟨Same.fresh ⟨rfl, rfl⟩, fun h => h, ?_⟩
    refine Spec.onlyIf (fun _ => spec_onClose s) (fun _ _ _ h => h.1) _ l ⟨hinv.socketClosed s, fun d' hd' => ?_⟩
    obtain rfl := Option.some.inj ((dial?_setDial hd _).symm.trans hd')
    rfl
  | signed s ok =>
    exact ⟨Same.fresh ⟨rfl, rfl⟩, Keeps.ite (keeps_finishSigned s) (keeps_fail s) _ l
      (hinv.flag fun _ => .of_socket rfl rfl rfl rfl .inl)⟩
  | deadline s => exact keeps_fail s t l hinv
  | reconnectDue =>
    obtain ⟨-, htimer⟩ := Bool.and_eq_true_iff.mp hadmits
    have howned : Owned t := hinv.owned fun hu => absurd (htimer.symm.trans hu.reconnectTimer) nofun
    refine ⟨Same.fresh ⟨rfl, rfl⟩, spec_reconnectOnce _ l ⟨?_, howned⟩⟩
    exact hinv.timers ⟨⟨rfl, rfl⟩, rfl, rfl, rfl, rfl, rfl, fun _ h => h, fun _ _ h => ⟨rfl, h.microtasks, h.dials⟩⟩ rfl
  | microtask =>
    refine Spec.get (P := fun t _ => Inv t) (fun v => ?_) t l hinv
    cases hm : v.microtasks with
    | nil => exact Spec.pure fun _ _ h => h.2
    | cons m rest =>
      refine Spec.bind (Q := fun _ t _ => Owing m t) (Spec.modify ?_) fun _ => spec_resumeReconnect m
      rintro t l ⟨rfl, h⟩
      exact ⟨Same.fresh ⟨rfl, rfl⟩, h.owing hm⟩
  | socketConfirmed s =>
    refine ⟨Same.fresh ⟨rfl, rfl⟩, ?_⟩
    have hdeaf : Inv (t.setDial s ({ · with listening := false })) := hinv.flag fun _ => .of_socket rfl rfl rfl rfl .inl
    exact hdeaf.timers ⟨⟨rfl, rfl⟩, rfl, rfl, rfl, rfl, rfl, fun _ h => h, fun _ _ h => ⟨h.reconnectTimer, h.microtasks, h.dials⟩⟩ rfl
  | closeConfirmed =>
    obtain ⟨hand, -⟩ := Bool.and_eq_true_iff.mp hadmits
    exact ⟨Same.fresh ⟨rfl, rfl⟩, hinv.confirmed (Bool.and_eq_true_iff.mp hand).2⟩

/-! ### Every run -/

/-- The server of the current socket, once it is open and its first `PONG` was read, knows
exactly the transport's table. -/
def Exact (t : Transport) : Prop := ∀ s d, t.ws = some s → t.dial? s = some d → d.readyState = .open →
  d.established = true → d.served = t.subs.get

/-- Once no replay waits, none is owed. -/
theorem Inv.toExact (h : Inv t) (hm : t.microtasks = []) : Exact t := by
  intro s d hs hd ho hest
  obtain ⟨d', hd', hfits⟩ := h.live s hs
  obtain rfl : d = d' := Option.some.inj (hd.symm.trans hd')
  refine hfits.exact ho (.inr ⟨hest, ?_⟩)
  rw [hm]
  exact List.not_mem_nil

end Webchannel.Redial.Plugin
