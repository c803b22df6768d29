import Webchannel.Redial.Client

/-!
# The browser's NATS client keeps the server's table

Between two moves of its surroundings, the client's current socket either has never carried a
subscription or carries exactly those of the table; only while the listeners of a first `PONG`
run may the server still miss some. That is so as long as no socket is made while `connected`
is set.
-/

namespace Webchannel.Redial.Browser

open Webchannel.Reentrant Prog Contract Webchannel.Registrations

variable {c c' c'' : Client} {s s' : Nat} {d d' : Dial} {w : Option Nat}

/-! ### What stays -/

/-- Nothing but sockets, timers and requests has changed. -/
structure Same (c c' : Client) : Prop where
  given : c'.given = c.given
  sidCounter : c'.sidCounter = c.sidCounter
  subscriptions : c'.subscriptions = c.subscriptions
  terminal : c'.terminal = c.terminal

theorem Same.refl (c : Client) : Same c c := ⟨rfl, rfl, rfl, rfl⟩

theorem Same.trans (h : Same c c') (h' : Same c' c'') : Same c c'' :=
  ⟨h'.given.trans h.given, h'.sidCounter.trans h.sidCounter, h'.subscriptions.trans h.subscriptions,
    h'.terminal.trans h.terminal⟩

/-- No sid was given out twice, and the next one is new. -/
structure Fresh (c : Client) : Prop where
  nodup : c.given.Nodup
  bound : ∀ sid ∈ c.given, sid ≤ c.sidCounter

/-- What every step keeps. -/
structure Onward (c c' : Client) : Prop where
  fresh : Fresh c → Fresh c'
  terminal : c.terminal = true → c'.terminal = true

theorem Same.onward (h : Same c c') : Onward c c' where
  fresh hf := ⟨h.given ▸ hf.nodup, fun sid hsid => h.sidCounter ▸ hf.bound sid (h.given ▸ hsid)⟩
  terminal ht := h.terminal.trans ht

theorem Onward.refl (c : Client) : Onward c c := (Same.refl c).onward

theorem Onward.trans (h : Onward c c') (h' : Onward c' c'') : Onward c c'' :=
  ⟨fun hf => h'.fresh (h.fresh hf), fun ht => h'.terminal (h.terminal ht)⟩

theorem onward_of_later (h : Relation.ReflTransGen Onward c c') : Onward c c' := by
  induction h with
  | refl => exact .refl c
  | tail _ hstep ih => exact ih.trans hstep

/-! ### The invariant -/

/-- The current socket and the table. `w` names the dial whose replay is still to come. -/
structure Fits (w : Option Nat) (c : Client) (s : Nat) (d : Dial) : Prop where
  wire : d.connectOnWire = true → d.readyState ≠ .connecting
  up : c.connected = true → d.readyState ≠ .connecting
  offline : c.connected = false → d.readyState ≠ .closed → d.established = false ∧ ∀ sid, d.served sid = none
  within : c.connected = true → d.readyState = .open → Within d.served c.subscriptions.get
  exact : c.connected = true → d.readyState = .open → w ≠ some s → d.served = c.subscriptions.get

structure Inv (w : Option Nat) (c : Client) : Prop where
  keys : ∀ sid, c.sidCounter < sid → c.subscriptions.get sid = none
  down : c.connected = true → c.ws = none → c.terminal = true
  retired : c.terminal = true → c.ws = none
  live : ∀ s, c.ws = some s → ∃ d, c.dial? s = some d ∧ Fits w c s d

theorem inv_init (options : Options) : Inv none (Client.init options) := ⟨fun _ _ => rfl, nofun, nofun, nofun⟩

/-- Once the dial is not current, nothing is left to be replayed on it. -/
theorem Inv.settled (h : Inv (some s) c) (hs : c.ws ≠ some s) : Inv none c where
  keys := h.keys
  down := h.down
  retired := h.retired
  live s' hs' := by
    obtain ⟨d, hd, hfits⟩ := h.live s' hs'
    refine ⟨d, hd, hfits.wire, hfits.up, hfits.offline, hfits.within, fun hc ho _ => ?_⟩
    refine hfits.exact hc ho fun hw => hs ?_
    rw [hs', ← hw]

/-- A client without a socket keeps its table for the next dial. -/
theorem Inv.gone (h : Inv w c) (hsid : c'.sidCounter = c.sidCounter) (hsubs : c'.subscriptions = c.subscriptions)
    (hws : c'.ws = none) (hconn : c'.connected = false) : Inv w c' where
  keys sid hlt := by rw [hsubs]; exact h.keys sid (hsid ▸ hlt)
  down hc := by rw [hconn] at hc; cases hc
  retired _ := hws
  live s hs := by rw [hws] at hs; cases hs

/-- A dial that is not behind: no state is entered anew, and the same commands were sent. -/
structure Ahead (c : Client) (d d' : Dial) : Prop where
  connecting : d'.readyState = .connecting → d.readyState = .connecting
  wire : d'.connectOnWire = true → d.connectOnWire = true ∨ d'.readyState ≠ .connecting
  opens : c.connected = true → d'.readyState = .open → d.readyState = .open
  closed : d.readyState = .closed → d'.readyState = .closed
  established : c.connected = false → d'.established = d.established
  served : d'.served = d.served

theorem Ahead.of_socket (hsocket : d'.toSocket = d.toSocket)
    (hest : c.connected = false → d'.established = d.established)
    (hwire : d'.connectOnWire = true → d.connectOnWire = true ∨ d'.readyState ≠ .connecting) : Ahead c d d' where
  connecting h := (congrArg Socket.readyState hsocket) ▸ h
  wire := hwire
  opens _ h := (congrArg Socket.readyState hsocket) ▸ h
  closed h := (congrArg Socket.readyState hsocket).trans h
  established := hest
  served := congrArg Socket.served hsocket

theorem Ahead.close {b : Bool} : Ahead c d { d with toSocket := d.toSocket.close, attached := b } where
  connecting h := absurd h Socket.readyState_close_ne_open.2
  wire h := .inl h
  opens _ h := absurd h Socket.readyState_close_ne_open.1
  closed h := by simp [Socket.close, ReadyState.close, h]
  established _ := rfl
  served := rfl

theorem Fits.ahead (h : Fits w c s d) (ha : Ahead c d d') : Fits w c s d' where
  wire hw hc := (ha.wire hw).elim (fun hw => h.wire hw (ha.connecting hc)) fun hne => hne hc
  up hc hs := h.up hc (ha.connecting hs)
  offline hc hne := by
    obtain ⟨hest, hserved⟩ := h.offline hc fun hclosed => hne (ha.closed hclosed)
    exact ⟨(ha.established hc).trans hest, fun sid => ha.served ▸ hserved sid⟩
  within hc ho := ha.served ▸ h.within hc (ha.opens hc ho)
  exact hc ho hw := ha.served ▸ h.exact hc (ha.opens hc ho) hw

/-- What the invariant says of a dial depends on the flag and the table only. -/
theorem Fits.congr (h : Fits w c s d) (hconn : c'.connected = c.connected)
    (hsubs : c'.subscriptions = c.subscriptions) : Fits w c' s d where
  wire := h.wire
  up hc := h.up (hconn ▸ hc)
  offline hc := h.offline (hconn ▸ hc)
  within hc ho := hsubs ▸ h.within (hconn ▸ hc) ho
  exact hc ho hw := hsubs ▸ h.exact (hconn ▸ hc) ho hw

/-- Nothing that the invariant speaks about has changed but the sockets, and they are ahead. -/
theorem Inv.dials (h : Inv w c) (hsame : Same c c') (hws : c'.ws = c.ws) (hconn : c'.connected = c.connected)
    (hdial : ∀ s d, c.ws = some s → c.dial? s = some d → Fits w c s d →
      ∃ d', c'.dial? s = some d' ∧ Ahead c d d') : Inv w c' where
  keys sid hlt := by rw [hsame.subscriptions]; exact h.keys sid (hsame.sidCounter ▸ hlt)
  down hc hn := hsame.terminal.trans (h.down (hconn ▸ hc) (hws ▸ hn))
  retired ht := hws.trans (h.retired (hsame.terminal ▸ ht))
  live s hs := by
    obtain ⟨d, hd, hfits⟩ := h.live s (hws ▸ hs)
    obtain ⟨d', hd', ha⟩ := hdial s d (hws ▸ hs) hd hfits
    exact ⟨d', hd', (hfits.ahead ha).congr hconn hsame.subscriptions⟩

/-- The sockets are as they were. -/
theorem Inv.timers (h : Inv w c) (hsame : Same c c') (hws : c'.ws = c.ws) (hconn : c'.connected = c.connected)
    (hdials : c'.dials = c.dials) : Inv w c' := by
  refine h.dials hsame hws hconn fun s d hs hd _ => ⟨d, ?_, .of_socket rfl (fun _ => rfl) .inl⟩
  exact (congrArg (·.get s) hdials).trans hd

theorem same_setDial (c : Client) (s : Nat) (f : Dial → Dial) : Same c (c.setDial s f) := ⟨rfl, rfl, rfl, rfl⟩

theorem dial?_setDial (hd : c.dial? s = some d) (f : Dial → Dial) : (c.setDial s f).dial? s = some (f d) :=
  Heap.get_update_self hd

theorem dial?_setDial_of_ne (hne : s' ≠ s) (f : Dial → Dial) : (c.setDial s f).dial? s' = c.dial? s' :=
  Heap.get_update_of_ne hne

theorem Inv.setDial (h : Inv w c) {f : Dial → Dial}
    (hf : ∀ d, c.ws = some s → c.dial? s = some d → Fits w c s d → Ahead c d (f d)) : Inv w (c.setDial s f) := by
  refine h.dials (same_setDial c s f) rfl rfl fun s' d hs hd hfits => ?_
  by_cases hne : s' = s
  · subst hne
    exact ⟨f d, dial?_setDial hd f, hf d hs hd hfits⟩
  · exact ⟨d, (dial?_setDial_of_ne hne f).trans hd, .of_socket rfl (fun _ => rfl) .inl⟩

/-- A closure variable is assigned. -/
theorem Inv.flag (h : Inv w c) {f : Dial → Dial} (hsocket : ∀ d, (f d).toSocket = d.toSocket)
    (hest : ∀ d, (f d).established = d.established) (hwire : ∀ d, (f d).connectOnWire = d.connectOnWire) :
    Inv w (c.setDial s f) :=
  h.setDial fun d _ _ _ => .of_socket (hsocket d) (fun _ => hest d) fun hw => .inl (hwire d ▸ hw)

theorem Inv.close (h : Inv w c) (s : Nat) : Inv w (c.setDial s fun d => { d with toSocket := d.toSocket.close }) :=
  h.setDial fun _ _ _ _ => .close

/-- A command that is none of the subscriptions'. -/
theorem Inv.sendOn (h : Inv w c) {line : Wire} (hline : line.command = none) : Inv w (c.sendOn s line) := by
  refine h.setDial fun d _ _ _ => ⟨fun hc => ?_, .inl, fun _ ho => ?_, fun hc => ?_, fun _ => rfl, ?_⟩
  · exact (Socket.readyState_send line d.toSocket) ▸ hc
  · exact (Socket.readyState_send line d.toSocket) ▸ ho
  · exact (Socket.readyState_send line d.toSocket).trans hc
  · exact Socket.served_send_plain hline

theorem Inv.send (h : Inv w c) {line : Wire} (hline : line.command = none) : Inv w (c.send line) := by
  unfold Client.send
  split
  · exact h
  · exact h.sendOn hline

theorem same_send (c : Client) (line : Wire) : Same c (c.send line) := by
  unfold Client.send
  split
  · exact .refl c
  · exact same_setDial ..

/-! ### Giving a socket up -/

theorem same_cleanActiveDial (c : Client) : Same c c.cleanActiveDial := by
  unfold Client.cleanActiveDial
  split <;> exact ⟨rfl, rfl, rfl, rfl⟩

theorem same_detach (c : Client) : Same c c.detach := by
  unfold Client.detach
  split <;> exact ⟨rfl, rfl, rfl, rfl⟩

theorem ws_detach (c : Client) : c.detach.ws = none := by
  unfold Client.detach
  split
  · assumption
  · rfl

theorem connected_detach (c : Client) : c.detach.connected = c.connected := by
  unfold Client.detach
  split <;> rfl

theorem same_hangUp (c : Client) : Same c c.hangUp := by
  let c₁ : Client := { c with lifecycleGeneration := c.lifecycleGeneration + 1 }
  have hstart : Same c c₁.clearReconnectTimer.stopHeartbeat := ⟨rfl, rfl, rfl, rfl⟩
  have hdetach := (hstart.trans (same_cleanActiveDial _)).trans (same_detach _)
  exact ⟨hdetach.given, hdetach.sidCounter, hdetach.subscriptions, hdetach.terminal⟩

theorem same_tearDown (c : Client) : Same c c.tearDown := by
  have hstart : Same c c.stopHeartbeat := ⟨rfl, rfl, rfl, rfl⟩
  have hclean := hstart.trans (same_cleanActiveDial _)
  have hoff : Same c { c.stopHeartbeat.cleanActiveDial with connected := false } :=
    ⟨hclean.given, hclean.sidCounter, hclean.subscriptions, hclean.terminal⟩
  exact hoff.trans (same_detach _)

theorem Inv.hangUp (h : Inv w c) : Inv w c.hangUp :=
  h.gone (same_hangUp c).sidCounter (same_hangUp c).subscriptions (ws_detach _) rfl

theorem Inv.tearDown (h : Inv w c) : Inv w c.tearDown :=
  h.gone (same_tearDown c).sidCounter (same_tearDown c).subscriptions (ws_detach _) (connected_detach _)

/-- What a retired client starts its teardown from. -/
theorem same_retire (c : Client) : Same { c with terminal := true } c.retire := by
  have htimer : Same { c with terminal := true } { c with terminal := true }.clearReconnectTimer := ⟨rfl, rfl, rfl, rfl⟩
  exact htimer.trans (same_tearDown _)

theorem terminal_retire (c : Client) : c.retire.terminal = true := (same_retire c).terminal

theorem onward_retire (c : Client) : Onward c c.retire where
  fresh hf := (same_retire c).onward.fresh ⟨hf.nodup, hf.bound⟩
  terminal _ := terminal_retire c

theorem Inv.retire (h : Inv w c) : Inv w c.retire :=
  h.gone (same_retire c).sidCounter (same_retire c).subscriptions (ws_detach _) (connected_detach _)

theorem same_scheduleReconnect (c : Client) : Same c c.scheduleReconnect := by
  unfold Client.scheduleReconnect
  split <;> exact ⟨rfl, rfl, rfl, rfl⟩

theorem Inv.scheduleReconnect (h : Inv w c) : Inv w c.scheduleReconnect := by
  unfold Client.scheduleReconnect
  split
  · exact h
  · exact h.timers ⟨rfl, rfl, rfl, rfl⟩ rfl rfl rfl


/-! ### Subscriptions -/

theorem isOpen_eq (hws : c.ws = some s) (hd : c.dial? s = some d) : c.isOpen = (d.readyState == .open) := by
  simp only [Client.isOpen, Client.readyState, hws, Option.bind_some]
  rw [show c.dials.get s = some d from hd]
  rfl

theorem isOpen_none (hws : c.ws = none) : c.isOpen = false := by
  simp [Client.isOpen, Client.readyState, hws]

/-- The table of a connected client changes in one place and the server is told. -/
theorem Inv.tell (h : Inv w c) (sid : Nat) (o : Option Subject) (line : Wire) (hws : c.ws = some s)
    (hconn : c.connected = true) {command : Command Nat Subject} (hline : line.command = some command)
    (hsids : c.sidCounter ≤ c'.sidCounter) (hsid : o.isSome = true → sid ≤ c'.sidCounter)
    (hsubs : c'.subscriptions.get = Function.update c.subscriptions.get sid o)
    (hknown : ∀ known, Within known c.subscriptions.get → process known command = Function.update known sid o)
    (hsame : c'.ws = c.ws ∧ c'.connected = c.connected ∧ c'.terminal = c.terminal ∧ c'.dials = (c.sendOn s line).dials) :
    Inv w c' := by
  obtain ⟨hws', hconn', hterminal, hdials⟩ := hsame
  refine ⟨fun sid' hlt => ?_, fun _ hn => ?_, fun ht => ?_, fun s' hs' => ?_⟩
  · rw [hsubs]
    by_cases hne : sid' = sid
    · subst hne
      rw [Function.update_self]
      cases o with
      | none => rfl
      | some subject => exact absurd (hsid rfl) (Nat.not_le_of_lt hlt)
    · rw [Function.update_of_ne hne]
      exact h.keys sid' (Nat.lt_of_le_of_lt hsids hlt)
  · exact absurd (hws.symm.trans (hws'.symm.trans hn)) nofun
  · exact absurd (hws.symm.trans (h.retired (hterminal ▸ ht))) nofun
  · obtain rfl : s = s' := Option.some.inj (hws.symm.trans (hws'.symm.trans hs'))
    obtain ⟨d, hd, hfits⟩ := h.live s hws
    have hstate : (d.toSocket.send line).readyState = d.readyState := Socket.readyState_send ..
    have hserved (ho : d.readyState = .open) : (d.toSocket.send line).served = Function.update d.served sid o :=
      (Socket.served_send ho hline).trans (hknown _ (hfits.within hconn ho))
    refine ⟨_, (congrArg (·.get s) hdials).trans (dial?_setDial hd _), fun hw hc => ?_, fun _ hc => ?_, fun hc => ?_,
      fun _ ho => ?_, fun _ ho hw => ?_⟩
    · exact hfits.wire hw (hstate ▸ hc)
    · exact hfits.up hconn (hstate ▸ hc)
    · exact absurd (hconn.symm.trans (hconn'.symm.trans hc)) nofun
    · have hopen : d.readyState = .open := hstate ▸ ho
      exact (congrArg (Within · c'.subscriptions.get) (hserved hopen)).mpr
        (hsubs ▸ (hfits.within hconn hopen).update sid o)
    · have hopen : d.readyState = .open := hstate ▸ ho
      refine (hserved hopen).trans ?_
      rw [hfits.exact hconn hopen hw, hsubs]

theorem Inv.subscribe (h : Inv w c) (subject : Subject) : Inv w (c.subscribe subject) := by
  unfold Client.subscribe
  split
  · exact h
  rename_i hcond
  cases hws : c.ws with
  | none => simp [hws] at hcond
  | some s =>
    have hconn : c.connected = true := by simpa [hws] using hcond
    have hnew : c.subscriptions.get (c.sidCounter + 1) = none := h.keys _ (Nat.lt_succ_self _)
    refine h.tell (c.sidCounter + 1) (some subject) (.sub subject (c.sidCounter + 1)) hws hconn rfl
      (Nat.le_succ _) (fun _ => Nat.le_refl _) (get_set_update ..) (fun known hwithin => ?_) ⟨hws.symm, rfl, rfl, rfl⟩
    exact process_register_fresh (hwithin.none_of_none hnew)

theorem onward_subscribe (c : Client) (subject : Subject) : Onward c (c.subscribe subject) := by
  unfold Client.subscribe
  split
  · exact .refl c
  · refine ⟨fun hf => (same_send _ _).onward.fresh ⟨?_, fun sid hsid => ?_⟩, fun ht => (same_send _ _).terminal.trans ht⟩
    · refine List.nodup_cons.mpr ⟨fun hmem => ?_, hf.nodup⟩
      exact Nat.not_succ_le_self _ (hf.bound _ hmem)
    · rcases List.mem_cons.mp hsid with rfl | hold
      · exact Nat.le_refl _
      · exact Nat.le_succ_of_le (hf.bound sid hold)

theorem Inv.unsubscribe (h : Inv w c) (sid : Nat) : Inv w (c.unsubscribe sid) := by
  have htable := get_delete_update c.subscriptions sid
  have hkeys : ∀ sid', c.sidCounter < sid' → (c.subscriptions.delete sid).get sid' = none := by
    intro sid' hlt
    rw [OrderedMap.get_delete_eq, h.keys sid' hlt, ite_self]
  unfold Client.unsubscribe
  dsimp only
  split
  · rename_i hcond
    obtain ⟨hconn, hopen⟩ : c.connected = true ∧ c.isOpen = true := by
      rw [Bool.and_eq_true] at hcond
      exact hcond
    cases hws : c.ws with
    | none => simp [isOpen_none hws] at hopen
    | some s =>
      exact h.tell sid none (.unsub sid) hws hconn rfl (Nat.le_refl _) nofun htable
        (fun _ _ => rfl) ⟨hws.symm, rfl, rfl, rfl⟩
  · rename_i hcond
    refine ⟨hkeys, h.down, h.retired, fun s hws => ?_⟩
    obtain ⟨d, hd, hfits⟩ := h.live s hws
    have hnot : c.connected = true → d.readyState ≠ .open := by
      intro hc ho
      apply hcond
      rw [Bool.and_eq_true]
      exact ⟨hc, (isOpen_eq hws hd).trans (by rw [ho]; rfl)⟩
    exact ⟨d, hd, hfits.wire, hfits.up, hfits.offline, fun hc ho => absurd ho (hnot hc),
      fun hc ho => absurd ho (hnot hc)⟩

theorem onward_unsubscribe (c : Client) (sid : Nat) : Onward c (c.unsubscribe sid) := by
  unfold Client.unsubscribe
  dsimp only
  have hdelete : Onward c { c with subscriptions := c.subscriptions.delete sid } :=
    ⟨fun hf => ⟨hf.nodup, hf.bound⟩, fun ht => ht⟩
  split
  · exact hdelete.trans (same_send _ _).onward
  · exact hdelete

theorem same_publishWithReply (c : Client) (subject replyTo : Subject) (payload : String) :
    Same c (c.publishWithReply subject replyTo payload) := by
  unfold Client.publishWithReply
  split
  · exact .refl c
  · exact same_send _ _

theorem Inv.publishWithReply (h : Inv w c) (subject replyTo : Subject) (payload : String) :
    Inv w (c.publishWithReply subject replyTo payload) := by
  unfold Client.publishWithReply
  split
  · exact h
  · exact h.send rfl

theorem Inv.request (h : Inv w c) (subject replySubject : Subject) (payload : String) :
    Inv w (c.request subject replySubject payload) := by
  unfold Client.request
  split
  · exact h
  have hsub := h.subscribe replySubject
  dsimp only
  split
  · exact hsub
  · have hpending : Inv w { c.subscribe replySubject with
        pendingRequests := (c.sidCounter + 1) :: (c.subscribe replySubject).pendingRequests } :=
      hsub.timers ⟨rfl, rfl, rfl, rfl⟩ rfl rfl rfl
    exact hpending.publishWithReply ..

theorem onward_request (c : Client) (subject replySubject : Subject) (payload : String) :
    Onward c (c.request subject replySubject payload) := by
  unfold Client.request
  split
  · exact .refl c
  dsimp only
  have hsub := onward_subscribe c replySubject
  split
  · exact hsub
  · refine hsub.trans (Same.onward ?_)
    have hpub := same_publishWithReply { c.subscribe replySubject with
      pendingRequests := (c.sidCounter + 1) :: (c.subscribe replySubject).pendingRequests } subject replySubject payload
    exact ⟨hpub.given, hpub.sidCounter, hpub.subscriptions, hpub.terminal⟩

theorem Inv.settleRequest (h : Inv w c) (sid : Nat) : Inv w (c.settleRequest sid) := by
  have hrequests : Inv w { c with pendingRequests := c.pendingRequests.erase sid } :=
    h.timers ⟨rfl, rfl, rfl, rfl⟩ rfl rfl rfl
  exact hrequests.unsubscribe sid

/-! ### Dialling -/

/-- A dial starts with nothing to be served, so the client must not be connected yet. -/
theorem Inv.dialNew (h : Inv w c) (hterminal : c.terminal = false) (hconn : c.connected = false) :
    Inv w c.dialNew where
  keys := h.keys
  down hc := by
    have hfalse : c.connected = true := hc
    rw [hconn] at hfalse
    cases hfalse
  retired ht := by
    have htrue : c.terminal = true := ht
    rw [hterminal] at htrue
    cases htrue
  live s hs := by
    obtain rfl : c.dials.next = s := Option.some.inj hs
    have hoff : c.dialNew.connected = true → False := fun hc => by
      have hfalse : c.connected = true := hc
      rw [hconn] at hfalse
      cases hfalse
    exact ⟨_, Heap.get_alloc_next _ _, nofun, fun hc => (hoff hc).elim, fun _ _ => ⟨rfl, fun _ => rfl⟩,
      fun hc => (hoff hc).elim, fun hc => (hoff hc).elim⟩

/-- Where no dial happens while `connected` is set, a client that would dial is not connected. -/
theorem Inv.dials_offline (h : Inv w c) (hwould : c.wouldDial = true) (hok : ¬ (c.wouldDial = true ∧ c.connected = true)) :
    Inv w c.dialNew := by
  have hterminal : c.terminal = false := by
    cases ht : c.terminal with
    | false => rfl
    | true => simp [Client.wouldDial, ht] at hwould
  refine h.dialNew hterminal ?_
  cases hc : c.connected with
  | false => rfl
  | true => exact absurd ⟨hwould, hc⟩ hok

/-- `CONNECT` goes out on an open socket. -/
theorem Inv.sendConnect (h : Inv w c) (hopen : ∀ d, c.ws = some s → c.dial? s = some d → d.readyState = .open) :
    Inv w (c.sendConnect s) := by
  have hwire : Inv w (c.setDial s ({ · with connectOnWire := true })) := by
    refine h.setDial fun d hs hd _ => .of_socket rfl (fun _ => rfl) fun _ => .inr ?_
    rw [show d.readyState = .open from hopen d hs hd]
    exact nofun
  have hdeadline : Inv w ((c.setDial s ({ · with connectOnWire := true })).armDeadline s) :=
    hwire.flag (fun _ => rfl) (fun _ => rfl) fun _ => rfl
  exact (hdeadline.sendOn rfl).sendOn rfl

theorem same_sendConnect (c : Client) (s : Nat) : Same c (c.sendConnect s) := ⟨rfl, rfl, rfl, rfl⟩

/-! ### The replay -/

theorem foldl_send (hws : c.ws = some s) (hd : c.dial? s = some d) (lines : List Wire) :
    lines.foldl (fun c line => if c.connected && c.isOpen then c.send line else c) c =
      if c.connected = true ∧ d.readyState = .open then
        c.setDial s fun d => { d with toSocket := d.toSocket.sendAll lines }
      else c := by
  induction lines generalizing c d with
  | nil =>
    rw [List.foldl_nil]
    split
    · exact (congrArg (fun dials => { c with dials }) (Heap.update_eq_self fun d _ => rfl)).symm
    · rfl
  | cons line lines ih =>
    rw [List.foldl_cons, isOpen_eq hws hd]
    by_cases hcond : c.connected = true ∧ d.readyState = .open
    · have hsent : c.send line = c.sendOn s line := by simp only [Client.send, hws]
      have hopen : (d.toSocket.send line).readyState = .open := (Socket.readyState_send ..).trans hcond.2
      rw [if_pos (by simp [hcond]), if_pos hcond, hsent, ih (c := c.sendOn s line) hws (dial?_setDial hd _),
        if_pos ⟨hcond.1, hopen⟩]
      exact congrArg (fun dials => { c with dials }) (Heap.update_update ..)
    · rw [if_neg (by simpa using hcond), ih hws hd, if_neg hcond, if_neg hcond]

/-- After the replay nothing is missing any more. -/
theorem Inv.resubscribeAll (h : Inv (some s) c) (hws : c.ws = some s) : Inv none c.resubscribeAll := by
  obtain ⟨d, hd, hfits⟩ := h.live s hws
  unfold Client.resubscribeAll
  rw [foldl_send hws hd]
  split
  · rename_i hcond
    obtain ⟨hconn, hopen⟩ := hcond
    refine ⟨h.keys, h.down, h.retired, fun s' hs' => ?_⟩
    obtain rfl : s = s' := Option.some.inj (hws.symm.trans hs')
    have hserved := Socket.served_replay (s := d.toSocket) hopen (hfits.within hconn hopen)
    refine ⟨_, dial?_setDial hd _, fun hw => ?_, fun _ => ?_, fun hc => ?_, fun _ _ => ?_, fun _ _ _ => hserved⟩
    · exact (Socket.readyState_sendAll ..).symm ▸ hfits.wire hw
    · exact (Socket.readyState_sendAll ..).symm ▸ hfits.up hconn
    · exact absurd (hconn.symm.trans hc) nofun
    · exact hserved.symm ▸ Within.refl _
  · rename_i hcond
    refine ⟨h.keys, h.down, h.retired, fun s' hs' => ?_⟩
    obtain rfl : s = s' := Option.some.inj (hws.symm.trans hs')
    exact ⟨d, hd, hfits.wire, hfits.up, hfits.offline, hfits.within, fun hc ho _ => absurd ⟨hc, ho⟩ hcond⟩

theorem same_resubscribeAll (c : Client) : Same c c.resubscribeAll := by
  unfold Client.resubscribeAll
  generalize replayLines c.subscriptions = lines
  induction lines generalizing c with
  | nil => exact .refl c
  | cons line lines ih =>
    rw [List.foldl_cons]
    split
    · exact (same_send c line).trans (ih _)
    · exact ih c

theorem ws_send (c : Client) (line : Wire) : (c.send line).ws = c.ws := by
  unfold Client.send
  split <;> rfl

theorem ws_resubscribeAll (c : Client) : c.resubscribeAll.ws = c.ws := by
  unfold Client.resubscribeAll
  generalize replayLines c.subscriptions = lines
  induction lines generalizing c with
  | nil => rfl
  | cons line lines ih =>
    rw [List.foldl_cons]
    split
    · exact (ih _).trans (ws_send c line)
    · exact ih c

theorem same_startHeartbeat (c : Client) : Same c c.startHeartbeat := by
  unfold Client.startHeartbeat
  split <;> exact ⟨rfl, rfl, rfl, rfl⟩

theorem ws_startHeartbeat (c : Client) : c.startHeartbeat.ws = c.ws := by
  unfold Client.startHeartbeat
  split <;> rfl

theorem Inv.startHeartbeat (h : Inv w c) : Inv w c.startHeartbeat := by
  unfold Client.startHeartbeat
  split
  · exact h
  · exact h.timers ⟨rfl, rfl, rfl, rfl⟩ rfl rfl rfl

/-! ### The contract -/

def contract : Contract Client Ask Answer Out Entry (Option Nat) where
  inv w c _ := Inv w c
  changes := Onward
  atAct _ _ _ := True
  okAnswer _ _ _ := True
  okEnter _ c _ e := ¬ DialsWhileConnected c e
  base := none
  changes_refl := Onward.refl

/-- What the listeners of a notification keep besides the invariant. -/
def Lasting (F : Client → Prop) : Prop := ∀ c c', Onward c c' → F c → F c'

theorem lasting_true : Lasting fun _ => True := fun _ _ _ h => h

theorem lasting_terminal : Lasting fun c => c.terminal = true := fun _ _ h ht => h.terminal ht

theorem keeps_notify {F : Client → Prop} (hF : Lasting F) (out : Client → Out) (current : Option Nat) :
    contract.Keeps (fun c _ => Inv w c ∧ F c) (notify out current) := by
  refine Keeps.loop fun _ => Keeps.bind (Keeps.query _) fun more => Keeps.get fun v => ?_
  refine Keeps.ite (Keeps.bind ?_ fun _ => Keeps.pure _) (Keeps.pure _)
  exact Spec.call fun c t h => ⟨trivial, w, h.1, fun c' t' hl _ h' => ⟨h', hF c c' (onward_of_later hl) h.2⟩⟩

theorem keeps_notifies (out : Client → Out) (current : Option Nat) :
    contract.Keeps (fun c _ => Inv w c) (notify out current) :=
  ((keeps_notify lasting_true out current).pre fun _ _ h => ⟨h, trivial⟩).post fun _ _ _ h => h.1

theorem keeps_modify {f : Client → Client} (honward : ∀ c, Onward c (f c)) (hinv : ∀ c, Inv w c → Inv w (f c)) :
    contract.Keeps (fun c _ => Inv w c) (modify f) :=
  Spec.modify fun c _ h => ⟨honward c, hinv c h⟩

theorem keeps_disconnect : contract.Keeps (fun c _ => Inv w c) disconnect :=
  Keeps.bind (keeps_modify (fun c => (same_hangUp c).onward) fun _ h => h.hangUp) fun _ => keeps_notifies _ _

theorem keeps_forceReconnect : contract.Keeps (fun c _ => Inv w c) forceReconnect := by
  refine Keeps.bind (keeps_modify (fun c => (same_tearDown c).onward) fun _ h => h.tearDown) fun _ => Keeps.get fun v => ?_
  refine Keeps.bind (keeps_notifies _ _) fun _ => keeps_modify (fun c => ?_) fun c h => ?_
  · split
    · exact .refl c
    · exact (same_scheduleReconnect c).onward
  · split
    · exact h
    · exact h.scheduleReconnect

/-- A terminal failure leaves the client terminal, whatever its listeners do. -/
theorem spec_failTerminally : contract.Spec (fun c _ => Inv w c) failTerminally
    fun _ c _ => Inv w c ∧ c.terminal = true := by
  refine Spec.get fun v => Spec.onlyIf (fun _ => ?_) fun hv c t h => ?_
  · refine Spec.bind (Q := fun _ c _ => Inv w c ∧ c.terminal = true) (Spec.modify fun c t h => ?_) fun _ => ?_
    · exact ⟨onward_retire c, h.2.retire, terminal_retire c⟩
    · exact Keeps.bind (keeps_notify lasting_terminal _ _) fun _ => keeps_notify lasting_terminal _ _
  · obtain ⟨rfl, h⟩ := h
    exact ⟨h, by simpa using hv⟩

theorem keeps_failTerminally : contract.Keeps (fun c _ => Inv w c) failTerminally :=
  spec_failTerminally.post fun _ _ _ h => h.1

theorem keeps_publish (subject : Subject) (payload : String) :
    contract.Keeps (fun c _ => Inv w c) (publish subject payload) := by
  refine Keeps.get fun v => Keeps.ite (Keeps.pure ()) (Keeps.ite keeps_forceReconnect ?_)
  refine Keeps.bind (Keeps.query _) fun throws => Keeps.ite keeps_forceReconnect ?_
  exact keeps_modify (fun c => (same_send _ _).onward) fun _ h => h.send rfl

theorem spec_connectInternal : contract.Spec
    (fun c _ => Inv w c ∧ ¬ (c.wouldDial = true ∧ c.connected = true)) connectInternal fun _ c _ => Inv w c := by
  refine Spec.get fun v => Spec.onlyIf (fun hv => ?_) fun _ c t h => h.2.1
  refine Spec.bind (Spec.query (Q := fun _ c t => c = v ∧ Inv w c ∧ ¬ (c.wouldDial = true ∧ c.connected = true))
    fun c t a h _ => h) fun made => Spec.onlyIf (fun _ => ?_) fun _ c t h => h.2.1
  refine Spec.modify fun c t h => ⟨Same.onward ⟨rfl, rfl, rfl, rfl⟩, ?_⟩
  obtain ⟨rfl, hinv, hok⟩ := h
  exact hinv.dials_offline hv hok

/-! ### Reading -/

theorem open_of_isOpen (hopen : c.isOpen = true) (hws : c.ws = some s) (hd : c.dial? s = some d) :
    d.readyState = .open := by
  simp only [Client.isOpen, Client.readyState, hws, Option.bind_some] at hopen
  rw [show c.dials.get s = some d from hd] at hopen
  simpa using hopen

theorem keeps_finishSigned (s : Nat) : contract.Keeps (fun c _ => Inv w c) (finishSigned s) := by
  refine keeps_modify (fun c => ?_) fun c h => ?_
  · split
    · exact .refl c
    · exact (same_sendConnect c s).onward
  · split
    · exact h
    · rename_i hcond
      refine h.sendConnect fun d hs hd => open_of_isOpen ?_ hs hd
      simpa [hs] using hcond

theorem keeps_signingFailed (s : Nat) : contract.Keeps (fun c _ => Inv w c) (signingFailed s) :=
  Keeps.get fun _ => Keeps.onlyIf keeps_failTerminally

/-- The dial that reads is current, or the client has been retired by what it read. -/
def Reads (s : Nat) (c : Client) : Prop := c.ws = some s ∨ c.terminal = true

theorem spec_modify_reads {f : Client → Client} (hsame : ∀ c, Same c (f c)) (hws : ∀ c, (f c).ws = c.ws)
    (hinv : ∀ c, Inv w c → Inv w (f c)) :
    contract.Keeps (fun c _ => Inv w c ∧ Reads s c) (modify f) := by
  refine Spec.modify fun c t h => ⟨(hsame c).onward, hinv c h.1, ?_⟩
  exact h.2.imp (hws c).trans (hsame c).terminal.trans

theorem keeps_sendSignedConnect (s : Nat) : contract.Keeps (fun c _ => Inv w c ∧ Reads s c) (sendSignedConnect s) := by
  refine Keeps.bind (Keeps.query _) fun signing => ?_
  cases signing with
  | later => exact spec_modify_reads (fun c => same_setDial ..) (fun _ => rfl) fun _ h => h.flag (fun _ => rfl) (fun _ => rfl) fun _ => rfl
  | signed =>
    refine Spec.modify fun c t h => ?_
    have hsafe := keeps_finishSigned (w := w) s c t h.1
    refine ⟨hsafe.1, hsafe.2, ?_⟩
    split
    · exact h.2
    · exact h.2
  | failed =>
    refine Spec.get fun v => Spec.onlyIf (fun hv => ?_) fun hv c t h => h.2
    exact (spec_failTerminally.pre fun c t h => h.2.1).post fun _ c t h => ⟨h.1, .inr h.2⟩

/-- The first `PONG`: the listeners run while the replay is still to come. -/
theorem spec_onPong {next : Code Unit} (hnext : contract.Spec (fun c _ => Inv none c ∧ Reads s c) next fun _ c _ => Inv none c) :
    contract.Spec (fun c _ => (Inv none c ∧ Reads s c) ∧ c.connectOnWire s = true) (onPong s next) fun _ c _ => Inv none c := by
  let mark (c : Client) : Client :=
    { (c.clearDeadline s).setDial s ({ · with established := true }) with pongPending := false }
  have hsame (c : Client) : Same c (mark c) := ⟨rfl, rfl, rfl, rfl⟩
  have hmark {c : Client} {s' : Nat} {d : Dial} (hd : c.dial? s' = some d) :
      ∃ d', (mark c).dial? s' = some d' ∧ d'.toSocket = d.toSocket ∧ d'.connectOnWire = d.connectOnWire := by
    by_cases hne : s' = s
    · subst hne
      exact ⟨_, dial?_setDial (dial?_setDial hd _) _, rfl, rfl⟩
    · refine ⟨d, ?_, rfl, rfl⟩
      exact (dial?_setDial_of_ne (c := c.clearDeadline s) hne _).trans ((dial?_setDial_of_ne hne _).trans hd)
  refine Spec.bind (Q := fun _ c _ => ∃ c₀, ((Inv none c₀ ∧ Reads s c₀) ∧ c₀.connectOnWire s = true) ∧ c = mark c₀)
    (Spec.modify fun c t h => ⟨(hsame c).onward, c, h, rfl⟩) fun _ => Spec.get fun v => Spec.ite (fun hv => ?_) fun hv => ?_
  · refine hnext.pre ?_
    rintro c t ⟨rfl, c₀, ⟨⟨hinv, hreads⟩, -⟩, rfl⟩
    have hconn : c₀.connected = true := hv
    refine ⟨hinv.dials (hsame c₀) rfl rfl fun s' d hs hd _ => ?_, hreads⟩
    obtain ⟨d', hd', hsocket, hwire⟩ := hmark hd
    exact ⟨d', hd', .of_socket hsocket (fun hc => absurd (hconn.symm.trans hc) nofun) fun hw => .inl (hwire ▸ hw)⟩
  · refine Spec.bind (Q := fun _ c _ => Inv (some s) c) (Spec.modify ?_) fun _ => ?_
    · rintro c t ⟨rfl, c₀, ⟨⟨hinv, hreads⟩, hwired⟩, rfl⟩
      have hconn : c₀.connected = false := Bool.eq_false_iff.mpr hv
      refine ⟨Same.onward ⟨rfl, rfl, rfl, rfl⟩, hinv.keys, fun _ hn => ?_, hinv.retired, fun s' hs' => ?_⟩
      · rcases hreads with hs | ht
        · exact absurd (hs.symm.trans hn) nofun
        · exact ht
      · obtain ⟨d, hd, hfits⟩ := hinv.live s' hs'
        have hs : c₀.ws = some s := by
          rcases hreads with hs | ht
          · exact hs
          · exact absurd ((hinv.retired ht).symm.trans hs') nofun
        obtain rfl : s' = s := Option.some.inj (hs'.symm.trans hs)
        obtain ⟨d', hd', hsocket, hwire⟩ := hmark hd
        have hwired' : d.connectOnWire = true := by simpa [Client.connectOnWire, hd] using hwired
        have hstate : d'.readyState = d.readyState := congrArg Socket.readyState hsocket
        have hserved : d'.served = d.served := congrArg Socket.served hsocket
        refine ⟨d', hd', fun _ => hstate ▸ hfits.wire hwired', fun _ => hstate ▸ hfits.wire hwired', nofun,
          fun _ ho => ?_, fun _ _ hw => absurd rfl hw⟩
        have hnone := (hfits.offline hconn (by rw [← hstate, ho]; exact nofun)).2
        intro sid subject hget
        rw [hserved, hnone sid] at hget
        cases hget
    · refine Spec.bind (keeps_notifies _ _) fun _ => Spec.get fun v => Spec.ite (fun hv => Spec.pure ?_) fun hv => ?_
      · rintro c t ⟨rfl, h⟩
        exact h.settled hv
      · refine Spec.bind (Q := fun _ c _ => Inv none c ∧ Reads s c) (Spec.modify ?_) fun _ => hnext
        rintro c t ⟨rfl, h⟩
        have hws : c.ws = some s := not_not.mp hv
        have hsame' := (same_resubscribeAll c).trans (same_startHeartbeat _)
        refine ⟨hsame'.onward, (h.resubscribeAll hws).startHeartbeat, .inl ?_⟩
        exact (ws_startHeartbeat _).trans ((ws_resubscribeAll c).trans hws)

theorem spec_drainBuffer (s : Nat) (lines : List Line) :
    contract.Spec (fun c _ => Inv none c ∧ Reads s c) (drainBuffer s lines) fun _ c _ => Inv none c := by
  induction lines with
  | nil => exact Spec.pure fun _ _ h => h.1
  | cons line rest ih =>
    cases line with
    | info =>
      refine Spec.get fun v => Spec.bind (Q := fun _ c _ => Inv none c ∧ Reads s c) ?_ fun _ => ih
      refine Spec.onlyIf (fun _ => ?_) fun _ c t h => h.2
      have hmark : contract.Keeps (fun c _ => Inv none c ∧ Reads s c)
          (modify fun c => (c.setDial s ({ · with connectSent := true })).armDeadline s) := by
        refine spec_modify_reads (fun c => ⟨rfl, rfl, rfl, rfl⟩) (fun _ => rfl) fun c h => ?_
        have hsent : Inv none (c.setDial s ({ · with connectSent := true })) :=
          h.flag (fun _ => rfl) (fun _ => rfl) fun _ => rfl
        exact hsent.flag (fun _ => rfl) (fun _ => rfl) fun _ => rfl
      exact Spec.bind (hmark.pre fun _ _ h => h.2) fun _ => keeps_sendSignedConnect s
    | pong =>
      refine Spec.get fun v => Spec.ite (fun hv => (spec_onPong ih).pre ?_) fun _ => ih.pre fun _ _ h => h.2
      rintro c t ⟨rfl, h⟩
      exact ⟨h, hv⟩
    | ping =>
      exact Spec.bind (spec_modify_reads (fun c => ⟨rfl, rfl, rfl, rfl⟩) (fun _ => rfl) fun _ h => h.sendOn rfl) fun _ => ih
    | msg subject =>
      refine Spec.bind ((keeps_notifies _ _).pre fun _ _ h => h.1) fun _ => Spec.get fun v => ?_
      refine Spec.ite (fun _ => Spec.pure fun _ _ h => h.2) fun hv => ih.pre ?_
      rintro c t ⟨rfl, h⟩
      exact ⟨h, .inl (not_not.mp hv)⟩
    | err terminal =>
      cases terminal with
      | true => exact keeps_failTerminally.pre fun _ _ h => h.1
      | false => exact ih
    | violation => exact keeps_forceReconnect.pre fun _ _ h => h.1
    | other => exact ih

/-! ### Handlers and timers -/

theorem spec_onopen (s : Nat) :
    contract.Spec (fun c _ => Inv w c ∧ ∀ d, c.dial? s = some d → d.readyState = .open) (onopen s) fun _ c _ => Inv w c := by
  refine Spec.get fun v => Spec.ite (fun _ => Spec.pure fun _ _ h => h.2.1) fun _ => Spec.ite (fun _ => ?_) fun _ => ?_
  · refine Spec.modify fun c t h => ⟨(same_setDial ..).onward, ?_⟩
    exact h.2.1.flag (fun _ => rfl) (fun _ => rfl) fun _ => rfl
  · exact Spec.modify fun c t h => ⟨(same_sendConnect c s).onward, h.2.1.sendConnect fun d _ hd => h.2.2 d hd⟩

/-- The socket of the dial opens; the current one was not in use before. -/
theorem Inv.opened (h : Inv w c) (hd : c.dial? s = some d) (hstate : d.readyState = .connecting) :
    Inv w (c.setDial s fun d => { d with toSocket := d.toSocket.opened }) := by
  refine h.setDial fun d' hs hd' hfits => ?_
  obtain rfl : d = d' := Option.some.inj (hd.symm.trans hd')
  exact ⟨nofun, .inl, fun hc => absurd hstate (hfits.up hc), fun hclosed => absurd (hstate.symm.trans hclosed) nofun,
    fun _ => rfl, rfl⟩

theorem Inv.closed (h : Inv w c) : Inv w (c.setDial s fun d => { d with toSocket := d.toSocket.closed }) :=
  h.setDial fun _ _ _ _ => ⟨nofun, .inl, nofun, fun _ => rfl, fun _ => rfl, rfl⟩

theorem spec_onclose (s : Nat) :
    contract.Spec (fun c _ => Inv w c ∧ ∀ d, c.dial? s = some d → d.readyState = .closed) (onclose s) fun _ c _ => Inv w c := by
  refine Spec.bind (Q := fun _ c _ => Inv w c ∧ ∀ d, c.dial? s = some d → d.readyState = .closed)
    (Spec.modify fun c t h => ?_) fun _ => Spec.get fun v => Spec.ite (fun _ => Spec.pure fun _ _ h => h.2.1) fun hv => ?_
  · refine ⟨(same_setDial ..).onward, h.1.flag (fun _ => rfl) (fun _ => rfl) fun _ => rfl, fun d hd => ?_⟩
    obtain ⟨-, a, ha, rfl⟩ | ⟨hne, -⟩ := Heap.get_update_cases hd
    · exact h.2 a ha
    · exact absurd rfl hne
  · refine Spec.bind (Q := fun _ c _ => Inv w c) (Spec.modify ?_) fun _ => keeps_notifies _ _
    rintro c t ⟨rfl, h, hclosed⟩
    have hws : c.ws = some s := not_not.mp hv
    have hoffline : Inv w ({ c with connected := false }.stopHeartbeat) := by
      refine ⟨h.keys, nofun, h.retired, fun s' hs' => ?_⟩
      obtain rfl : s = s' := Option.some.inj (hws.symm.trans hs')
      obtain ⟨d, hd, hfits⟩ := h.live s hws
      exact ⟨d, hd, hfits.wire, nofun, fun _ hne => absurd (hclosed d hd) hne, nofun, nofun⟩
    have hsame : Same c ({ c with connected := false }.stopHeartbeat) := ⟨rfl, rfl, rfl, rfl⟩
    exact ⟨(hsame.trans (same_scheduleReconnect _)).onward, hoffline.scheduleReconnect⟩

theorem keeps_onDeadline (s : Nat) : contract.Keeps (fun c _ => Inv w c) (onDeadline s) := by
  refine Keeps.bind (keeps_modify (fun c => (same_setDial ..).onward) fun _ h => h.flag (fun _ => rfl) (fun _ => rfl) fun _ => rfl)
    fun _ => Keeps.get fun v => Keeps.ite keeps_forceReconnect ?_
  exact keeps_modify (fun c => (same_setDial ..).onward) fun _ h => h.close s

theorem keeps_onHeartbeat : contract.Keeps (fun c _ => Inv w c) onHeartbeat := by
  refine Keeps.get fun v => Keeps.ite (Keeps.pure ()) (Keeps.ite keeps_forceReconnect ?_)
  refine Keeps.bind (keeps_modify (fun c => Same.onward ⟨rfl, rfl, rfl, rfl⟩) fun _ h => h.timers ⟨rfl, rfl, rfl, rfl⟩ rfl rfl rfl)
    fun _ => Keeps.bind (Keeps.query _) fun throws => Keeps.ite keeps_forceReconnect ?_
  exact keeps_modify (fun c => (same_send _ _).onward) fun _ h => h.send rfl

/-- Every entry keeps the invariant, as long as it makes no socket while `connected` is set. -/
theorem honours : Honours machine contract := by
  intro e top w c t hadmits hok htop hinv
  cases e with
  | connect => exact spec_connectInternal c t ⟨hinv, hok⟩
  | disconnect => exact keeps_disconnect c t hinv
  | disconnectConnectionGeneration generation => exact Keeps.get (fun v => Keeps.onlyIf keeps_disconnect) c t hinv
  | reconnect => exact Keeps.get (fun v => Keeps.onlyIf keeps_forceReconnect) c t hinv
  | publish subject payload => exact keeps_publish subject payload c t hinv
  | publishWithReply subject replyTo payload =>
    exact ⟨(same_publishWithReply c subject replyTo payload).onward, hinv.publishWithReply ..⟩
  | subscribe subject => exact ⟨onward_subscribe c subject, hinv.subscribe subject⟩
  | unsubscribe sid => exact ⟨onward_unsubscribe c sid, hinv.unsubscribe sid⟩
  | request subject replySubject payload =>
    exact ⟨onward_request c subject replySubject payload, hinv.request ..⟩
  | requestSettled sid =>
    have hsame : Same c { c with pendingRequests := c.pendingRequests.erase sid } := ⟨rfl, rfl, rfl, rfl⟩
    exact ⟨hsame.onward.trans (onward_unsubscribe _ sid), hinv.settleRequest sid⟩
  | opened s =>
    obtain ⟨-, hany⟩ := Bool.and_eq_true_iff.mp hadmits
    obtain ⟨d, hd, hstate⟩ := (Option.any_eq_true _ _).mp hany
    have hstate' : d.readyState = .connecting := by simpa using hstate
    refine ⟨(same_setDial ..).onward, .refl _, ?_⟩
    refine Spec.onlyIf (fun _ => spec_onopen s) (fun _ _ _ h => h.1) _ t ⟨hinv.opened hd hstate', fun d' hd' => ?_⟩
    obtain rfl := Option.some.inj ((dial?_setDial hd _).symm.trans hd')
    rfl
  | message s lines =>
    obtain rfl : w = none := htop (Bool.and_eq_true_iff.mp hadmits).1
    refine Spec.get (fun v => Spec.ite (fun _ => Spec.pure fun _ _ h => h.2) fun hv => (spec_drainBuffer s lines).pre ?_) c t hinv
    rintro c' t' ⟨rfl, h⟩
    exact ⟨h, .inl (not_not.mp hv)⟩
  | errored s => exact hinv
  | peerCloses s => exact ⟨(same_setDial ..).onward, hinv.close s⟩
  | closed s =>
    obtain ⟨-, hany⟩ := Bool.and_eq_true_iff.mp hadmits
    obtain ⟨d, hd, -⟩ := (Option.any_eq_true _ _).mp hany
    refine ⟨(same_setDial ..).onward, .refl _, ?_⟩
    refine Spec.onlyIf (fun _ => spec_onclose s) (fun _ _ _ h => h.1) _ t ⟨hinv.closed, fun d' hd' => ?_⟩
    obtain rfl := Option.some.inj ((dial?_setDial hd _).symm.trans hd')
    rfl
  | signed s ok =>
    refine ⟨(same_setDial ..).onward, ?_⟩
    have hflag : Inv w (c.setDial s ({ · with signing := false })) := hinv.flag (fun _ => rfl) (fun _ => rfl) fun _ => rfl
    exact Keeps.ite (keeps_finishSigned s) (keeps_signingFailed s) _ t hflag
  | deadline s => exact keeps_onDeadline s c t hinv
  | reconnectDue =>
    refine ⟨Same.onward ⟨rfl, rfl, rfl, rfl⟩, spec_connectInternal _ t ⟨?_, hok⟩⟩
    exact hinv.timers ⟨rfl, rfl, rfl, rfl⟩ rfl rfl rfl
  | heartbeat => exact keeps_onHeartbeat c t hinv

/-! ### Every run -/

/-- No socket is made while `connected` is set. -/
def Patient (c : Config Client Ask Answer Out) : Move Ask Answer Entry → Prop
  | .enter e => ¬ DialsWhileConnected c.state e
  | _ => True

/-- The server of the current socket, once it is open and its first `PONG` was read, knows
exactly the client's table. -/
def Exact (c : Client) : Prop := ∀ s d, c.ws = some s → c.dial? s = some d → d.readyState = .open →
  d.established = true → d.served = c.subscriptions.get

theorem Inv.toExact (h : Inv none c) : Exact c := by
  intro s d hs hd ho hest
  obtain ⟨d', hd', hfits⟩ := h.live s hs
  obtain rfl : d = d' := Option.some.inj (hd.symm.trans hd')
  refine hfits.exact ?_ ho nofun
  cases hc : c.connected with
  | true => rfl
  | false => exact absurd ((hfits.offline hc (by rw [ho]; exact nofun)).1.symm.trans hest) nofun

end Webchannel.Redial.Browser
