import Webchannel.Session.Pending

/-!
# The browser client: stale connection flows are inert

A flow is fenced by its epoch and by the generation of its connection. What the fences keep out is
read off the view at each action. Where the code has no fence, the environment has to keep stale
work away: a retry of a registration, a listener behind the one that ended the flow, a dial that
takes the place of a connection's socket.
-/

namespace Webchannel.Session

open Webchannel.Reentrant Contract Webchannel.Runs

/-- What an action may be: no stale flow notifies anyone, or touches a connection that is newer
than its own, and a client that is retired publishes no user message. -/
def View.Inert (v : View) : Out → Prop
  | .session flow => v.sessionMatches flow = true
  | .protocol flow => v.flowMatches flow = true
  | .flowAct flow .disconnect => v.generation = flow.generation
  | .flowAct flow _ => v.flowMatches flow = true
  | .wire (.request flow _) => v.generation = flow.generation
  | .wire (.pub m key _) => v.sessionKey = some key ∧ v.generation = key.generation ∧ (m.userId.isSome = true → v.live = true)
  | _ => True

/-- What the code leaves to its environment. -/
def View.Fences (v : View) : (q : Ask) → Answer q → Prop
  | .readyState true, readyState => v.connected = true → readyState = ReadyState.open ∨ readyState = ReadyState.connecting
  | .protocolListener flow, more => more = true → v.flowMatches flow = true
  | _, _ => True

/-- A continuation that issues a request finds no connection newer than its own. -/
def Client.Joins (c : Client) (e : Entry) : Prop :=
  ∀ flow ∈ e.requests, c.connected = true → c.connectionGeneration = flow.generation

/-- The runs in which the fences suffice. -/
def Fenced (c : Config Client Ask Answer Out) : Move Ask Answer Entry → Prop
  | .answer q a => c.state.view.Fences q a
  | .enter e => c.state.Joins e
  | _ => True

/-- The flow that issues a request and the session key belong to the connection that is there. -/
structure View.Current (d : Duty) (v : View) : Prop where
  flow : ∀ flow, d.flow = some flow → v.connected = true → v.generation = flow.generation
  key : ∀ key, v.sessionKey = some key → v.connected = true → v.generation = key.generation

def fenceTerms : Terms where
  inv d v _ := v.Current d
  atAct e v _ := v.Inert e
  okAnswer := View.Fences
  okEnter c _ e := c.Joins e

namespace View.Current

variable {d d' : Duty} {v v' : View} {t t' : List Out}

/-- Only a connection that is there makes a flow or a key current. -/
theorem of_not_connected (h : v.connected = false) : v.Current d := by
  constructor
  · intro flow _ hconnected
    cases h.symm.trans hconnected
  · intro key _ hconnected
    cases h.symm.trans hconnected

theorem of_no_key (hflow : ∀ flow, d.flow = some flow → v.connected = true → v.generation = flow.generation)
    (hkey : v.sessionKey = none) : v.Current d := by
  refine ⟨hflow, fun key hkey' _ => ?_⟩
  cases hkey.symm.trans hkey'

theorem of_no_flow (hflow : d.flow = none)
    (hkey : ∀ key, v.sessionKey = some key → v.connected = true → v.generation = key.generation) : v.Current d := by
  refine ⟨fun flow hflow' _ => ?_, hkey⟩
  cases hflow.symm.trans hflow'

theorem change (hc : Change View.Fences d v t d' v' t') (h : v.Current d) : v'.Current d' := by
  cases hc with
  | refuseSealed | refuse | drop => exact of_not_connected rfl
  | bump hv => exact of_not_connected hv
  | rejoin flow hv => exact of_not_connected hv
  | reset => exact of_no_key h.flow rfl
  | dial hdial =>
    -- a dial that is made on a connection leaves its socket in place
    have hoff : v.connected = false := by
      by_contra hconnected
      obtain ⟨readyState, hok, hopen, hconnecting⟩ := hdial (Bool.eq_true_of_not_eq_false hconnected)
      rcases hok (Bool.eq_true_of_not_eq_false hconnected) with heq | heq
      · exact hopen heq
      · exact hconnecting heq
    exact of_not_connected hoff
  | pong hkey =>
    refine of_no_flow rfl fun key hkey' _ => ?_
    cases hkey.symm.trans hkey'
  | «begin» hkey =>
    refine of_no_key (fun flow hflow _ => ?_) hkey
    rw [← Option.some.inj hflow]
  | unpin => exact of_no_flow rfl h.key
  | part => exact of_no_flow rfl h.key
  | establish flow hflow =>
    refine ⟨h.flow, fun key hkey _ => ?_⟩
    rw [← Option.some.inj hkey]
    simp only [View.flowMatches, Bool.and_eq_true, beq_iff_eq] at hflow
    exact hflow.1.1.2
  | _ => exact ⟨h.flow, h.key⟩

theorem act {e : Out} (hc : Change View.Fences d v t d' v' (e :: t)) (h : v.Current d) : v.Inert e := by
  cases hc with
  | plain e he =>
    cases e with
    | wire frame => cases frame <;> trivial
    | _ => trivial
  | session flow hflow => exact hflow
  | protocol flow hok => exact hok rfl
  | request flow op hflow hconnected => exact h.flow flow hflow hconnected
  | publishSealed id m key epoch hs hm hp hconnected => exact ⟨hp.current, h.key key hp.current hconnected, hp.live⟩
  | publish m key epoch hclean hp hconnected => exact ⟨hp.current, h.key key hp.current hconnected, hp.live⟩
  | failFlow flow hflow => exact hflow
  | redial flow hflow => exact hflow
  | disconnectFlow flow hgeneration => exact hgeneration
  | _ => trivial

end View.Current

theorem outline_fenceTerms : Outline fenceTerms where
  change hc _ _ h := h.change hc
  act hc _ _ h _ := by
    have hinert := View.Current.act hc h
    exact hinert
  sends _ _ _ h := ⟨h.flow, h.key⟩
  continues {_ _ _ flow} hjoins hrequests h := by
    refine ⟨fun flow' hflow hconnected => ?_, h.key⟩
    obtain rfl : flow = flow' := Option.some.inj hflow
    exact hjoins flow hrequests hconnected

section Runs

variable {options : Options} {c c' : Config Client Ask Answer Out}

theorem fenced_ok (hc : ReachedBy (Config.step machine) Fenced (Config.start (Client.init options)) c) :
    ReachedBy (Config.step machine) fenceTerms.contract.Ok (Config.start (Client.init options)) c := by
  refine hc.mono fun c mv hok => ?_
  cases mv with
  | answer q a => exact hok
  | enter e => exact hok
  | tick => trivial
  | resume => trivial

theorem current_init (options : Options) : fenceTerms.contract.inv fenceTerms.contract.base (Client.init options) [] :=
  holds_init (T := fenceTerms) (View.Current.of_not_connected rfl)

theorem inert_of_acts (hc : ReachedBy (Config.step machine) Fenced (Config.start (Client.init options)) c) {e : Out}
    (he : c.Acts e) : c.state.view.Inert e :=
  atAct_of_acts (honours outline_fenceTerms) (current_init options) (fenced_ok hc) he

theorem evolves_of_step {mv : Move Ask Answer Entry}
    (hc : ReachedBy (Config.step machine) Fenced (Config.start (Client.init options)) c)
    (hstep : Config.step machine c mv = some c') : Evolves c.state c'.state :=
  changes_of_step (honours outline_fenceTerms) (current_init options) (fenced_ok hc) hstep

/-- A retired client stays retired, and gets no session any more. -/
theorem retired_of_reached (hc : ReachedBy (Config.step machine) Fenced (Config.start (Client.init options)) c)
    (hretired : c.state.terminalReached = true) (hc' : ReachedBy (Config.step machine) Fenced c c') :
    c'.state.terminalReached = true ∧ ∀ key, c'.state.sessionKey = some key → c.state.sessionKey = some key := by
  induction hc' with
  | start => exact ⟨hretired, fun _ hkey => hkey⟩
  | step hreached hok hstep ih =>
    obtain ⟨hterminal, hkeys⟩ := evolves_of_step (hc.trans hreached) hstep
    refine ⟨hterminal ih.1, fun key hkey => ?_⟩
    rcases hkeys key hkey with hkept | hmatches
    · exact ih.2 key hkept
    · simp [Client.connectionFlowMatches, ih.1] at hmatches

end Runs

/-! ### Scripts -/

instance (c : Config Client Ask Answer Out) : (mv : Move Ask Answer Entry) → Decidable (Fenced c mv)
  | .answer (.readyState true) readyState =>
    (fun r : ReadyState => (inferInstance : Decidable (c.state.connected = true → r = .open ∨ r = .connecting))) readyState
  | .answer (.protocolListener flow) more =>
    (fun b : Bool => (inferInstance : Decidable (b = true → c.state.view.flowMatches flow = true))) more
  | .answer (.readyState false) _ | .answer .now _ | .answer .inboxToken _ | .answer .random _ | .answer .sendThrows _
  | .answer (.openMessage _) _ | .answer .sessionListeners _ | .tick | .resume => isTrue trivial
  | .enter e => (inferInstance : Decidable (∀ flow ∈ e.requests, c.state.connected = true → c.state.connectionGeneration = flow.generation))

/-- What the running program is about to do. -/
def acting (c : Config Client Ask Answer Out) : Option Out :=
  match c.running with
  | some (.note e _) | some (.callout e _) => some e
  | _ => none

theorem acts_of_acting {c : Config Client Ask Answer Out} {e : Out} (h : acting c = some e) : c.Acts e := by
  obtain ⟨s, t, running, stack⟩ := c
  cases running with
  | none => cases h
  | some p => cases p with
    | note e' k => exact ⟨k, .inl (Option.some.inj h ▸ rfl)⟩
    | callout e' k => exact ⟨k, .inr (Option.some.inj h ▸ rfl)⟩
    | _ => cases h

/-- A scripted run that stops when an action is about to be taken, a number of steps after its last move. -/
theorem exists_acting {ok : Config Client Ask Answer Out → Move Ask Answer Entry → Prop} [∀ c mv, Decidable (ok c mv)]
    {script : Script} {mv : Move Ask Answer Entry} {fuel : Nat} {e : Out} {p : Config Client Ask Answer Out → Bool}
    (h : ((Config.play machine 200 (fun c mv => decide (ok c mv)) (Config.start (Client.init ⟨30000, true⟩)) script).bind fun c =>
      (Config.play machine fuel (fun c mv => decide (ok c mv)) c [mv]).map fun c => decide (acting c = some e) && p c) = some true)
    (htick : ∀ c, ok c .tick) :
    ∃ c, ReachedBy (Config.step machine) ok (Config.start (Client.init ⟨30000, true⟩)) c ∧ c.Acts e ∧ p c = true := by
  obtain ⟨c, hplay, hrest⟩ := Option.bind_eq_some_iff.mp h
  obtain ⟨c', hlast, hp⟩ := Option.map_eq_some_iff.mp hrest
  have htest : ∀ c mv, decide (ok c mv) = true → ok c mv := fun _ _ htrue => of_decide_eq_true htrue
  obtain ⟨hacting, hholds⟩ := Bool.and_eq_true_iff.mp hp
  exact ⟨c', (Config.reachedBy_play htick htest hplay).trans (Config.reachedBy_play htick htest hlast),
    acts_of_acting (of_decide_eq_true hacting), hholds⟩

/-- A session is established, and a message comes to the socket. -/
def Script.presented : Script :=
  session ⟨1, 1⟩ ++ [.enter (.sendUserMessage "hi" none), ask .inboxToken "m1", .resume, .resume, ask .random (0 : Rat),
    .resume, ask .now (0 : Int), ask (.readyState false) ReadyState.open]

/-- The first connection is lost while its flow waits for a challenge, and is replaced. -/
def Script.replaced : Script :=
  [.enter .connect, ask (.readyState true) ReadyState.closed, .enter .pong, .resume, .resume, .resume, .resume,
    .enter .socketClosed, .resume, .enter .reconnectTimer, ask (.readyState true) ReadyState.closed, .enter .pong,
    ask (.readyState false) ReadyState.open, .resume, .resume, .resume, .resume, .resume]

end Webchannel.Session
