import Webchannel.Redial.Replay
import Webchannel.Redial.Resubscription

/-!
# Subscriptions survive a redial

Runs of both clients, whatever their surroundings do. When nothing is running, the server of an
established socket knows exactly the client's own table: always for the plugin's transport, and
for the browser's client as long as no socket is made while `connected` is set.
-/

namespace Webchannel.Redial

open Webchannel.Reentrant Webchannel.Runs

namespace Plugin

variable {options : Options} {c : Config Transport Ask Answer Event}

theorem fresh_init (options : Options) : Fresh (.init options) := ⟨List.nodup_nil, nofun⟩

theorem reached_ok (h : Reached (Config.step machine) (.start (.init options)) c) :
    ReachedBy (Config.step machine) contract.Ok (.start (.init options)) c :=
  h.mono fun _ mv _ => by cases mv <;> trivial

theorem fresh_of_reached (h : Reached (Config.step machine) (.start (.init options)) c) : Fresh c.state :=
  Contract.state_of_reached honours (inv_init options) (reached_ok h) (fresh_init options) fun _ _ hstep => hstep

theorem exact_of_idle (h : Reached (Config.step machine) (.start (.init options)) c) (hidle : c.Idle)
    (hm : c.state.microtasks = []) : Exact c.state :=
  (Contract.inv_of_idle honours (inv_init options) (reached_ok h) hidle).toExact hm

end Plugin

namespace Browser

variable {options : Options} {c : Config Client Ask Answer Out}

theorem fresh_init (options : Options) : Fresh (.init options) := ⟨List.nodup_nil, nofun⟩

theorem patient_ok (h : ReachedBy (Config.step machine) Patient (.start (.init options)) c) :
    ReachedBy (Config.step machine) contract.Ok (.start (.init options)) c :=
  h.mono fun _ mv hok => by
    cases mv with
    | enter e => exact hok
    | _ => trivial

theorem fresh_of_reached (h : ReachedBy (Config.step machine) Patient (.start (.init options)) c) : Fresh c.state :=
  Contract.state_of_reached honours (inv_init options) (patient_ok h) (fresh_init options) fun _ _ hstep => hstep.fresh

theorem exact_of_idle (h : ReachedBy (Config.step machine) Patient (.start (.init options)) c) (hidle : c.Idle) :
    Exact c.state :=
  (Contract.inv_of_idle honours (inv_init options) (patient_ok h) hidle).toExact

end Browser

/-- No sid is given out twice, and between the moves of its surroundings a client and the server
of its established socket agree on the subscriptions. -/
theorem subscriptions_survive (pluginOptions : Plugin.Options) (options : Browser.Options) :
    (∀ c : Config Plugin.Transport Plugin.Ask Plugin.Answer Plugin.Event,
      Reached (Config.step Plugin.machine) (.start (.init pluginOptions)) c →
        c.state.given.Nodup ∧ (c.Idle → c.state.microtasks = [] → Plugin.Exact c.state)) ∧
    (∀ c : Config Browser.Client Browser.Ask Browser.Answer Browser.Out,
      ReachedBy (Config.step Browser.machine) Browser.Patient (.start (.init options)) c →
        c.state.given.Nodup ∧ (c.Idle → Browser.Exact c.state)) := by
  constructor
  · intro c hc
    exact ⟨(Plugin.fresh_of_reached hc).nodup, Plugin.exact_of_idle hc⟩
  · intro c hc
    exact ⟨(Browser.fresh_of_reached hc).nodup, Browser.exact_of_idle hc⟩

/-! ### Scripted runs -/

namespace Plugin

/-- A dial that goes through: the socket opens and the first `PONG` arrives. -/
def Script.handshake (s : Nat) : List (Move Ask Answer Entry) :=
  [.answer .socket true, .enter (.opened s), .enter (.message s [.pong]), .answer .listener false]

/-- The owner connects and subscribes; the peer closes the socket and the transport dials again. -/
def Script.redial : List (Move Ask Answer Entry) :=
  [.enter (.connect false)] ++ Script.handshake 0 ++ [.enter (.subscribe "a"), .enter (.peerCloses 0), .enter (.closed 0),
    .answer .listener false, .enter .reconnectDue] ++ Script.handshake 1 ++ [.enter .microtask, .answer .listener false]

end Plugin

namespace Browser

def Script.handshake (s : Nat) : List (Move Ask Answer Entry) :=
  [.answer .socket true, .enter (.opened s), .enter (.message s [.pong]), .answer .listener false]

/-- The client connects and subscribes, and the peer starts to close the socket. -/
def Script.closing : List (Move Ask Answer Entry) :=
  [.enter .connect] ++ Script.handshake 0 ++ [.enter (.subscribe "a"), .enter (.peerCloses 0)]

/-- The close event comes before the client dials again. -/
def Script.redial : List (Move Ask Answer Entry) :=
  Script.closing ++ [.enter (.closed 0), .answer .listener false, .enter .reconnectDue] ++ Script.handshake 1

/-- `connect` is called before the close event. -/
def Script.early : List (Move Ask Answer Entry) :=
  Script.closing ++ [.enter .connect, .answer .socket true, .enter (.opened 1), .enter (.message 1 [.pong])]

instance (c : Client) (e : Entry) : Decidable (DialsWhileConnected c e) := by
  unfold DialsWhileConnected
  split <;> infer_instance

instance (c : Config Client Ask Answer Out) (mv : Move Ask Answer Entry) : Decidable (Patient c mv) := by
  unfold Patient
  split <;> infer_instance

end Browser

/-- Both clients dial again after a close, and the server of the new socket knows the subscription. -/
theorem subscription_survives :
    (∃ c : Config Plugin.Transport Plugin.Ask Plugin.Answer Plugin.Event,
      c.state.ws = some 1 ∧ c.state.subs.get 1 = some "a" ∧ Plugin.Exact c.state) ∧
    (∃ c : Config Browser.Client Browser.Ask Browser.Answer Browser.Out,
      c.state.ws = some 1 ∧ c.state.subscriptions.get 1 = some "a" ∧ Browser.Exact c.state) := by
  constructor
  · have hrun : (Config.play Plugin.machine 100 (fun _ _ => true) (.start (.init ⟨false, true, 0⟩)) Plugin.Script.redial).map
        (fun c => decide c.Idle && c.state.microtasks.isEmpty && (c.state.ws == some 1) && (c.state.subs.get 1 == some "a")) =
        some true := by decide +kernel
    obtain ⟨c, hc, hp⟩ := Config.exists_reachedBy_of_play (fun _ => trivial) (fun _ _ _ => trivial) hrun
    simp only [Bool.and_eq_true, decide_eq_true_eq, beq_iff_eq, List.isEmpty_iff] at hp
    obtain ⟨⟨⟨hidle, hmicro⟩, hws⟩, hsub⟩ := hp
    exact ⟨c, hws, hsub, ((subscriptions_survive ⟨false, true, 0⟩ ⟨false, 0, 0⟩).1 c hc).2 hidle hmicro⟩
  · have hrun : (Config.play Browser.machine 100 (fun c mv => decide (Browser.Patient c mv)) (.start (.init ⟨false, 0, 0⟩))
        Browser.Script.redial).map
        (fun c => decide c.Idle && (c.state.ws == some 1) && (c.state.subscriptions.get 1 == some "a")) = some true := by
      decide +kernel
    obtain ⟨c, hc, hp⟩ := Config.exists_reachedBy_of_play (fun _ => trivial) (fun _ _ h => of_decide_eq_true h) hrun
    simp only [Bool.and_eq_true, decide_eq_true_eq, beq_iff_eq] at hp
    obtain ⟨⟨hidle, hws⟩, hsub⟩ := hp
    exact ⟨c, hws, hsub, ((subscriptions_survive ⟨false, true, 0⟩ ⟨false, 0, 0⟩).2 c hc).2 hidle⟩

/-- The browser's client dials while the peer closes its socket. The new socket is established,
and its server knows of no subscription. -/
theorem earlyDial_loses_subscription : ∃ c : Config Browser.Client Browser.Ask Browser.Answer Browser.Out,
    Reached (Config.step Browser.machine) (.start (.init ⟨false, 0, 0⟩)) c ∧ c.Idle ∧ ¬ Browser.Exact c.state := by
  have hrun : (Config.play Browser.machine 100 (fun _ _ => true) (.start (.init ⟨false, 0, 0⟩)) Browser.Script.early).map
      (fun c => decide c.Idle && (c.state.ws == some 1) && (c.state.subscriptions.get 1 == some "a") &&
        (c.state.dial? 1).any fun d => d.readyState == .open && d.established && (d.served 1).isNone) = some true := by
    decide +kernel
  obtain ⟨c, hc, hp⟩ := Config.exists_reachedBy_of_play (fun _ => trivial) (fun _ _ _ => trivial) hrun
  simp only [Bool.and_eq_true, decide_eq_true_eq, beq_iff_eq, Option.any_eq_true, Option.isNone_iff_eq_none] at hp
  obtain ⟨⟨⟨hidle, hws⟩, hsub⟩, d, hd, ⟨hopen, hest⟩, hnone⟩ := hp
  refine ⟨c, hc, hidle, fun hexact => ?_⟩
  have hserved := congrFun (hexact 1 d hws hd hopen hest) 1
  rw [hnone, hsub] at hserved
  cases hserved

end Webchannel.Redial
