import Webchannel.Lib.Heap
import Webchannel.Lib.Registrations

/-!
# Sockets and the server's subscriptions

Both NATS clients dial one WebSocket after the other. The server keeps a table of
subscriptions for each connection: `SUB` adds, a `SUB` for a known sid is ignored, `UNSUB`
removes. What a client writes to a socket that is not open is not sent.
-/

namespace Webchannel.Redial

open Webchannel.Registrations

abbrev Subject := String

inductive ReadyState where
  | connecting | «open» | closing | closed
  deriving DecidableEq, Repr

def ReadyState.close : ReadyState → ReadyState
  | .connecting => .closing
  | .open => .closing
  | .closing => .closing
  | .closed => .closed

/-- What is written to a socket. -/
inductive Wire where
  | connect
  | ping
  | pong
  | sub (subject : Subject) (sid : Nat)
  | unsub (sid : Nat)
  | pub (subject : Subject) (replyTo : Option Subject) (payload : String)
  deriving DecidableEq, Repr

def Wire.command : Wire → Option (Command Nat Subject)
  | .sub subject sid => some (.register sid subject)
  | .unsub sid => some (.remove sid)
  | _ => none

structure Socket where
  readyState : ReadyState
  sent : List Wire
  deriving DecidableEq, Repr

namespace Socket

def dialled : Socket := ⟨.connecting, []⟩

def close (s : Socket) : Socket := { s with readyState := s.readyState.close }

def opened (s : Socket) : Socket := { s with readyState := .open }

def closed (s : Socket) : Socket := { s with readyState := .closed }

/-- A write to a socket that connects throws, one to a socket that closes is dropped. -/
def send (w : Wire) (s : Socket) : Socket :=
  if s.readyState = .open then { s with sent := s.sent ++ [w] } else s

/-- The subscriptions that the server has once it has processed everything that was sent. -/
def served (s : Socket) : Nat → Option Subject :=
  processAll (fun _ => none) (s.sent.filterMap Wire.command)

variable {s : Socket} {w : Wire}

@[simp] theorem readyState_send (w : Wire) (s : Socket) : (s.send w).readyState = s.readyState := by
  unfold send
  split <;> rfl

theorem send_of_not_open (h : s.readyState ≠ .open) : s.send w = s := if_neg h

theorem sent_send (h : s.readyState = .open) : (s.send w).sent = s.sent ++ [w] := by
  rw [send, if_pos h]

theorem served_send_plain (h : w.command = none) : (s.send w).served = s.served := by
  unfold send
  split
  · simp [served, List.filterMap_append, h]
  · rfl

theorem served_send (hopen : s.readyState = .open) {c : Command Nat Subject} (h : w.command = some c) :
    (s.send w).served = process s.served c := by
  rw [served, sent_send hopen, List.filterMap_append, processAll_append]
  simp [h, processAll, served]

theorem readyState_close_ne_open : s.close.readyState ≠ .open ∧ s.close.readyState ≠ .connecting := by
  cases s with
  | mk readyState sent => cases readyState <;> exact ⟨nofun, nofun⟩

/-- The table of subscriptions, written out as `SUB` lines. -/
def sendAll (ws : List Wire) (s : Socket) : Socket := ws.foldl (fun s w => s.send w) s

@[simp] theorem readyState_sendAll (ws : List Wire) (s : Socket) : (s.sendAll ws).readyState = s.readyState := by
  induction ws generalizing s with
  | nil => rfl
  | cons w ws ih => exact (ih _).trans (readyState_send w s)

theorem served_sendAll (hopen : s.readyState = .open) (ws : List Wire) :
    (s.sendAll ws).served = processAll s.served (ws.filterMap Wire.command) := by
  induction ws generalizing s with
  | nil => rfl
  | cons w ws ih =>
    have hnext : (s.send w).readyState = .open := (readyState_send w s).trans hopen
    refine (ih hnext).trans ?_
    cases hw : w.command with
    | none => rw [served_send_plain hw, List.filterMap_cons_none hw]
    | some c => rw [served_send hopen hw, List.filterMap_cons_some hw]; rfl

theorem served_sendAll_of_not_open (h : s.readyState ≠ .open) (ws : List Wire) : (s.sendAll ws).served = s.served := by
  induction ws with
  | nil => rfl
  | cons w ws ih =>
    rw [sendAll, List.foldl_cons, send_of_not_open h]
    exact ih

end Socket

/-- One `SUB` line for each entry, under the sid it was given first. -/
def replayLines (subscriptions : OrderedMap Nat Subject) : List Wire :=
  subscriptions.entries.map fun e => .sub e.2 e.1

/-- A server that knows part of the subscriptions knows all of them after the replay. -/
theorem Socket.served_replay {s : Socket} (hopen : s.readyState = .open) {subscriptions : OrderedMap Nat Subject}
    (h : Within s.served subscriptions.get) :
    (s.sendAll (replayLines subscriptions)).served = subscriptions.get := by
  rw [served_sendAll hopen, ← replayed subscriptions h]
  congr 1
  simp [replayLines, List.filterMap_map, Wire.command, Function.comp_def]

end Webchannel.Redial
