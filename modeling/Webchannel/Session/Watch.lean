import Webchannel.Lib.Watched
import Webchannel.Session.Flow

/-!
# The browser client: what a run shows of the retries

The client is watched from outside: what its clock last read, which retry timers are set, which
entries are being executed, and which messages were published, which result frames were owned,
and which recoveries the timer's callback has begun. The clock, the random source, the timer
functions and the socket return at once; the listeners are the only code that calls back.
-/

namespace Webchannel.Session

open Webchannel.Reentrant Webchannel.Runs

/-! ### Marks -/

/-- A result frame owned something in the ledger; `remains` tells whether published work was left. -/
inductive WatchEvent where
  | published (id : WireId)
  | result (remains : Bool)
  | disconnected
  | recovery
  deriving DecidableEq, Repr

structure Mark where
  event : WatchEvent
  time : Int
  deriving DecidableEq, Repr

namespace Mark

/-- An owned result and an explicit disconnect end an interval without a result. -/
def Resets (m : Mark) : Prop := (∃ remains, m.event = .result remains) ∨ m.event = .disconnected

def IsPublished (m : Mark) : Prop := ∃ id, m.event = .published id

end Mark

/-- Since the last owned result or disconnect no recovery was begun. Latest marks come first. -/
def Unspent : List Mark → Prop
  | [] => True
  | m :: log => m.Resets ∨ (m.event ≠ .recovery ∧ Unspent log)

/-- Published work has gone without an owned result at least since `time`: it was published by
then, or it was left by the latest result, and no result has come since. -/
def Waiting (time : Int) : List Mark → Prop
  | [] => False
  | m :: log => (m.time ≤ time ∧ (m.IsPublished ∨ m.event = .result true)) ∨ (¬ m.Resets ∧ Waiting time log)

/-- Every recovery in the log is the only one of its interval, and published work had gone without
a result for the whole timeout, which is not zero. -/
def Recoveries (timeout : Nat) : List Mark → Prop
  | [] => True
  | m :: log => (m.event = .recovery → Unspent log ∧ 0 < timeout ∧ Waiting (m.time - timeout) log) ∧ Recoveries timeout log

/-! ### The observation -/

structure RetryTimer where
  generation : Nat
  armedAt : Int
  due : Int
  deriving DecidableEq, Repr

/-- `timers` holds the timers that were set and not cleared, `calls` the entries on the stack and
`log` the marks, all of them latest first. `refused` tells whether the callback of the retry timer
had a publish refused. -/
structure Watch where
  clock : Int
  timers : List RetryTimer
  calls : List Entry
  refused : Bool
  log : List Mark

namespace Watch

def start (clock : Int) : Watch := ⟨clock, [], [], false, []⟩

def mark (w : Watch) (event : WatchEvent) : Watch := { w with log := ⟨event, w.clock⟩ :: w.log }

/-- The callback of the retry timer is running, and no listener that it called. -/
def inRetry (w : Watch) : Bool :=
  match w.calls with
  | .retryTimer _ :: _ => true
  | _ => false

end Watch

/-- The ids that a result frame reports on. -/
def InboundMessage.resultIds : InboundMessage → List WireId
  | .ack (some ids) => (OrderedSet.ofList ids).keys
  | .inboundRejected true (some ids) => (OrderedSet.ofList ids).keys
  | _ => []

/-- A frame is decrypted; it may be a result frame that owns something in the ledger. -/
def Watch.opened (c : Client) (w : Watch) (msg : Option InboundMessage) : Watch :=
  let ids := (msg.map InboundMessage.resultIds).getD []
  if ids.any c.unackedLedger.has then w.mark (.result (c.detach ids).hasPublishedUnackedOwnership) else w

def Watch.answered (c : Client) : (q : Ask) → Answer q → Watch → Watch
  | .now, now, w => { w with clock := now }
  | .openMessage _, msg, w => w.opened c msg
  | _, _, w => w

/-- The client clears the timer that it set last. A connection that the timer's callback gives up
although no publish of its was refused is a recovery that the acknowledgement check requested. -/
def Watch.acted (c : Client) : Out → Watch → Watch
  | .wire (.pub (.userMessage _ id) _ _), w => w.mark (.published id)
  | .hook (.setTimeout delay), w =>
    { w with timers := ⟨c.liveRetryTimerGeneration, w.clock, w.clock + delay⟩ :: w.timers }
  | .hook .clearTimeout, w => { w with timers := w.timers.tail }
  | .refused _, w => { w with refused := true }
  | .state _, w => if w.inRetry && !w.refused then w.mark .recovery else w
  | _, w => w

def Watch.entered : Entry → Watch → Watch
  | .disconnect, w => { w.mark .disconnected with calls := .disconnect :: w.calls }
  | .retryTimer generation, w => { w with calls := .retryTimer generation :: w.calls, refused := false }
  | e, w => { w with calls := e :: w.calls }

def Out.returns : Out → Bool
  | .hook _ => true
  | .wire _ => true
  | _ => false

def observer : Observer Client Ask Answer Out Entry Watch where
  answered := Watch.answered
  acted := Watch.acted
  entered := Watch.entered
  left w := { w with calls := w.calls.tail }
  returns := Out.returns

/-! ### Runs -/

/-- The public methods, as opposed to the events of the socket, the timers and the promises. -/
def Entry.isPublic : Entry → Bool
  | .reserveWireId | .sendUserMessage .. | .sendApprovalDecision .. | .loadHistory .. | .loadCommands
  | .connect | .disconnect | .requestApplicationRecovery => true
  | _ => false

abbrev WatchedConfig := Config (Client × Watch) Ask Answer Out

def watchedMachine : Machine (Client × Watch) Ask Answer Out Entry := machine.watch observer

def watchedStart (options : Options) (clock : Int) : WatchedConfig := .start (.init options, .start clock)

/-- The clock does not go back, and a listener calls public methods only. -/
def Permitted (c : WatchedConfig) : Move Ask Answer Entry → Prop
  | .answer .now now => c.state.2.clock ≤ (now : Int)
  | .enter e => c.stack.isEmpty = true ∨ e.isPublic = true
  | _ => True

/-- A dial that finds the client connected finds its socket open or opening, so that no other one
takes its place. -/
def KeepsSocket (c : WatchedConfig) : Move Ask Answer Entry → Prop
  | .answer (.readyState true) readyState =>
    c.state.1.connected = true → readyState = ReadyState.open ∨ readyState = ReadyState.connecting
  | _ => True

/-- The retry timers that are still to fire. -/
def armedTimers (c : Client) (w : Watch) : List RetryTimer :=
  w.timers.filter fun timer => c.scheduledTimers.contains timer.generation

/-- Exactly one retry timer is armed, the client holds it, and it is due no later than the earliest
retry of the ledger, or at once. -/
def LiveRetry (c : Client) (w : Watch) : Prop :=
  ∃ timer earliest, armedTimers c w = [timer] ∧ c.liveRetryTimer = some timer.generation ∧
    timer.generation = c.liveRetryTimerGeneration ∧ c.earliestRetry = some earliest ∧
    timer.due ≤ max timer.armedAt earliest

/-- What the retry timer's callback publishes is in the ledger, and its next retry is due. -/
def DueRetry (c : Client) (w : Watch) (text : String) (id : WireId) : Prop :=
  ∃ entry due, c.unackedLedger.get id = some entry ∧ entry.text = text ∧ entry.nextRetryAt = some due ∧ due ≤ w.clock

end Webchannel.Session
