import Webchannel.Lib.Runs
import Webchannel.Wrapper.Adoption

/-!
# The messages of the wrapper

What `nats-client-wrapper.ts` does to `state.messages`: the reducers of the frames, the valve for stale drafts, the hold of
a send while a turn is in flight, `/stop`, and the end of a connection. A listener that calls back while one of these runs
finds the messages as the last update left them, so its calls are steps of their own here. The receipts, the approvals
and the lists of reasoning and tool activity are left out: they change no field of a message that is read here.
-/

namespace Webchannel.Wrapper

open Webchannel.Runs

/-- A message with the turn and the receipt it belongs to. -/
structure LiveMessage extends ChatMessage where
  turnId : Option String
  receiptKey : Option String
  deriving DecidableEq, Repr

structure HeldEntry where
  localId : String
  text : String
  receiptKey : String
  deriving DecidableEq, Repr

/-- What is asked of `abort-mirror.ts` and of the client below; the wire ids are reserved one after the other. -/
structure Environment where
  isLikelyAbortText : String → Bool
  isExplicitStop : String → Bool
  reserveWireId : Nat → String

structure State where
  messages : List LiveMessage
  isTyping : Bool
  connected : Bool
  sessionEstablished : Bool
  terminal : Bool
  closed : Bool
  staleDraftWatch : List String
  staleDraftTimer : Bool
  held : List HeldEntry
  seq : Nat
  receiptSeq : Nat
  wireSeq : Nat
  deriving DecidableEq, Repr

/-- A frame; a field that is missing is `none`. -/
inductive Frame where
  | history (messages : List IncomingRow)
  | typing
  | progress (id text turnId : Option String)
  | reasoning (id turnId text : Option String)
  | toolActivity (id turnId : Option String)
  | turnSettled (turnId : Option String)
  | agentMessage (id text turnId : Option String) (assistantMessageIndex : Option Nat)
  /-- any other frame, with whether it ends the typing indicator -/
  | other (settlesTyping : Bool)
  deriving DecidableEq, Repr

inductive Action where
  | message (frame : Frame)
  | connection (connected : Bool)
  | session
  | staleDraftTimer
  | error
  | connect
  | close
  /-- `send` with the trimmed text -/
  | send (trimmed : String)
  | retract (id : String)
  deriving DecidableEq, Repr

/-! ## Lists of messages -/

/-- `findIndex`, and the entry found is replaced. -/
def updateFirst (p : LiveMessage → Bool) (update : LiveMessage → LiveMessage) : List LiveMessage → List LiveMessage
  | [] => []
  | m :: rest => if p m then update m :: rest else m :: updateFirst p update rest

def upsertMessage (messages : List LiveMessage) (id : String) (update : LiveMessage → LiveMessage) (fallback : LiveMessage) :
    List LiveMessage :=
  if messages.any (·.id = id) then updateFirst (·.id = id) update messages else messages ++ [fallback]

def patchBubbleByReceiptKey (messages : List LiveMessage) (receiptKey : String) (patch : LiveMessage → LiveMessage) :
    List LiveMessage :=
  updateFirst (·.receiptKey = some receiptKey) patch messages

/-- A row that no message matches. -/
def ChatMessage.live (m : ChatMessage) : LiveMessage := ⟨m, none, none⟩

/-- `Merge.weave` for messages that know their turn. -/
def weaveLive (inserts : OrderedMap Nat (List ChatMessage)) : Nat → List LiveMessage → List LiveMessage
  | i, [] => ((inserts.get i).getD []).map (·.live)
  | i, m :: rest => ((inserts.get i).getD []).map (·.live) ++ m :: weaveLive inserts (i + 1) rest

/-- `case "history"`; what a row adopts keeps its turn. -/
def mergeHistory (messages : List LiveMessage) (incoming : List IncomingRow) : List LiveMessage :=
  if incoming.isEmpty then messages
  else
    let s := (incoming.filterMap IncomingRow.read).foldl Merge.step (.start (messages.map (·.toChatMessage)))
    if s.inserts.size = 0 && !s.adopted then messages
    else weaveLive s.inserts 0 (List.zipWith (fun m now => { m with toChatMessage := now }) messages s.next)

/-- An agent bubble as a frame creates it. -/
def agentBubble (id text : String) (working : Bool) (turnId : Option String) (assistantMessageIndex : Option Nat) : LiveMessage where
  id := id
  role := .agent
  text := text
  ts := none
  working := working
  assistantMessageIndex := assistantMessageIndex
  pending := false
  retracted := false
  turnId := turnId
  receiptKey := none

/-- A user bubble as `send` creates it. -/
def userBubble (id text : String) (pending : Bool) (turnId : Option String) (receiptKey : String) : LiveMessage where
  id := id
  role := .user
  text := text
  ts := none
  working := false
  assistantMessageIndex := none
  pending := pending
  retracted := false
  turnId := turnId
  receiptKey := some receiptKey

/-- `working` is taken from the messages that `p` picks. -/
def settleDrafts (p : LiveMessage → Bool) (messages : List LiveMessage) : List LiveMessage :=
  messages.map fun m => if p m && m.working then { m with working := false } else m

namespace State

variable (E : Environment) (w : State)

def create : State where
  messages := []
  isTyping := false
  connected := false
  sessionEstablished := false
  terminal := false
  closed := false
  staleDraftWatch := []
  staleDraftTimer := false
  held := []
  seq := 0
  receiptSeq := 0
  wireSeq := 0

/-- The ids that `settleDrafts` takes out of the watch. -/
def unwatchDrafts (p : LiveMessage → Bool) : List String :=
  w.staleDraftWatch.filter fun id => !w.messages.any fun m => p m && m.working && m.id = id

/-- `finalizeDraftsForTurn`. -/
def finalizeDraftsForTurn (turnId : Option String) : State :=
  if turnId.getD "" = "" then w
  else { w with
    messages := settleDrafts (·.turnId = turnId) w.messages
    staleDraftWatch := w.unwatchDrafts (·.turnId = turnId) }

/-- `finalizeLocalTurnState`. -/
def finalizeLocalTurnState : State := { w with
  messages := settleDrafts (fun _ => true) w.messages
  staleDraftWatch := w.unwatchDrafts fun _ => true
  isTyping := false }

def clearStaleDraftWatch : State := { w with staleDraftWatch := [], staleDraftTimer := false }

def armStaleDraftWatch : State :=
  let watch := (w.messages.filter (·.working)).map (·.id)
  { w with staleDraftWatch := watch, staleDraftTimer := !watch.isEmpty }

def disarmStaleDraft (id : String) : State := { w with staleDraftWatch := w.staleDraftWatch.filter (· ≠ id) }

def disarmStaleDraftsByTurn (turnId : String) : State := { w with
  staleDraftWatch := w.staleDraftWatch.filter fun id => !w.messages.any fun m => m.turnId = some turnId && m.id = id }

/-- A turn is in flight. -/
def turnInFlight : Bool := w.isTyping || w.messages.any (·.working)

def shouldHold : Bool := !w.terminal && !w.closed && (w.turnInFlight || !w.held.isEmpty)

/-- One held message is published, and its bubble moves to the tail. -/
def releaseEntry (entry : HeldEntry) : State :=
  let wireId := E.reserveWireId w.wireSeq
  let messages := match w.messages.find? (·.id = entry.localId) with
    | some bubble => w.messages.filter (·.id ≠ entry.localId) ++ [{ bubble with pending := false, turnId := some wireId }]
    | none => w.messages
  { w with messages, held := w.held.tail, wireSeq := w.wireSeq + 1 }

/-- The held messages are released once no turn is in flight; the checks before the last one are about calls that come in
between. -/
def maybeRelease : State :=
  if w.held.isEmpty || w.turnInFlight || !w.connected || !w.sessionEstablished then w
  else w.held.foldl (releaseEntry E) w

/-- `receiptTransition` of the held entries to `failed`. -/
def failEntries (entries : List HeldEntry) (patch : LiveMessage → LiveMessage) : State := { w with
  messages := entries.foldl (fun messages e => patchBubbleByReceiptKey messages e.receiptKey patch) w.messages }

def markHeldRetracted : State :=
  { w with held := [] }.failEntries w.held fun m => { m with pending := false, retracted := true }

def failHeld : State := { w with held := [] }.failEntries w.held fun m => { m with pending := false }

def publish (trimmed : String) : State := { w with
  messages := w.messages ++ [userBubble ("u-" ++ toString w.seq) trimmed false (some (E.reserveWireId w.wireSeq))
    ("r-" ++ toString w.receiptSeq)]
  seq := w.seq + 1
  receiptSeq := w.receiptSeq + 1
  wireSeq := w.wireSeq + 1 }

def hold (trimmed : String) : State := { w with
  messages := w.messages ++ [userBubble ("u-" ++ toString w.seq) trimmed true none ("r-" ++ toString w.receiptSeq)]
  held := w.held ++ [⟨"u-" ++ toString w.seq, trimmed, "r-" ++ toString w.receiptSeq⟩]
  seq := w.seq + 1
  receiptSeq := w.receiptSeq + 1 }

def send (trimmed : String) : State :=
  if trimmed = "" then w
  else if E.isLikelyAbortText trimmed then
    if E.isExplicitStop trimmed then (w.markHeldRetracted.finalizeLocalTurnState.publish E trimmed).maybeRelease E
    else w.publish E trimmed
  else if w.shouldHold then w.hold trimmed
  else w.publish E trimmed

/-- A held or retracted bubble is taken off the screen. -/
def retract (id : String) : State :=
  match w.messages.find? (·.id = id) with
  | some m =>
    if m.pending || m.retracted then { w with
      held := w.held.eraseP (·.localId = id)
      messages := w.messages.filter (·.id ≠ id) }
    else w
  | none => w

/-! ## Frames -/

def handleProgress (id text turnId : Option String) : State :=
  let id := id.getD ""
  let text := text.getD ""
  let update (prev : LiveMessage) : LiveMessage := { prev with
    text := text
    working := true
    turnId := turnId.or prev.turnId }
  { w with
    messages := upsertMessage w.messages id update (agentBubble id text true turnId none)
    isTyping := false }.disarmStaleDraft id

def handleAgentMessage (id text turnId : Option String) (assistantMessageIndex : Option Nat) : State :=
  let w := { w with isTyping := false }
  let text := text.getD ""
  if id.getD "" = "" then { w with
    messages := w.messages ++ [agentBubble ("a-" ++ toString w.seq) text false turnId assistantMessageIndex]
    seq := w.seq + 1 }
  else
    let id := id.getD ""
    let update (prev : LiveMessage) : LiveMessage := { prev with
      text := text
      working := false
      assistantMessageIndex := assistantMessageIndex.or prev.assistantMessageIndex
      turnId := turnId.or prev.turnId }
    { w with
      messages := upsertMessage w.messages id update
        (agentBubble id text false turnId assistantMessageIndex) }.disarmStaleDraft id

def handleFrame : Frame → State
  | .history messages => { w with messages := mergeHistory w.messages messages }
  | .typing => { w with isTyping := true }
  | .progress id text turnId => w.handleProgress id text turnId
  | .reasoning id turnId text =>
    if id.getD "" = "" ∨ turnId.getD "" = "" ∨ text.getD "" = "" then w else w.disarmStaleDraftsByTurn (turnId.getD "")
  | .toolActivity id turnId =>
    if id.getD "" = "" ∨ turnId.getD "" = "" then w else w.disarmStaleDraftsByTurn (turnId.getD "")
  | .turnSettled turnId => { w with isTyping := false }.finalizeDraftsForTurn turnId
  | .agentMessage id text turnId assistantMessageIndex => w.handleAgentMessage id text turnId assistantMessageIndex
  | .other settlesTyping => if settlesTyping then { w with isTyping := false } else w

def handleMessage (frame : Frame) : State := (w.handleFrame frame).maybeRelease E

/-! ## The connection -/

/-- `onState`. -/
def onState (connected : Bool) : State :=
  let w := { w with sessionEstablished := false }.clearStaleDraftWatch
  if w.terminal then w
  else { w with
    connected := false
    isTyping := connected && w.isTyping }

def onSession : State :=
  if w.terminal || w.closed then w
  else ({ w with sessionEstablished := true, connected := true }.armStaleDraftWatch).maybeRelease E

def expireStaleDrafts : State :=
  let w := { w with staleDraftTimer := false }
  if w.staleDraftWatch.isEmpty then w
  else { w with
    messages := settleDrafts (fun m => m.id ∈ w.staleDraftWatch) w.messages
    staleDraftWatch := [] }.maybeRelease E

/-- `onError`: the connection is given up for good. -/
def onError : State :=
  let w := { w with terminal := true }.failHeld
  { w.finalizeLocalTurnState with connected := false }

def close : State := ({ w with closed := true }.clearStaleDraftWatch).failHeld

def step (w : State) : Action → Option State
  | .message frame => some (w.handleMessage E frame)
  | .connection connected => some (w.onState connected)
  | .session => some (w.onSession E)
  | .staleDraftTimer => if w.staleDraftTimer then some (w.expireStaleDrafts E) else none
  | .error => some w.onError
  | .connect => some { w with closed := w.terminal && w.closed }
  | .close => some w.close
  | .send trimmed => some (w.send E trimmed)
  | .retract id => some (w.retract id)

end State

end Webchannel.Wrapper
