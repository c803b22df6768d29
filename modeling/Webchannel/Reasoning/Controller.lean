import Webchannel.Draft.Markers

/-!
# The reasoning controller

`createReasoningDraftController` of `message-adapter.ts`. Each call carries what the transport answers,
should the call send; the ids that `nextMessageId` hands to one controller are a sequence.
-/

namespace Webchannel.Reasoning

open Draft (Text isSpace)

structure Params where
  sessionKey : JsString
  turnId : JsString

/-- One `sendReasoning`, with its answer. -/
structure Frame where
  sessionKey : JsString
  id : JsString
  turnId : JsString
  text : Text
  delivered : Bool
  deriving DecidableEq

structure Controller where
  id : JsString
  /-- The number of ids drawn. -/
  drawn : Nat
  currentText : Text
  stalePrefix : Text
  lastRawText : Text
  liveSnapshotDelivered : Bool
  stopped : Bool

/-- A call of the controller; `none` is an update whose text is no string. -/
inductive Call where
  | push (text : Option Text)
  | pushDurableBlock (text : Option Text)
  | endBurst
  | stop

section Controller

variable (nextMessageId : Nat → JsString) (params : Params)

def createReasoningDraftController : Controller := ⟨nextMessageId 0, 1, [], [], [], false, false⟩

namespace Controller

/-- `id = nextMessageId()` -/
def rotate (c : Controller) : Controller := { c with id := nextMessageId c.drawn, drawn := c.drawn + 1 }

def closeLiveBurst (c : Controller) : Controller :=
  if c.currentText = [] then c
  else { c.rotate nextMessageId with stalePrefix := c.lastRawText, currentText := [], liveSnapshotDelivered := false }

def push (delivered : Bool) (c : Controller) (text : Option Text) : Controller × Option Frame :=
  let text := text.getD []
  if c.stopped ∨ text = [] then (c, none)
  else
    let c := { c with lastRawText := text }
    let stale := c.stalePrefix ≠ [] ∧ c.stalePrefix.isPrefixOf text
    let normalized := if stale then (text.drop c.stalePrefix.length).dropWhile isSpace else text
    if stale ∧ normalized = [] then (c, none)
    else if normalized = c.currentText then (c, none)
    else
      ({ c with currentText := normalized, liveSnapshotDelivered := delivered },
        some ⟨params.sessionKey, c.id, params.turnId, normalized, delivered⟩)

def pushDurableBlock (delivered : Bool) (c : Controller) (text : Option Text) : Controller × Option Frame :=
  let text := text.getD []
  if c.stopped ∨ text = [] then (c, none)
  else if c.liveSnapshotDelivered ∧ c.currentText ≠ [] ∧ (text = c.currentText ∨ text = c.lastRawText) then
    (c.closeLiveBurst nextMessageId, none)
  else
    let c := c.closeLiveBurst nextMessageId
    (c.rotate nextMessageId, some ⟨params.sessionKey, c.id, params.turnId, text, delivered⟩)

def endBurst (c : Controller) : Controller :=
  if c.stopped ∨ c.currentText = [] then c else c.closeLiveBurst nextMessageId

def call (delivered : Bool) (c : Controller) : Call → Controller × Option Frame
  | .push text => c.push params delivered text
  | .pushDurableBlock text => c.pushDurableBlock nextMessageId params delivered text
  | .endBurst => (c.endBurst nextMessageId, none)
  | .stop => ({ c with stopped := true }, none)

end Controller

/-- A controller with what each of its calls has tried to send. -/
structure Session where
  controller : Controller
  log : List (Option Frame)

variable (results : Nat → Bool)

/-- Call `i` of a session gets the answer `results i`. -/
def Session.call (s : Session) (call : Call) : Session :=
  let answered := s.controller.call nextMessageId params (results s.log.length) call
  ⟨answered.1, s.log ++ [answered.2]⟩

def session (calls : List Call) : Session :=
  calls.foldl (Session.call nextMessageId params results) ⟨createReasoningDraftController nextMessageId, []⟩

end Controller

end Webchannel.Reasoning
