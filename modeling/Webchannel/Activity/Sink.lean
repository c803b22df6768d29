import Webchannel.Activity.Correlation
import Webchannel.Lib.Json

/-!
# The tool activity sink

`createAgentToolActivitySink` (`inbound.ts`): what the agent's events become on the wire. An event that
carries no data has `null`, and an object has its members in the order in which a program lists them.
-/

namespace Webchannel.Activity

structure AgentEventLike (ν : Type) where
  runId : Option JsString
  stream : Option JsString
  data : Json ν

structure ToolActivityPayload where
  turnId : JsString
  id : JsString
  name : Option JsString
  phase : Option JsString
  status : Option JsString := none
  argKeys : Option (List JsString) := none
  summary : Option JsString := none
  deriving DecidableEq

variable {ν : Type}

def toolItemKinds : List JsString := [js "tool", js "command", js "patch", js "search"]

def toolEventPhases : List JsString := [js "start", js "update", js "result", js "end", js "error"]

def isTerminalToolActivity (phase status : Option JsString) : Bool :=
  phase ∈ [some (js "end"), some (js "result"), some (js "error")] ∨
    status ∈ [some (js "completed"), some (js "failed"), some (js "error"), some (js "blocked")]

def readEventString (data : Json ν) (key : String) : Option JsString :=
  match data.member key with
  | some (.str s) => if s = [] then none else some s
  | _ => none

/-- `data[key] === value` for a boolean. -/
def readsBool (data : Json ν) (key : String) (value : Bool) : Bool :=
  match data.member key with
  | some (.bool b) => b = value
  | _ => false

/-- `Array.isArray(data[key]) ? data[key].length : undefined` -/
def arrayLength (data : Json ν) (key : String) : Option Nat :=
  match data.member key with
  | some (.arr l) => some l.length
  | _ => none

/-! ## Patch summaries -/

def pinnedPatchSummaryMaxLength : Nat := 96

/-- `[1-9]\d{0,9}`, and what follows the number. -/
def readCount : JsString → Option JsString
  | [] => none
  | u :: rest =>
    if 49 ≤ u ∧ u ≤ 57 then
      let digits := rest.takeWhile JsonText.isDigit
      if digits.length ≤ 9 then some (rest.dropWhile JsonText.isDigit) else none
    else none

/-- A count with its word, and what follows. -/
def readPart (word : String) (s : JsString) : Option JsString := (readCount s).bind (JsonText.expect (js word))

/-- Nothing more, or one of the alternatives after a comma. -/
def endsWithPart (alternatives : List (JsString → Bool)) (s : JsString) : Bool :=
  s = [] ∨ ((JsonText.expect (js ", ") s).any fun rest => alternatives.any fun p => p rest)

def isDeletedPart (s : JsString) : Bool := readPart " deleted" s = some []

def isModifiedPart (s : JsString) : Bool := (readPart " modified" s).any (endsWithPart [isDeletedPart])

def isAddedPart (s : JsString) : Bool := (readPart " added" s).any (endsWithPart [isModifiedPart, isDeletedPart])

/-- `PINNED_PATCH_SUMMARY_PATTERN` -/
def isPinnedPatchSummary (s : JsString) : Bool :=
  s = js "no file changes recorded" ∨ isAddedPart s ∨ isModifiedPart s ∨ isDeletedPart s

def countPart (count : Option Nat) (word : String) : Option JsString :=
  if 0 < count.getD 0 then some (JsonText.formatNat (count.getD 0) ++ js word) else none

def readSafePatchSummary (data : Json ν) : Option JsString :=
  let added := arrayLength data "added"
  let modified := arrayLength data "modified"
  let deleted := arrayLength data "deleted"
  if added ≠ none ∨ modified ≠ none ∨ deleted ≠ none then
    let parts := [countPart added " added", countPart modified " modified", countPart deleted " deleted"].reduceOption
    some (if parts = [] then js "no file changes recorded" else List.intercalate (js ", ") parts)
  else
    (readEventString data "summary").filter fun summary =>
      summary.length ≤ pinnedPatchSummaryMaxLength ∧ isPinnedPatchSummary summary

/-! ## Statuses -/

def explicitTerminalToolStatus (data : Json ν) (phase : Option JsString) : Option JsString :=
  match readEventString data "status" with
  | some status => some (if status = js "error" then js "failed" else status)
  | none =>
    if readsBool data "isError" true ∨ phase = some (js "error") then some (js "failed")
    else if readsBool data "isError" false then some (js "completed")
    else none

def terminalToolStatus (data : Json ν) (phase : Option JsString) : JsString :=
  (explicitTerminalToolStatus data phase).getD (js "completed")

/-- The keys of an argument object. -/
def argKeys (data : Json ν) : Option (List JsString) :=
  match data.member "args" with
  | some (.obj l) => some (l.map Prod.fst)
  | _ => none

/-! ## The sink -/

structure AgentToolActivitySink where
  correlation : Correlation := {}
  hiddenInvocations : HiddenToolActivityTracker := {}

def identity (runId : JsString) (data : Json ν) : ToolActivityCorrelationInput where
  scope := runId
  itemId := readEventString data "itemId"
  toolCallId := readEventString data "toolCallId"
  name := readEventString data "name"

def correlatedId (c : Correlation) (runId : JsString) (data : Json ν) (phase : Option JsString) :
    JsString × Correlation :=
  let input := identity runId data
  if isTerminalToolActivity phase (readEventString data "status") then c.complete input
  else if phase = some (js "start") then c.start input
  else c.update input

def itemKind (event : AgentEventLike ν) : Option JsString :=
  if event.stream = some (js "item") then readEventString event.data "kind" else none

def tracksInvocation (event : AgentEventLike ν) : Bool :=
  event.stream = some (js "tool") ∨ event.stream = some (js "command_output") ∨ event.stream = some (js "patch") ∨
    event.stream = some (js "item") ∧ (itemKind event).any (· ∈ toolItemKinds)

def canonicalStart (event : AgentEventLike ν) : Bool :=
  readEventString event.data "phase" = some (js "start") ∧
    (event.stream = some (js "tool") ∨ event.stream = some (js "item") ∧ itemKind event = some (js "tool"))

/-- The fields of a frame that come from an event, if it is one for the wire. -/
structure Projection where
  status : Option JsString := none
  argKeys : Option (List JsString) := none
  summary : Option JsString := none
  deriving DecidableEq

def project (event : AgentEventLike ν) : Option Projection :=
  let data := event.data
  let phase := readEventString data "phase"
  let status := readEventString data "status"
  let terminal := isTerminalToolActivity phase status
  if event.stream = some (js "tool") then
    if phase.any (· ∈ toolEventPhases) then
      some {
        status := if terminal then some (terminalToolStatus data phase) else none
        argKeys := if terminal then none else argKeys data }
    else none
  else if event.stream = some (js "item") then
    if readsBool data "suppressChannelProgress" true then none
    else if (itemKind event).any (· ∈ toolItemKinds) ∧ phase.any (· ∈ toolEventPhases) then
      some {
        status := if terminal then some (terminalToolStatus data phase) else status
        summary := if itemKind event = some (js "patch") then readSafePatchSummary data else none }
    else none
  else if event.stream = some (js "command_output") ∨ event.stream = some (js "patch") then
    if terminal then
      some {
        status := if event.stream = some (js "patch") then explicitTerminalToolStatus data phase
          else some (terminalToolStatus data phase)
        summary := if event.stream = some (js "patch") then readSafePatchSummary data else none }
    else none
  else none

namespace AgentToolActivitySink

/-- The end of the handler: the frame with its public id. -/
def emit (turnId runId : JsString) (event : AgentEventLike ν) (s : AgentToolActivitySink) :
    Option ToolActivityPayload × AgentToolActivitySink :=
  match project event with
  | none => (none, s)
  | some p =>
    let phase := readEventString event.data "phase"
    let r := correlatedId s.correlation runId event.data phase
    (some ⟨turnId, r.1, readEventString event.data "name", phase, p.status, p.argKeys, p.summary⟩,
      { s with correlation := r.2 })

/-- What an event does to the hidden invocations, and whether it goes on. -/
def screen (runId : JsString) (event : AgentEventLike ν) (t : HiddenToolActivityTracker) :
    Bool × HiddenToolActivityTracker :=
  let invocation := identity runId event.data
  let hidden := readsBool event.data "hideFromChannelProgress" true
  let t := if tracksInvocation event ∧ canonicalStart event ∧ hidden = false then t.retire invocation else t
  if hidden then (false, if tracksInvocation event then t.hide invocation else t)
  else if tracksInvocation event then
    let r := t.suppresses invocation
    (!r.1, r.2)
  else (true, t)

def handle (turnId : JsString) (s : AgentToolActivitySink) (event : AgentEventLike ν) :
    Option ToolActivityPayload × AgentToolActivitySink :=
  match event.runId, event.data with
  | some runId, .obj _ =>
    if runId = [] then (none, s)
    else
      let r := screen runId event s.hiddenInvocations
      let s := { s with hiddenInvocations := r.2 }
      if r.1 then emit turnId runId event s else (none, s)
  | _, _ => (none, s)

/-- What each event of a sequence is sent as, if it is sent. -/
def run (turnId : JsString) : AgentToolActivitySink → List (AgentEventLike ν) →
    List (Option ToolActivityPayload) × AgentToolActivitySink
  | s, [] => ([], s)
  | s, event :: rest =>
    let r := handle turnId s event
    let r' := run turnId r.2 rest
    (r.1 :: r'.1, r'.2)

end AgentToolActivitySink

end Webchannel.Activity
