import Mathlib.Logic.Function.Basic
import Webchannel.Lib.JsonText

/-!
# Correlation of tool activity

`createToolActivityCorrelation` and `createHiddenToolActivityTracker` (`inbound.ts`). Calls and markers
are objects there; here they are numbered in the order of their creation.
-/

namespace Webchannel.Activity

structure ToolActivityCorrelationInput where
  scope : JsString
  itemId : Option JsString
  toolCallId : Option JsString
  name : Option JsString
  deriving DecidableEq

def toolActivityUpstreamIds (input : ToolActivityCorrelationInput) : List JsString :=
  (input.toolCallId.toList ++ input.itemId.toList).filter (· ≠ [])

/-- The key of an upstream id within its run. -/
def aliasKey (scope id : JsString) : JsString := scope ++ 0 :: id

def toolActivityAliasKeys (input : ToolActivityCorrelationInput) : List JsString :=
  (toolActivityUpstreamIds input).map (aliasKey input.scope)

/-! ## Public ids -/

structure ToolActivityCall where
  id : JsString := []
  scope : JsString := []
  name : Option JsString := none
  active : Bool := false
  deriving DecidableEq

/-- The calls numbered below `count` exist. -/
structure Correlation where
  calls : Nat → ToolActivityCall := fun _ => {}
  count : Nat := 0
  byUpstreamId : JsString → Option Nat := fun _ => none
  usedPublicIds : List JsString := []
  generatedSequence : Nat := 0

def generatedId (n : Nat) : JsString := js "tool-activity-" ++ JsonText.formatNat n

/-- The first number from `n` on whose id is not used, if it is one of the next `fuel`. -/
def firstUnused (used : List JsString) : Nat → Nat → Nat
  | 0, n => n
  | fuel + 1, n => if generatedId n ∈ used then firstUnused used fuel (n + 1) else n

namespace Correlation

variable (c : Correlation) (input : ToolActivityCorrelationInput)

/-- The loop ends: no more ids can be used than there are. -/
def nextGeneratedSequence : Nat := firstUnused c.usedPublicIds c.usedPublicIds.length (c.generatedSequence + 1)

def preferredId : Option JsString := (toolActivityUpstreamIds input).head?.filter fun id => id ∉ c.usedPublicIds

def createCall (active : Bool) : Nat × Correlation :=
  let sequence := if (c.preferredId input).isSome then c.generatedSequence else c.nextGeneratedSequence
  let id := (c.preferredId input).getD (generatedId sequence)
  (c.count, { c with
    calls := Function.update c.calls c.count ⟨id, input.scope, input.name, active⟩
    count := c.count + 1
    usedPublicIds := id :: c.usedPublicIds
    generatedSequence := sequence })

/-- One round of the loop over the keys. -/
def bindKey (call : Nat) (replace : Bool) (c : Correlation) (key : JsString) : Correlation :=
  let binds := match c.byUpstreamId key with
    | none => true
    | some bound => replace || (c.calls call).active && !(c.calls bound).active
  if binds then { c with byUpstreamId := Function.update c.byUpstreamId key (some call) } else c

def bind (call : Nat) (replace : Bool) : Correlation :=
  let c := (toolActivityAliasKeys input).foldl (bindKey call replace) c
  if (c.calls call).name = none ∧ input.name ≠ none then
    { c with calls := Function.update c.calls call { c.calls call with name := input.name } }
  else c

def setActive (call : Nat) (active : Bool) : Correlation :=
  { c with calls := Function.update c.calls call { c.calls call with active := active } }

def aliased : List Nat := ((toolActivityAliasKeys input).filterMap c.byUpstreamId).dedup

def aliasedCall : Option Nat :=
  let active := (c.aliased input).filter fun call => (c.calls call).active
  if active.length = 1 then active.head?
  else if (c.aliased input).length = 1 then (c.aliased input).head?
  else none

/-- The active calls of the run that a name fits. -/
def compatible : List Nat :=
  (List.range c.count).filter fun call =>
    (c.calls call).active ∧ (c.calls call).scope = input.scope ∧
      (input.name = none ∨ (c.calls call).name = none ∨ (c.calls call).name = input.name)

def soleActiveCall : Option Nat := if (c.compatible input).length = 1 then (c.compatible input).head? else none

/-- The public id of a call that goes on under an input. -/
def attach (call : Nat) (active replace : Bool) : JsString × Correlation :=
  let c := (c.setActive call active).bind input call replace
  ((c.calls call).id, c)

def start : JsString × Correlation :=
  match (c.aliasedCall input).filter fun call => (c.calls call).active with
  | some existing => c.attach input existing true false
  | none =>
    let created := c.createCall input true
    created.2.attach input created.1 true (toolActivityUpstreamIds input ≠ [])

/-- The call that a later event of an invocation belongs to, with a new one where there is none. -/
def resolve (active : Bool) : Nat × Correlation :=
  match (c.aliasedCall input).or (c.soleActiveCall input) with
  | some call => (call, c)
  | none => c.createCall input active

def update : JsString × Correlation :=
  let resolved := c.resolve input true
  resolved.2.attach input resolved.1 true false

def complete : JsString × Correlation :=
  let resolved := c.resolve input false
  resolved.2.attach input resolved.1 false false

end Correlation

/-! ## Hidden invocations -/

/-- The markers numbered below `count` exist. -/
structure HiddenToolActivityTracker where
  aliases : Nat → List JsString := fun _ => []
  count : Nat := 0
  byAlias : JsString → Option Nat := fun _ => none

namespace HiddenToolActivityTracker

variable (t : HiddenToolActivityTracker) (input : ToolActivityCorrelationInput)

def matching : List Nat := ((toolActivityAliasKeys input).filterMap t.byAlias).dedup

/-- One alias of a marker that is merged into another. -/
def mergeAlias (marker other : Nat) (t : HiddenToolActivityTracker) (key : JsString) : HiddenToolActivityTracker :=
  { t with
    aliases := Function.update t.aliases marker (t.aliases marker ++ [key])
    byAlias := if t.byAlias key = some other then Function.update t.byAlias key (some marker) else t.byAlias }

def mergeMarker (marker : Nat) (t : HiddenToolActivityTracker) (other : Nat) : HiddenToolActivityTracker :=
  if other = marker then t else (t.aliases other).foldl (mergeAlias marker other) t

def bindKey (marker : Nat) (t : HiddenToolActivityTracker) (key : JsString) : HiddenToolActivityTracker :=
  { t with
    aliases := Function.update t.aliases marker (t.aliases marker ++ [key])
    byAlias := Function.update t.byAlias key (some marker) }

/-- Whether there is a marker, and the markers after it. -/
def bind (create : Bool) : Bool × HiddenToolActivityTracker :=
  let keys := toolActivityAliasKeys input
  if keys = [] then (false, t)
  else
    let found := t.matching input
    match found.head?.or (if create then some t.count else none) with
    | none => (false, t)
    | some marker =>
      let t := if found = [] then { t with aliases := Function.update t.aliases marker [], count := t.count + 1 } else t
      (true, keys.foldl (bindKey marker) (found.foldl (mergeMarker marker) t))

def unbindAlias (marker : Nat) (t : HiddenToolActivityTracker) (key : JsString) : HiddenToolActivityTracker :=
  if t.byAlias key = some marker then { t with byAlias := Function.update t.byAlias key none } else t

def retireMarker (t : HiddenToolActivityTracker) (marker : Nat) : HiddenToolActivityTracker :=
  (t.aliases marker).foldl (unbindAlias marker) t

def hide : HiddenToolActivityTracker := (t.bind input true).2

def suppresses : Bool × HiddenToolActivityTracker := t.bind input false

def retire : HiddenToolActivityTracker := (t.matching input).foldl retireMarker t

end HiddenToolActivityTracker

end Webchannel.Activity
