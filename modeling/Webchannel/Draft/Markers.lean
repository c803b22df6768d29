import Webchannel.Lib.JsString

/-!
# Angle markers

What `message-adapter.ts` holds back of a streamed answer: text behind a `<` that may still become
one of the markers that the core erases.
-/

namespace Webchannel.Draft

abbrev Text := JsString

/-- `\s` -/
def isSpace (u : UInt16) : Bool :=
  (9 ≤ u ∧ u ≤ 13) ∨ u = 32 ∨ u = 0xA0 ∨ u = 0x1680 ∨ (0x2000 ≤ u ∧ u ≤ 0x200A) ∨ u = 0x2028 ∨ u = 0x2029 ∨
    u = 0x202F ∨ u = 0x205F ∨ u = 0x3000 ∨ u = 0xFEFF

/-- `[A-Za-z0-9_.:-]` -/
def isNameUnit (u : UInt16) : Bool :=
  (65 ≤ u ∧ u ≤ 90) ∨ (97 ≤ u ∧ u ≤ 122) ∨ (48 ≤ u ∧ u ≤ 58) ∨ u = 95 ∨ u = 46 ∨ u = 45

def toLower (u : UInt16) : UInt16 := if 65 ≤ u ∧ u ≤ 90 then u + 32 else u

def trimEnd (text : Text) : Text := (text.reverse.dropWhile isSpace).reverse

def CORE_ANGLE_MARKER_NAMES : List Text :=
  [js "tool_call", js "tool_calls", js "tool_result", js "function_call", js "function_calls",
    js "function_response", js "function", js "antml:invoke", js "antml:parameter", js "final"]

inductive MarkerKind where
  | incomplete
  | exact
  deriving DecidableEq, Repr

/-- What one name of the list says about a fragment and the text behind it; `none` asks the next name. -/
def classifyName (fragment rest name : Text) : Option (Option MarkerKind) :=
  let open_ := rest.head?.all (· = 60)
  if fragment = name then
    if open_ then some (some .incomplete)
    else if rest.head?.any fun u => isSpace u ∨ u = 47 ∨ u = 62 then some (some .exact)
    else some none
  else if open_ ∧ fragment.isPrefixOf name then some (some .incomplete)
  else none

def classifyAngleMarkerAt (text : Text) (start : Nat) : Option MarkerKind :=
  match text.drop start with
  | [] => none
  | u :: rest =>
    if u = 60 then
      let cursor := rest.dropWhile isSpace
      let cursor := if cursor.head? = some 47 then (cursor.drop 1).dropWhile isSpace else cursor
      if cursor = [] then some .incomplete
      else
        let name := cursor.takeWhile isNameUnit
        if name = [] then none
        else
          (CORE_ANGLE_MARKER_NAMES.findSome?
            (classifyName (name.map toLower) (cursor.dropWhile isNameUnit))).getD none
    else none

structure AngleMarkerScan where
  /-- The start of the first candidate, and whether it is exact. -/
  first : Option (Nat × Bool)
  earliestExactStart : Option Nat

def scanAngleMarkers (text : Text) : AngleMarkerScan :=
  let candidates := (List.range text.length).filterMap fun start =>
    (classifyAngleMarkerAt text start).map fun kind => (start, decide (kind = .exact))
  ⟨candidates.head?, (candidates.find? (·.2)).map (·.1)⟩

structure DeferredAngleMarkerTail where
  sourcePrefix : Text
  probeSource : Text
  exact : Bool
  terminalFallbackText : Option Text
  deriving DecidableEq

def buildDeferredAngleMarkerTail (clean : Text → Text) (text sourcePrefix : Text) (exact : Bool) :
    DeferredAngleMarkerTail :=
  let hasVisiblePrefix : Bool := clean sourcePrefix ≠ []
  ⟨sourcePrefix, text, exact, if !exact && hasVisiblePrefix then some (clean text) else none⟩

structure Deferral where
  visibleText : Text
  deferred : Option DeferredAngleMarkerTail
  alreadyQuarantined : Bool
  restart : Bool

/-- The scan of a text without a hold, or of one whose hold turned out to be literal. -/
def deferFirstMarker (clean : Text → Text) (text : Text) : Deferral :=
  let scan := scanAngleMarkers text
  match scan.first with
  | none => ⟨text, none, false, false⟩
  | some (start, first) =>
    let exact := first || scan.earliestExactStart.any (start ≤ ·)
    ⟨text.take start, some (buildDeferredAngleMarkerTail clean text (text.take start) exact), false, false⟩

def deferAngleMarkerTail (clean : Text → Text) (text : Text) (previous : Option DeferredAngleMarkerTail) :
    Deferral :=
  match previous with
  | none => deferFirstMarker clean text
  | some previous =>
    if previous.exact then ⟨previous.sourcePrefix, some previous, true, false⟩
    else
      let anchor := previous.sourcePrefix.length
      if previous.probeSource.isPrefixOf text then
        let scan := scanAngleMarkers text
        match scan.first with
        | some (start, first) =>
          if start = anchor then
            let nestedExact := scan.earliestExactStart.any (anchor ≤ ·)
            ⟨previous.sourcePrefix,
              some (buildDeferredAngleMarkerTail clean text previous.sourcePrefix (first || nestedExact)), false, false⟩
          else deferFirstMarker clean text
        | none => deferFirstMarker clean text
      else
        let cleanPrefix := trimEnd (clean previous.sourcePrefix)
        let keepsSafePrefix : Bool :=
          previous.sourcePrefix = [] ∨ previous.sourcePrefix.isPrefixOf text ∨
            (cleanPrefix ≠ [] ∧ cleanPrefix.isPrefixOf (clean text))
        if keepsSafePrefix then
          ⟨previous.sourcePrefix,
            some (buildDeferredAngleMarkerTail clean text previous.sourcePrefix true), true, false⟩
        else ⟨text, none, false, true⟩

end Webchannel.Draft
