import Mathlib.Data.Rat.Floor
import Webchannel.Lib.Json

/-!
# Pages of history

`history.ts` of the plugin package, without its diagnostics. The session store, the clock, the
parser of dates, the text of a number and `sanitizeHistoryText` are parameters; the clock is read
once for each row of a fetched window.
-/

namespace Webchannel.History

abbrev Raw := Json JsonNumber

inductive Role where
  | user | agent
  deriving DecidableEq, Repr

structure HistoryMessage where
  id : JsString
  role : Role
  text : JsString
  ts : Rat
  deriving DecidableEq, Repr

/-- `Date.parse`, where it is finite; `String` of a number; and the sanitizer of `history-sanitize.ts`. -/
structure Platform where
  dateParse : JsString → Option Rat
  numberText : Rat → JsString
  sanitizeHistoryText : Role → JsString → JsString

/-- What `getSessionMessages` returns for a limit; `none` where it throws. A store that cannot be
read at all returns no rows. -/
abbrev Store := Nat → Option (List Raw)

variable (platform : Platform)

/-! ### Reading a row -/

def textOfPart (part : Raw) : Option JsString :=
  match part.member "text" with
  | some (.str s) => if s = [] then none else some s
  | _ => none

def extractText (content : Option Raw) : JsString :=
  match content with
  | some (.str s) => s
  | some (.arr parts) => (js "\n").intercalate (parts.filterMap textOfPart)
  | some (.obj l) =>
    match (Json.obj l).member "text" with
    | some (.str s) => s
    | _ => []
  | _ => []

def normalizeRole (raw : Option Raw) : Option Role :=
  match raw with
  | some (.str s) => if s = js "user" then some .user else if s = js "assistant" then some .agent else none
  | _ => none

def extractTs (now : Rat) (raw : Option Raw) : Rat :=
  match raw with
  | some (.num (.finite q)) => q
  | some (.str s) => (platform.dateParse s).getD now
  | _ => now

/-- The identity of a row: an own, non-empty string under `__openclaw.id`. -/
def ownId (raw : Raw) : Option JsString :=
  match raw.member "__openclaw" with
  | some (.obj inner) =>
    match (Json.obj inner).member "id" with
    | some (.str id) => if id = [] then none else some id
    | _ => none
  | _ => none

def extractId (raw : Raw) (ts : Rat) (idx : Nat) : JsString :=
  match ownId raw with
  | some id => id
  | none => js "h-" ++ platform.numberText ts ++ js "-" ++ platform.numberText idx

def rawText (raw : Raw) : JsString :=
  match raw.member "text" with
  | some (.str s) => s
  | _ => extractText (raw.member "content")

/-- What is shown of a row: a role, and a text that is not empty before or after it is sanitized. -/
def project (raw : Raw) : Option (Role × JsString) :=
  match normalizeRole (raw.member "role") with
  | none => none
  | some role =>
    if rawText raw = [] then none
    else
      let text := platform.sanitizeHistoryText role (rawText raw)
      if text = [] then none else some (role, text)

def normalize (now : Rat) (idx : Nat) (raw : Raw) : Option HistoryMessage :=
  match raw with
  | .obj l =>
    let raw : Raw := .obj l
    let ts := extractTs platform now (raw.member "timestamp")
    let id := extractId platform raw ts idx
    (project platform raw).map fun shown => ⟨id, shown.1, shown.2, ts⟩
  | _ => none

def normalizeAll (now : Nat → Rat) (rawMessages : List Raw) : List HistoryMessage :=
  rawMessages.zipIdx.filterMap fun e => normalize platform (now e.2) e.2 e.1

def readFromStore (store : Store) (now : Nat → Rat) (limit : Nat) : Option (List HistoryMessage) :=
  (store limit).map (normalizeAll platform now)

/-! ### Requests -/

def recent (store : Store) (now : Nat → Rat) (sessionKey : JsString) (limit : Nat) : List HistoryMessage :=
  if sessionKey = [] ∨ limit = 0 then [] else (readFromStore platform store now limit).getD []

inductive HistoryFetchPlan where
  | page (beforeId : JsString) (limit : Nat)
  | recent (limit : Nat)
  deriving DecidableEq, Repr

/-- The limit of a request, which comes off the wire unchecked. -/
def planLimit (limit : Option Raw) (fallbackLimit : Nat) : Nat :=
  match limit with
  | some (.num (.finite q)) => if 0 < q then ⌊q⌋.toNat else fallbackLimit
  | _ => fallbackLimit

def planHistoryFetch (before : Option JsString) (limit : Option Raw) (fallbackLimit : Nat) : HistoryFetchPlan :=
  let limit := planLimit limit fallbackLimit
  match before with
  | some beforeId => if beforeId = [] then .recent limit else .page beforeId limit
  | none => .recent limit

def MAX_FETCH_WINDOW : Nat := 1000

/-- Up to `limit` messages before the one at `idx`. -/
def olderSlice {α : Type} (window : List α) (idx limit : Nat) : List α := (window.take idx).drop (idx - limit)

/-- `now` is the clock of the small window first, of the wide one second. -/
def pageBefore (store : Store) (now : Bool → Nat → Rat) (sessionKey beforeId : JsString) (limit : Nat) :
    List HistoryMessage :=
  if sessionKey = [] ∨ beforeId = [] ∨ limit = 0 then []
  else
    let phase1Limit := min (limit * 2) MAX_FETCH_WINDOW
    match readFromStore platform store (now false) phase1Limit with
    | none => []
    | some window =>
      let idx := window.findIdx? (·.id = beforeId)
      match idx.filter fun idx => decide (limit ≤ idx) || decide (MAX_FETCH_WINDOW ≤ phase1Limit) with
      | some idx => olderSlice window idx limit
      | none =>
        if MAX_FETCH_WINDOW ≤ phase1Limit then []
        else
          match readFromStore platform store (now true) MAX_FETCH_WINDOW with
          | none => []
          | some wide =>
            match wide.findIdx? (·.id = beforeId) with
            | some wideIdx => olderSlice wide wideIdx limit
            | none => []

/-- What the handler of `load_history` answers with. -/
def fetchHistory (store : Store) (now : Bool → Nat → Rat) (sessionKey : JsString) : HistoryFetchPlan → List HistoryMessage
  | .page beforeId limit => pageBefore platform store now sessionKey beforeId limit
  | .recent limit => recent platform store (now false) sessionKey limit

end Webchannel.History
