import Webchannel.Lib.Base64
import Webchannel.Lib.OrderedMap
import Webchannel.Nats.UserCreds

/-!
# The ledger of browser credentials

`MemoryBrowserCredentialLedger` (`browser-credential-ledger.ts`) with its checks, its cursors and its
retention. Scopes and cursors come from outside, so they are JSON and text. A method that throws
leaves the ledger as it was.
-/

namespace Webchannel.Issuance

/-! ## Records -/

/-- Exclusive: 2100-01-01. -/
def MAX_TIMESTAMP_SEC : Nat := 4102444800

abbrev Timestamp := { n : Nat // 0 < n ∧ n < MAX_TIMESTAMP_SEC }

inductive BrowserCredentialStatus where
  | active | revoked
  deriving DecidableEq, Repr

structure BrowserCredentialRecord where
  tenant : JsString
  accountContext : JsString
  natsAccountPublicKey : JsString
  peerId : JsString
  userPubkey : JsString
  issuedAtSec : Timestamp
  expiresAtSec : Option Timestamp
  status : BrowserCredentialStatus
  revokedAtSec : Option Timestamp
  deriving DecidableEq

inductive BrowserCredentialScope where
  | credential (userPubkey : JsString)
  | peer (natsAccountPublicKey peerId : JsString)
  | account (natsAccountPublicKey : JsString)
  deriving DecidableEq

structure BrowserCredentialQuery where
  status : Option BrowserCredentialStatus := none
  limit : Option Number := none
  cursor : Option JsString := none

structure BrowserCredentialPage where
  records : List BrowserCredentialRecord
  cursor : Option JsString

structure MarkRevokedResult where
  marked : Nat
  alreadyRevoked : Nat
  deriving DecidableEq

inductive LedgerError where
  | collision (userPubkey : JsString)
  | cursor (message : String)
  | input (message : String)
  deriving DecidableEq

/-! ## Checks -/

/-- `new BrowserCredentialLedgerInputError(message)` -/
def inputError (message : String) : LedgerError := .input ("webchannel: " ++ message)

def integer (value : Number) : Option Int :=
  value.bind fun d => match d.1 with
    | .finite q => if q.den = 1 then some q.num else none
    | .infinite _ => none

def isTimestampSec (value : Number) : Option Timestamp :=
  (integer value).bind fun n => if h : 0 < n ∧ n < MAX_TIMESTAMP_SEC then some ⟨n.toNat, by omega⟩ else none

def timestampMessage (field : String) : String :=
  s!"browser credential {field} must be a positive integer below {MAX_TIMESTAMP_SEC} unix SECONDS " ++
    "(a millisecond value is the recorded trap on this path)"

def assertTimestampSec (value : Number) (field : String) : Except LedgerError Timestamp :=
  match isTimestampSec value with
  | some t => .ok t
  | none => .error (inputError (timestampMessage field))

/-- `typeof value === "number"` -/
def numberOf : Json Double → Number
  | .num d => some d
  | _ => none

/-- The expiry of an issuance that passes, after its issue time. -/
def assertBrowserCredentialIssuance (issuance : BrowserCredentialIssuance) :
    Except LedgerError (Timestamp × Option Timestamp) := do
  let fields : List (String × JsString) := [("tenant", issuance.tenant), ("accountContext", issuance.accountContext),
    ("natsAccountPublicKey", issuance.natsAccountPublicKey), ("peerId", issuance.peerId), ("userPubkey", issuance.userPubkey)]
  match fields.find? (·.2 = []) with
  | some (field, _) => throw (inputError s!"browser credential {field} must be a non-empty string")
  | none =>
    let issuedAtSec ← assertTimestampSec (some issuance.issuedAtSec) "issuedAtSec"
    match issuance.expiresAtSec with
    | .null => pure (issuedAtSec, none)
    | expiry =>
      match isTimestampSec (numberOf expiry) with
      | some expiresAtSec => pure (issuedAtSec, some expiresAtSec)
      | none => throw (inputError (timestampMessage "expiresAtSec" ++ ", or null for a non-expiring credential"))

/-- A member that is a string. -/
def stringMember (v : Json Double) (name : String) : Option JsString :=
  match v.member name with
  | some (.str s) => some s
  | _ => none

def scopeField (scope : Json Double) (kind field : String) : Except LedgerError JsString :=
  match nonEmpty (stringMember scope field) with
  | some value => .ok value
  | none => .error (inputError s!"browser credential scope {kind}.{field} must be a non-empty string")

/-- An unknown kind is an error; it never falls back on a broader one. -/
def assertBrowserCredentialScope (scope : Json Double) : Except LedgerError BrowserCredentialScope :=
  match scope with
  | .obj _ | .arr _ =>
    let kind := stringMember scope "kind"
    if kind = some (js "credential") then do
      return .credential (← scopeField scope "credential" "userPubkey")
    else if kind = some (js "peer") then do
      let natsAccountPublicKey ← scopeField scope "peer" "natsAccountPublicKey"
      return .peer natsAccountPublicKey (← scopeField scope "peer" "peerId")
    else if kind = some (js "account") then do
      return .account (← scopeField scope "account" "natsAccountPublicKey")
    else .error (inputError "browser credential scope kind must be credential, peer, or account")
  | _ => .error (inputError "browser credential scope must be an object with kind credential, peer, or account")

def scopeKey : BrowserCredentialScope → JsString
  | .credential userPubkey => js "c\x00" ++ userPubkey
  | .peer natsAccountPublicKey peerId => js "p\x00" ++ natsAccountPublicKey ++ js "\x00" ++ peerId
  | .account natsAccountPublicKey => js "a\x00" ++ natsAccountPublicKey

def inScope (record : BrowserCredentialRecord) : BrowserCredentialScope → Bool
  | .credential userPubkey => record.userPubkey = userPubkey
  | .peer natsAccountPublicKey peerId => record.natsAccountPublicKey = natsAccountPublicKey ∧ record.peerId = peerId
  | .account natsAccountPublicKey => record.natsAccountPublicKey = natsAccountPublicKey

/-- Issue times descending, then keys ascending. -/
def byNewestFirst (a b : BrowserCredentialRecord) : Int :=
  if b.issuedAtSec.1 ≠ a.issuedAtSec.1 then b.issuedAtSec.1 - a.issuedAtSec.1
  else if a.userPubkey < b.userPubkey then -1
  else if b.userPubkey < a.userPubkey then 1
  else 0

/-! ## Cursors -/

structure CursorPayload where
  i : Double
  u : JsString

def BrowserCredentialStatus.text : BrowserCredentialStatus → JsString
  | .active => js "active"
  | .revoked => js "revoked"

/-- `status ?? null` -/
def statusJson (status : Option BrowserCredentialStatus) : Json Double := status.elim .null fun st => .str st.text

def encodeCursor (scope : BrowserCredentialScope) (status : Option BrowserCredentialStatus)
    (last : BrowserCredentialRecord) : JsString :=
  Base64.base64url (encodeUtf8 (JsonText.stringify JsonText.doubles (.obj [(js "k", .str (scopeKey scope)), (js "s", statusJson status),
    (js "i", .num (toDouble (last.issuedAtSec.1 : Int))), (js "u", .str last.userPubkey)])))

def foreignCursor : LedgerError :=
  .cursor "webchannel: browser credential cursor does not belong to this scope/status query"

/-- `(payload.s ?? null) === status` -/
def statusMatches (s : Option (Json Double)) (status : Option BrowserCredentialStatus) : Bool :=
  match s with
  | none | some .null => status.isNone
  | some (.str text) => status.any (·.text = text)
  | some _ => false

def decodeCursor (cursor : JsString) (scope : BrowserCredentialScope) (status : Option BrowserCredentialStatus) :
    Except LedgerError CursorPayload :=
  match JsonText.parse JsonText.doubles (stringOfUtf8 (Base64.bufferFrom cursor)) with
  | none => .error (.cursor "webchannel: browser credential cursor is not a cursor this ledger issued")
  | some payload =>
    if stringMember payload "k" ≠ some (scopeKey scope) ∨ statusMatches (payload.member "s") status = false then
      .error foreignCursor
    else match (payload.member "i").bind numberOf, stringMember payload "u" with
      | some i, some u => .ok ⟨i, u⟩
      | _, _ => .error foreignCursor

/-- Strictly after the cursor, whatever number it holds. -/
def CursorPayload.precedes (after : CursorPayload) (record : BrowserCredentialRecord) : Bool :=
  match after.i.1 with
  | .finite q => (record.issuedAtSec.1 : Rat) < q ∨ (record.issuedAtSec.1 : Rat) = q ∧ after.u < record.userPubkey
  | .infinite negative => !negative

/-! ## The ledger -/

/-- Every record stands under its own key. -/
structure MemoryBrowserCredentialLedger where
  records : OrderedMap JsString BrowserCredentialRecord
  retentionSec : Number
  defaultLimit : Number
  keyed : ∀ key record, records.get key = some record → record.userPubkey = key

def DEFAULT_RETENTION_SEC : Nat := 30 * 24 * 60 * 60

def DEFAULT_LIMIT : Nat := 200

namespace MemoryBrowserCredentialLedger

def new (retentionSec defaultLimit : Option Number) : MemoryBrowserCredentialLedger where
  records := .empty
  retentionSec := retentionSec.getD (some (toDouble (DEFAULT_RETENTION_SEC : Int)))
  defaultLimit := defaultLimit.getD (some (toDouble (DEFAULT_LIMIT : Int)))
  keyed _ _ h := by cases h

variable (l : MemoryBrowserCredentialLedger)

/-- `Math.floor` of what the clock answers, checked. -/
def readClockSec (clockSec : Number) : Except LedgerError Timestamp :=
  assertTimestampSec (clockSec.map fun d => match d.1 with
    | .finite q => toDouble ⌊q⌋
    | .infinite _ => d) "nowSec"

/-- The record of an issuance, spelled out field by field. -/
def recordOf (issuance : BrowserCredentialIssuance) (issuedAtSec : Timestamp) (expiresAtSec : Option Timestamp) :
    BrowserCredentialRecord :=
  ⟨issuance.tenant, issuance.accountContext, issuance.natsAccountPublicKey, issuance.peerId, issuance.userPubkey,
    issuedAtSec, expiresAtSec, .active, none⟩

def recordIssuance (issuance : BrowserCredentialIssuance) :
    Except LedgerError BrowserCredentialRecord × MemoryBrowserCredentialLedger :=
  match assertBrowserCredentialIssuance issuance with
  | .error e => (.error e, l)
  | .ok (issuedAtSec, expiresAtSec) =>
    if l.records.has issuance.userPubkey then (.error (.collision issuance.userPubkey), l)
    else
      let record := recordOf issuance issuedAtSec expiresAtSec
      (.ok record, { l with
        records := l.records.set record.userPubkey record
        keyed := fun key r h => by
          rw [OrderedMap.get_set_eq] at h
          split at h
          · rename_i hkey
            rw [hkey, ← Option.some.inj h]
          · exact l.keyed key r h })

def get (userPubkey : JsString) : Option BrowserCredentialRecord := l.records.get userPubkey

/-- The page size of a query, a positive integer. -/
def limitOf (query : BrowserCredentialQuery) : Option Nat :=
  (integer (query.limit.getD l.defaultLimit)).bind fun n => if 1 ≤ n then some n.toNat else none

/-- The records of a scope with a status. -/
def matching (scope : BrowserCredentialScope) (status : Option BrowserCredentialStatus) : List BrowserCredentialRecord :=
  l.records.values.filter fun record => inScope record scope && status.all (record.status = ·)

def list (scope : Json Double) (query : BrowserCredentialQuery) : Except LedgerError BrowserCredentialPage := do
  let scope ← assertBrowserCredentialScope scope
  match l.limitOf query with
  | none => throw (inputError "browser credential query limit must be a positive integer")
  | some limit =>
    let after ← (match query.cursor with
      | none => pure none
      | some cursor => some <$> decodeCursor cursor scope query.status)
    let matched := ((l.matching scope query.status).mergeSort fun a b => byNewestFirst a b ≤ 0).filter fun record =>
      after.all (·.precedes record)
    let records := matched.take limit
    return ⟨records, if matched.length > records.length then records.getLast?.map (encodeCursor scope query.status) else none⟩

/-- A record that is revoked already keeps its time. -/
def revoke (scope : BrowserCredentialScope) (revokedAtSec : Timestamp) (record : BrowserCredentialRecord) :
    BrowserCredentialRecord :=
  if inScope record scope ∧ record.status ≠ .revoked then { record with status := .revoked, revokedAtSec := some revokedAtSec }
  else record

/-- One replacement of the map: all of the scope or nothing. -/
def markRevoked (scope : Json Double) (revokedAtSec : Number) :
    Except LedgerError MarkRevokedResult × MemoryBrowserCredentialLedger :=
  match assertBrowserCredentialScope scope, assertTimestampSec revokedAtSec "revokedAtSec" with
  | .error e, _ | .ok _, .error e => (.error e, l)
  | .ok scope, .ok revokedAtSec =>
    let hit := l.records.values.filter (inScope · scope)
    (.ok ⟨hit.countP (·.status ≠ .revoked), hit.countP (·.status = .revoked)⟩, { l with
      records := l.records.mapValues (revoke scope revokedAtSec)
      keyed := fun key r h => by
        rw [OrderedMap.get_mapValues] at h
        obtain ⟨record, hget, rfl⟩ := Option.map_eq_some_iff.mp h
        unfold revoke
        split <;> exact l.keyed key record hget })

/-- `now > at + retention`, in doubles. -/
def past (now at_ : Timestamp) : Bool :=
  match (l.retentionSec.bind (toDouble (at_.1 : Int)).add).map Subtype.val with
  | some (.finite q) => q < (now.1 : Rat)
  | some (.infinite negative) => negative
  | none => false

def removable (now : Timestamp) (record : BrowserCredentialRecord) : Bool :=
  record.expiresAtSec.any (l.past now) || decide (record.status = .revoked) && record.revokedAtSec.any (l.past now)

def sweep (clockSec : Number) : Except LedgerError Nat × MemoryBrowserCredentialLedger :=
  match readClockSec clockSec with
  | .error e => (.error e, l)
  | .ok now => (.ok (l.records.values.countP (l.removable now)), { l with
      records := l.records.filter fun record => !l.removable now record
      keyed := fun key r h => l.keyed key r (OrderedMap.get_of_get_filter h) })

end MemoryBrowserCredentialLedger

end Webchannel.Issuance
