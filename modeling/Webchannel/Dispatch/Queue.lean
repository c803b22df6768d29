import Webchannel.Lib.Heap
import Webchannel.Lib.OrderedMap
import Webchannel.Retention.Ledger

/-!
# The per-session serial dispatcher

`createSerializedInboundDispatcher` of `inbound-queue.ts` with a `coalesce` function. The
objects its closures share (session states, leases, offered entries, turns) are heap cells;
a turn's promise chain is cut at the points where other code can run: the microtask that
calls the handler, the handler's settlement, and the continuation after it.
-/

namespace Webchannel.Dispatch

open Webchannel.Retention

inductive EntryState where
  | provisional | committed | rolledBack | attached
  deriving DecidableEq, Repr

/-- Why an entry was dropped. -/
inductive Drop where
  | rolledBack | leftProvisional | cleared | disposed
  deriving DecidableEq, Repr

/-- `lease` is the lease of the `offer` closure. The last two fields are history: that
`commit()` took effect, and what dropped the entry. -/
structure LeaseEntry (Message : Type) where
  message : Message
  reservation : Nat
  state : EntryState
  lease : Nat
  wasCommitted : Bool
  dropped : Option Drop
  deriving DecidableEq, Repr

/-- `state` is the session state of the `beginBatch` closure. -/
structure InternalLease where
  key : String
  state : Nat
  entries : List Nat
  finished : Bool
  tailRejected : Option RetentionLimitReason
  deriving DecidableEq, Repr

structure SessionState where
  running : Option Nat
  pending : List Nat
  openLeases : List Nat
  readyToDrain : Bool
  deriving DecidableEq, Repr

/-- Where the promise of a turn stands: its handler is queued as a microtask, has been
called, has settled, or the continuation has run as well. -/
inductive Phase where
  | queued | invoked | settled | done
  deriving DecidableEq, Repr

structure Turn (Message : Type) where
  key : String
  state : Nat
  entries : List Nat
  message : Message
  phase : Phase
  deriving DecidableEq, Repr

/-- One call of the handler. -/
structure Invocation (Message : Type) where
  key : String
  entries : List Nat
  message : Message
  deriving DecidableEq, Repr

/-- `suppliedToken` is what `options.sessionToken` answers at the moment, when given. The
last two fields are history: the entries in the order of their attachment, and the calls of
the handler. -/
structure Dispatcher (Message : Type) where
  suppliedToken : Option (String → SessionToken)
  tokens : OrderedMap String SessionToken
  nextToken : SessionToken
  sessions : OrderedMap String Nat
  states : Heap SessionState
  leases : Heap InternalLease
  entries : Heap (LeaseEntry Message)
  turns : Heap (Turn Message)
  disposed : Bool
  ledger : Ledger
  attachments : List Nat
  invocations : List (Invocation Message)

inductive BatchOffer where
  | accepted (entry : Nat)
  | rejected (reason : RetentionLimitReason)
  | disposed
  deriving DecidableEq, Repr

/-- `measure` answers `none` when it throws. -/
structure Options (Message : Type) where
  coalesce : List Message → Message
  measure : Message → Option JsNumber

variable {Message : Type}

def checkedCharge (measure : Message → Option JsNumber) (message : Message) : Option JsNumber :=
  (measure message).filter fun charge =>
    match assertSafeNonNegative charge "" with
    | .ok _ => true
    | .error _ => false

namespace Dispatcher

def create (suppliedToken : Option (String → SessionToken)) (limits : BusyTurnLimits) :
    Dispatcher Message where
  suppliedToken := suppliedToken
  tokens := .empty
  nextToken := 0
  sessions := .empty
  states := .empty
  leases := .empty
  entries := .empty
  turns := .empty
  disposed := false
  ledger := ⟨limits, []⟩
  attachments := []
  invocations := []

variable (d : Dispatcher Message)

def tokenFor (key : String) : SessionToken × Dispatcher Message :=
  match d.suppliedToken with
  | some sessionToken => (sessionToken key, d)
  | none => match d.tokens.get key with
    | some token => (token, d)
    | none => (d.nextToken,
        { d with tokens := d.tokens.set key d.nextToken, nextToken := d.nextToken + 1 })

/-- `release`: ask for the entry's reservation back. -/
def release (e : Nat) : Dispatcher Message :=
  match d.entries.get e with
  | none => d
  | some entry => { d with ledger := d.ledger.requestRelease entry.reservation }

def releaseAll (es : List Nat) : Dispatcher Message := es.foldl release d

def updateState (s : Nat) (f : SessionState → SessionState) : Dispatcher Message :=
  { d with states := d.states.update s f }

def updateEntry (e : Nat) (f : LeaseEntry Message → LeaseEntry Message) : Dispatcher Message :=
  { d with entries := d.entries.update e f }

/-- The history of entries taken off a queue without being handled. -/
def markDropped (reason : Drop) (es : List Nat) : Dispatcher Message :=
  es.foldl (fun d e => d.updateEntry e ({ · with dropped := some reason })) d

def maybeForget (key : String) (s : Nat) : Dispatcher Message :=
  match d.states.get s with
  | none => d
  | some state =>
    if state.running = none ∧ state.pending = [] ∧ state.openLeases = [] then
      { d with
        sessions := d.sessions.delete key
        tokens := if d.suppliedToken.isNone then d.tokens.delete key else d.tokens }
    else d

def sessionFor (key : String) : Nat × Dispatcher Message :=
  match d.sessions.get key with
  | some s => (s, d)
  | none => (d.states.next,
      { d with
        states := d.states.alloc
          { running := none, pending := [], openLeases := [], readyToDrain := false }
        sessions := d.sessions.set key d.states.next })

variable (options : Options Message)

def messagesOf (es : List Nat) : List Message := es.filterMap fun e =>
  (d.entries.get e).map LeaseEntry.message

def startTurn (key : String) (s : Nat) (es : List Nat) : Dispatcher Message :=
  if d.disposed || es.isEmpty then (d.releaseAll es).maybeForget key s
  else
    let messages := d.messagesOf es
    let d := d.releaseAll es
    { d.updateState s ({ · with running := some d.turns.next }) with
      turns := d.turns.alloc
        { key, state := s, entries := es, message := options.coalesce messages, phase := .queued } }

def drain (key : String) (s : Nat) : Dispatcher Message :=
  match d.states.get s with
  | none => d
  | some state =>
    if state.running.isSome || !state.openLeases.isEmpty then d
    else
      let d := d.updateState s ({ · with readyToDrain := false, pending := [] })
      if state.pending.isEmpty then d.maybeForget key s
      else d.startTurn options key s state.pending

/-- The microtask of a turn: the handler is called unless the dispatcher was disposed. -/
def startHandler (t : Nat) (turn : Turn Message) : Dispatcher Message :=
  if d.disposed then
    { d.markDropped .disposed turn.entries with
      turns := d.turns.update t ({ · with phase := .settled }) }
  else
    { d with
      turns := d.turns.update t ({ · with phase := .invoked })
      invocations := d.invocations ++ [⟨turn.key, turn.entries, turn.message⟩] }

/-- The continuation of a turn, after its handler has resolved or rejected. -/
def afterSettled (t : Nat) (turn : Turn Message) : Dispatcher Message :=
  let d := { d with turns := d.turns.update t ({ · with phase := .done }) }
  match d.states.get turn.state with
  | none => d
  | some state =>
    if state.running ≠ some t then d
    else
      let d := d.updateState turn.state ({ · with running := none })
      if d.disposed then
        (((d.updateState turn.state ({ · with pending := [] })).releaseAll state.pending).markDropped
          .disposed state.pending).maybeForget turn.key turn.state
      else if !state.openLeases.isEmpty then
        d.updateState turn.state ({ · with readyToDrain := true })
      else d.drain options turn.key turn.state

/-- `beginBatch`; `none` is the lease of a disposed dispatcher. -/
def beginBatch (sessionKey : String) : Option Nat × Dispatcher Message :=
  if d.disposed then (none, d)
  else
    let (s, d) := d.sessionFor sessionKey
    (some d.leases.next,
      { d.updateState s fun state =>
          { state with openLeases := state.openLeases ++ [d.leases.next] } with
        leases := d.leases.alloc
          { key := sessionKey, state := s, entries := [], finished := false
            tailRejected := none } })

def rejectTail (l : Nat) (reason : RetentionLimitReason) :
    Except Fault BatchOffer × Dispatcher Message :=
  (.ok (.rejected reason),
    { d with leases := d.leases.update l ({ · with tailRejected := some reason }) })

/-- The end of `offer`: the entry is provisional from now on. -/
def acceptOffer (l : Nat) (message : Message) (reservation : Nat) :
    Except Fault BatchOffer × Dispatcher Message :=
  (.ok (.accepted d.entries.next),
    { d with
      entries := d.entries.alloc
        { message, reservation, state := .provisional, lease := l, wasCommitted := false
          dropped := none }
      leases := d.leases.update l fun lease =>
        { lease with entries := lease.entries ++ [d.entries.next] } })

/-- `offer` of a reservation that the caller already holds. -/
def offerSupplied (l : Nat) (lease : InternalLease) (message : Message) (r : Nat)
    (reservation : Reservation) : Except Fault BatchOffer × Dispatcher Message :=
  if reservation.released then
    rejectTail { d with ledger := d.ledger.requestRelease r } l .sessionMessageCount
  else
    let (token, d) := d.tokenFor lease.key
    if reservation.sessionToken ≠ token then
      rejectTail { d with ledger := d.ledger.requestRelease r } l .sessionMessageCount
    else match d.ledger.transfer r .pending with
      | none => (.error .alreadyReleased, d)
      | some ledger => acceptOffer { d with ledger } l message r

/-- `offer` of a bare message: the dispatcher reserves for it. -/
def offerBare (l : Nat) (lease : InternalLease) (message : Message) :
    Except Fault BatchOffer × Dispatcher Message :=
  match checkedCharge options.measure message with
  | none => d.rejectTail l .sessionByteCount
  | some charge =>
    let (token, d) := d.tokenFor lease.key
    match d.ledger.tryReserve token charge .pending with
    | (.error fault, _) => (.error fault, d)
    | (.ok (.rejected reason), _) => d.rejectTail l reason
    | (.ok (.accepted r), ledger) => acceptOffer { d with ledger } l message r

def offer (l : Nat) (lease : InternalLease) (message : Message)
    (supplied : Option (Nat × Reservation)) : Except Fault BatchOffer × Dispatcher Message :=
  if d.disposed || lease.finished then
    (.ok .disposed, match supplied with
      | none => d
      | some (r, _) => { d with ledger := d.ledger.requestRelease r })
  else match lease.tailRejected with
    | some reason => (.ok (.rejected reason), d)
    | none => match supplied with
      | some (r, reservation) => d.offerSupplied l lease message r reservation
      | none => d.offerBare options l lease message

/-- `commit()` on an accepted offer. -/
def commit (e : Nat) (entry : LeaseEntry Message) : Dispatcher Message :=
  if entry.state ≠ .provisional then d
  else if d.disposed || ((d.leases.get entry.lease).map InternalLease.finished).getD true then
    (d.updateEntry e ({ · with state := .rolledBack })).release e
  else d.updateEntry e ({ · with state := .committed, wasCommitted := true })

/-- `rollback()` on an accepted offer. -/
def rollback (e : Nat) (entry : LeaseEntry Message) : Dispatcher Message :=
  if entry.state ≠ .provisional ∧ entry.state ≠ .committed then d
  else (d.updateEntry e ({ · with state := .rolledBack, dropped := some .rolledBack })).release e

/-- One round of the loop in `finish`. -/
def finishEntry (s : Nat) (d : Dispatcher Message) (e : Nat) : Dispatcher Message :=
  match (d.entries.get e).map LeaseEntry.state with
  | some .provisional =>
    (d.updateEntry e ({ · with state := .rolledBack, dropped := some .leftProvisional })).release e
  | some .committed =>
    let d := d.updateEntry e ({ · with state := .attached })
    { d.updateState s fun state => { state with pending := state.pending ++ [e] } with
      attachments := d.attachments ++ [e] }
  | _ => d

def finish (l : Nat) (lease : InternalLease) : Dispatcher Message :=
  if lease.finished then d
  else
    let d := { d.updateState lease.state fun state =>
        { state with openLeases := state.openLeases.filter (· ≠ l) } with
      leases := d.leases.update l ({ · with finished := true }) }
    let d := lease.entries.foldl (finishEntry lease.state) d
    let d := { d with leases := d.leases.update l ({ · with entries := [] }) }
    match d.states.get lease.state with
    | none => d
    | some state =>
      if state.running.isNone && state.openLeases.isEmpty then
        d.drain options lease.key lease.state
      else if state.readyToDrain && state.openLeases.isEmpty then
        d.drain options lease.key lease.state
      else d

/-- One entry of an open lease is dropped, unless it was rolled back before. -/
def dropEntry (reason : Drop) (d : Dispatcher Message) (e : Nat) : Dispatcher Message :=
  match d.entries.get e with
  | none => d
  | some entry =>
    if entry.state = .rolledBack then d
    else (d.updateEntry e ({ · with state := .rolledBack, dropped := some reason })).release e

/-- The entries of the open leases of a session, in the order they are visited. -/
def leaseEntries (leases : List Nat) : List Nat :=
  leases.flatMap fun l => ((d.leases.get l).map InternalLease.entries).getD []

/-- Those of them that are still there to be dropped. -/
def unsettled (es : List Nat) : List Nat := es.filter fun e =>
  (d.entries.get e).any fun entry => entry.state ≠ .rolledBack

def clearPending (sessionKey : String) : List Message × Dispatcher Message :=
  match d.sessions.get sessionKey with
  | none => ([], d)
  | some s => match d.states.get s with
    | none => ([], d)
    | some state =>
      let held := d.leaseEntries state.openLeases
      let dropped := d.messagesOf (state.pending ++ d.unsettled held)
      let d := ((d.updateState s ({ · with pending := [] })).releaseAll state.pending).markDropped
        .cleared state.pending
      let d := held.foldl (dropEntry .cleared) d
      (dropped, d.maybeForget sessionKey s)

/-- One round of the loop in `dispose`, with the two counts. -/
def disposeSession (acc : (Nat × Nat) × Dispatcher Message) (session : String × Nat) :
    (Nat × Nat) × Dispatcher Message :=
  let (key, s) := session
  let ((pending, provisional), d) := acc
  match d.states.get s with
  | none => acc
  | some state =>
    let held := d.leaseEntries state.openLeases
    let counts := (pending + state.pending.length, provisional + (d.unsettled held).length)
    let d := ((d.updateState s ({ · with pending := [] })).releaseAll state.pending).markDropped
      .disposed state.pending
    let d := held.foldl (dropEntry .disposed) d
    let d := { d with leases := state.openLeases.foldl (fun leases l =>
      leases.update l ({ · with finished := true, entries := [] })) d.leases }
    let d := d.updateState s ({ · with openLeases := [], readyToDrain := false })
    (counts, d.maybeForget key s)

def dispose : (Nat × Nat) × Dispatcher Message :=
  if d.disposed then ((0, 0), d)
  else
    let (counts, d) := d.sessions.entries.foldl disposeSession ((0, 0), { d with disposed := true })
    (counts, { d with sessions := .empty, tokens := .empty })

def requestReleaseSupplied (supplied : Option (Nat × Reservation)) : Dispatcher Message :=
  match supplied with
  | none => d
  | some (r, _) => { d with ledger := d.ledger.requestRelease r }

/-- `dispatch` commits an accepted offer and gives back the reservation of any other. -/
def settleOffer (supplied : Option (Nat × Reservation)) : BatchOffer → Dispatcher Message
  | .accepted e => match d.entries.get e with
    | none => d
    | some entry => d.commit e entry
  | .rejected _ | .disposed => d.requestReleaseSupplied supplied

/-- `dispatch`: a batch of one. When the offer throws, the lease stays open. -/
def dispatch (sessionKey : String) (message : Message) (supplied : Option (Nat × Reservation)) :
    Except Fault BatchOffer × Dispatcher Message :=
  match d.beginBatch sessionKey with
  | (none, d) => (.ok .disposed, d.requestReleaseSupplied supplied)
  | (some l, d) => match d.leases.get l with
    | none => (.ok .disposed, d)
    | some lease => match d.offer options l lease message supplied with
      | (.error fault, d) => (.error fault, d)
      | (.ok offered, d) =>
        let d := d.settleOffer supplied offered
        (.ok offered, match d.leases.get l with
          | none => d
          | some lease => d.finish options l lease)

end Dispatcher

/-- What can happen to the dispatcher: a call of one of its methods, a step of a turn's
promise chain, a call of another owner of reservations, or a change of what the supplied
token function answers. -/
inductive Action (Message : Type) where
  | beginBatch (sessionKey : String)
  | offer (l : Nat) (message : Message) (supplied : Option Nat)
  | commit (e : Nat)
  | rollback (e : Nat)
  | finish (l : Nat)
  | dispatch (sessionKey : String) (message : Message) (supplied : Option Nat)
  | clearPending (sessionKey : String)
  | dispose
  | startHandler (t : Nat)
  | settleHandler (t : Nat)
  | afterSettled (t : Nat)
  | ledger (call : Call)
  | sessionToken (f : String → SessionToken)

/-- A supplied reservation with its current variables; `none` if there is no such one. -/
def withRow (ledger : Ledger) : Option Nat → Option (Option (Nat × Reservation))
  | none => some none
  | some r => (ledger.rows[r]?).map fun x => some (r, x)

def step (options : Options Message) (d : Dispatcher Message) :
    Action Message → Option (Dispatcher Message)
  | .beginBatch key => some (d.beginBatch key).2
  | .offer l message supplied => do
    let lease ← d.leases.get l
    let supplied ← withRow d.ledger supplied
    return (d.offer options l lease message supplied).2
  | .commit e => do
    let entry ← d.entries.get e
    return d.commit e entry
  | .rollback e => do
    let entry ← d.entries.get e
    return d.rollback e entry
  | .finish l => do
    let lease ← d.leases.get l
    return d.finish options l lease
  | .dispatch key message supplied => do
    let supplied ← withRow d.ledger supplied
    return (d.dispatch options key message supplied).2
  | .clearPending key => some (d.clearPending key).2
  | .dispose => some d.dispose.2
  | .startHandler t => do
    let turn ← d.turns.get t
    if turn.phase = .queued then some (d.startHandler t turn) else none
  | .settleHandler t => do
    let turn ← d.turns.get t
    if turn.phase = .invoked then
      some { d with turns := d.turns.update t ({ · with phase := .settled }) }
    else none
  | .afterSettled t => do
    let turn ← d.turns.get t
    if turn.phase = .settled then some (d.afterSettled options t turn) else none
  | .ledger call => some { d with ledger := (d.ledger.call call).2 }
  | .sessionToken f => some { d with suppliedToken := d.suppliedToken.map fun _ => f }

end Webchannel.Dispatch
