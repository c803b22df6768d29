import Mathlib.Data.List.Sort
import Webchannel.Lib.Heap
import Webchannel.Lib.OrderedMap
import Webchannel.Lib.Runs

/-!
# The account coordinator

`NatsAccountRuntimeCoordinator` of `nats-account-coordinator.ts`. Slots and calls of
`runAccount` are objects with identity; a call keeps the slot it has found, also when the
slot has left the map. A call is an owner or a waiter at most once at a time, so its number
stands for its owner and its waiter. What another task can see between two of its own
awaits is a phase. While the quarantine callback is on the stack only synchronous calls
happen. An abort sets the flag of a signal first and reaches the listeners later.
-/

namespace Webchannel.Lease

open Webchannel.Runs

structure FullInstall where
  generation : Nat
  fingerprint : String
  deriving DecidableEq, Repr

structure TransportCloseReport where
  reconnectSuppressed : Bool
  socketClosed : Bool
  deriving DecidableEq, Repr

def TransportCloseReport.confirmed (report : TransportCloseReport) : Bool :=
  report.reconnectSuppressed && report.socketClosed

/-- How a run callback ends: with a result, which may carry a report and a probe; with an
`AccountRunFailure`, whose report may carry a close handle; or with another error. -/
inductive Settlement where
  | returned (closeReport : Option TransportCloseReport) (probePhysicalClose : Bool)
  | failed (closeReport : TransportCloseReport) (closeHandle : Bool)
  | threw
  deriving DecidableEq, Repr

def Settlement.canPromote : Settlement → Bool
  | .returned none _ => true
  | .returned (some closeReport) _ => closeReport.confirmed
  | .failed closeReport _ => closeReport.confirmed
  | .threw => false

/-- The probe a quarantine keeps: that of the transport, or one that repeats the report. -/
inductive Probe where
  | physical
  | constant (report : TransportCloseReport)
  deriving DecidableEq, Repr

/-- The report assumed of a run that has left none. -/
def unconfirmedReport : TransportCloseReport := ⟨true, false⟩

def Settlement.probe : Settlement → Probe
  | .returned _ true | .failed _ true => .physical
  | .returned closeReport false => .constant (closeReport.getD unconfirmedReport)
  | .failed closeReport false => .constant closeReport
  | .threw => .constant unconfirmedReport

structure Quarantine where
  id : Nat
  probeCutoffArrival : Nat
  probing : Bool
  probePhysicalClose : Probe
  deriving DecidableEq, Repr

structure Waiter where
  call : Nat
  generation : Nat
  arrival : Nat
  signal : Nat
  deriving DecidableEq, Repr

/-- `accountId` is the key under which the slot was put into the map. -/
structure AccountSlot where
  accountId : String
  owner : Option Nat
  waiters : List Waiter
  highestGeneration : Nat
  nextArrival : Nat
  quarantine : Option Quarantine
  deriving DecidableEq, Repr

def AccountSlot.isEmpty (slot : AccountSlot) : Bool :=
  slot.owner.isNone && slot.quarantine.isNone && slot.waiters.isEmpty

/-- Where a call of `runAccount` stands. -/
inductive Phase where
  /-- in `awaitGrant`, the grant still open -/
  | awaiting
  /-- the grant is resolved with an owner and the task has not resumed -/
  | granted
  /-- the grant is resolved with `undefined` and the task has not resumed -/
  | refused
  | running
  /-- inside the quarantine callback -/
  | quarantining
  | done
  deriving DecidableEq, Repr

structure Call where
  accountId : String
  signal : Nat
  generation : Nat
  arrival : Nat
  slot : Nat
  phase : Phase
  deriving DecidableEq, Repr

def Call.waiter (call : Call) (c : Nat) : Waiter :=
  ⟨c, call.generation, call.arrival, call.signal⟩

structure PendingProbe where
  slot : Nat
  quarantine : Nat
  /-- of the waiter that asked for it -/
  arrival : Nat
  probePhysicalClose : Probe
  deriving DecidableEq, Repr

/-- What a probe can come back with; `none` when it rejects. -/
def PendingProbe.answers (probe : PendingProbe) (outcome : Option TransportCloseReport) : Bool :=
  match probe.probePhysicalClose with
  | .physical => true
  | .constant report => outcome = some report

inductive Event where
  | started (call : Nat) (accountId : String)
  /-- A run of the account has ended unconfirmed; `lastArrival` had arrived by then. -/
  | unconfirmed (accountId : String) (slot lastArrival : Nat)
  /-- A probe that was asked for by `arrival` has reported. -/
  | probed (accountId : String) (slot arrival : Nat) (report : TransportCloseReport)
  deriving DecidableEq, Repr

structure State where
  install : Option FullInstall
  nextGeneration : Nat
  slots : OrderedMap String Nat
  objects : Heap AccountSlot
  calls : Heap Call
  aborted : List Nat
  probes : List PendingProbe
  nextQuarantine : Nat
  events : List Event

namespace State

def init : State := ⟨none, 0, .empty, .empty, .empty, [], [], 0, []⟩

def installFull (s : State) (full : Bool) (fingerprint : String) : State :=
  if full then
    match s.install.filter (·.fingerprint = fingerprint) with
    | some install => { s with install := some { install with fingerprint } }
    | none =>
      { s with
        install := some ⟨s.nextGeneration + 1, fingerprint⟩, nextGeneration := s.nextGeneration + 1 }
  else s

def isAborted (s : State) (signal : Nat) : Bool := s.aborted.contains signal

def setSlot (s : State) (k : Nat) (f : AccountSlot → AccountSlot) : State :=
  { s with objects := s.objects.update k f }

def setPhase (s : State) (c : Nat) (phase : Phase) : State :=
  { s with calls := s.calls.update c ({ · with phase }) }

def cleanupSlot (s : State) (accountId : String) (k : Nat) : State :=
  if (s.objects.get k).any AccountSlot.isEmpty ∧ s.slots.get accountId = some k then
    { s with slots := s.slots.delete accountId }
  else s

/-- The newest generation first, then the earliest arrival. -/
def precedes (a b : Waiter) : Prop :=
  b.generation < a.generation ∨ (a.generation = b.generation ∧ a.arrival ≤ b.arrival)

instance : DecidableRel precedes := fun a b =>
  inferInstanceAs
    (Decidable (b.generation < a.generation ∨ (a.generation = b.generation ∧ a.arrival ≤ b.arrival)))

/-- The waiter that `promote` selects. -/
def select (s : State) (slot : AccountSlot) : Option Waiter :=
  let eligible := slot.waiters.filter fun w =>
    !s.isAborted w.signal && decide (slot.highestGeneration ≤ w.generation)
  (eligible.insertionSort precedes).head?

def promote (s : State) (k : Nat) : State :=
  match s.objects.get k with
  | none => s
  | some slot =>
    let waiters := slot.waiters.filter fun w => !s.isAborted w.signal
    match s.select { slot with waiters } with
    | none => s.setSlot k ({ · with waiters })
    | some selected =>
      (s.setSlot k ({ · with
        waiters := waiters.filter (·.call ≠ selected.call), owner := some selected.call })).setPhase
          selected.call .granted

/-- The call owns the slot no longer. -/
def leave (s : State) (c k : Nat) : State :=
  (s.setSlot k fun slot => { slot with
    owner := if slot.owner = some c then none else slot.owner }).setPhase c .done

/-- Give up what the call owns and let the next one in. -/
def release (s : State) (accountId : String) (c k : Nat) : State :=
  ((s.leave c k).promote k).cleanupSlot accountId k

def removeWaiter (s : State) (accountId : String) (c k : Nat) : State :=
  (s.setSlot k fun slot => { slot with
    waiters := slot.waiters.filter (·.call ≠ c) }).cleanupSlot accountId k

/-- The call waits in its slot. -/
def enqueue (s : State) (c : Nat) (call : Call) : State :=
  (s.setSlot call.slot fun slot => { slot with
    waiters := slot.waiters ++ [call.waiter c] }).setPhase c .awaiting

/-- The call is owner now: it starts its run, unless its host has aborted. -/
def startRun (s : State) (c : Nat) (call : Call) : State :=
  if s.isAborted call.signal then s.release call.accountId c call.slot
  else { s.setPhase c .running with events := s.events ++ [.started c call.accountId] }

def maybeProbe (s : State) (k : Nat) (waiter : Waiter) : State :=
  match (s.objects.get k).bind (·.quarantine) with
  | none => s
  | some quarantine =>
    if quarantine.probing || s.isAborted waiter.signal ||
        decide (waiter.arrival ≤ quarantine.probeCutoffArrival) then s
    else
      { s.setSlot k ({ · with quarantine := some { quarantine with probing := true } }) with
        probes := s.probes ++ [⟨k, quarantine.id, waiter.arrival, quarantine.probePhysicalClose⟩] }

/-- The slot of the account, made when there is none. -/
def findSlot (s : State) (accountId : String) : Nat × State :=
  match s.slots.get accountId with
  | some k => (k, s)
  | none =>
    (s.objects.next, { s with
      slots := s.slots.set accountId s.objects.next
      objects := s.objects.alloc ⟨accountId, none, [], 0, 0, none⟩ })

/-- The next number of the slot, and the newest generation it has seen. -/
def arrive (s : State) (k generation : Nat) : State :=
  s.setSlot k fun slot => { slot with
    nextArrival := slot.nextArrival + 1
    highestGeneration := max slot.highestGeneration generation }

/-- The synchronous part of `runAccount`; without an install it throws. -/
def runAccount (s : State) (accountId : String) (signal : Nat) : Option State := do
  let install ← s.install
  let (k, s) := s.findSlot accountId
  let s := s.arrive k install.generation
  let slot ← s.objects.get k
  let c := s.calls.next
  let call : Call := ⟨accountId, signal, install.generation, slot.nextArrival, k, .done⟩
  if slot.owner.isNone && slot.quarantine.isNone then
    let call := { call with phase := .granted }
    let s := { s.setSlot k ({ · with owner := some c }) with calls := s.calls.alloc call }
    some (s.startRun c call)
  else
    let s := ({ s with calls := s.calls.alloc call }.enqueue c call).maybeProbe k (call.waiter c)
    -- `awaitGrant` looks at the signal before it listens to it.
    if s.isAborted signal then some ((s.removeWaiter accountId c k).setPhase c .done)
    else some s

/-- The abort listener of `awaitGrant`, attached until the task resumes. -/
def onAbort (s : State) (c : Nat) : Option State := do
  let call ← s.calls.get c
  if s.isAborted call.signal ∧ (call.phase = .awaiting ∨ call.phase = .granted) then
    let s := s.removeWaiter call.accountId c call.slot
    -- A grant that is resolved already stays as it is.
    some (if call.phase = .awaiting then s.setPhase c .refused else s)
  else none

/-- A task resumes after its grant. -/
def resume (s : State) (c : Nat) : Option State := do
  let call ← s.calls.get c
  match call.phase with
  | .granted => some (s.startRun c call)
  | .refused => some (s.setPhase c .done)
  | _ => none

/-- The run of a call has ended. -/
def settle (s : State) (c : Nat) (settlement : Settlement) : Option State := do
  let call ← s.calls.get c
  let slot ← s.objects.get call.slot
  if call.phase = .running then
    if settlement.canPromote then
      some (s.release call.accountId c call.slot)
    else
      let quarantine : Quarantine := ⟨s.nextQuarantine, slot.nextArrival, false, settlement.probe⟩
      some { (s.setSlot call.slot ({ · with quarantine := some quarantine })).setPhase c .quarantining with
        nextQuarantine := s.nextQuarantine + 1
        events := s.events ++ [.unconfirmed call.accountId call.slot slot.nextArrival] }
  else none

/-- The quarantine callback has returned: the owner leaves and waits under its old number. -/
def callbackReturned (s : State) (c : Nat) : Option State := do
  let call ← s.calls.get c
  if call.phase = .quarantining then
    let s := s.leave c call.slot
    if s.isAborted call.signal then some (s.cleanupSlot call.accountId call.slot)
    else some (s.enqueue c call)
  else none

def settleProbe (s : State) (i : Nat) (outcome : Option TransportCloseReport) : Option State := do
  let probe ← s.probes[i]?
  let slot ← s.objects.get probe.slot
  if probe.answers outcome then
    let s := { s with probes := s.probes.eraseIdx i }
    match slot.quarantine.filter (·.id = probe.quarantine) with
    | none => some s
    | some quarantine =>
      let s := match outcome with
        | some report => { s with
            events := s.events ++ [Event.probed slot.accountId probe.slot probe.arrival report] }
        | none => s
      if outcome.any TransportCloseReport.confirmed then
        some (((s.setSlot probe.slot ({ · with quarantine := none })).promote probe.slot).cleanupSlot
          slot.accountId probe.slot)
      else
        some ((s.setSlot probe.slot ({ · with quarantine := some { quarantine with
          probing := false, probeCutoffArrival := slot.nextArrival } })).cleanupSlot
            slot.accountId probe.slot)
  else none

/-- The quarantine callback of some call is on the stack. -/
def inCallback (s : State) : Bool := s.calls.cells.any (·.phase = .quarantining)

end State

inductive Action where
  | installFull (full : Bool) (fingerprint : String)
  | runAccount (accountId : String) (signal : Nat)
  | abort (signal : Nat)
  | onAbort (call : Nat)
  | resume (call : Nat)
  | settle (call : Nat) (settlement : Settlement)
  | callbackReturned (call : Nat)
  | settleProbe (probe : Nat) (outcome : Option TransportCloseReport)
  deriving DecidableEq, Repr

def State.step (s : State) : Action → Option State
  | .installFull full fingerprint => some (s.installFull full fingerprint)
  | .runAccount accountId signal => s.runAccount accountId signal
  | .abort signal => some { s with aborted := signal :: s.aborted }
  | .onAbort call => s.onAbort call
  | .resume call => if s.inCallback then none else s.resume call
  | .settle call settlement => if s.inCallback then none else s.settle call settlement
  | .callbackReturned call => s.callbackReturned call
  | .settleProbe probe outcome => if s.inCallback then none else s.settleProbe probe outcome

end Webchannel.Lease
