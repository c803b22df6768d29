import Mathlib.Logic.Function.Basic
import Webchannel.Lib.Json
import Webchannel.Lib.Runs

/-!
# The key-set cache

`JWKSCache` of `jwks.ts` for a URL or a file. Its calls run between awaits; what waits for a settled promise is
continued in the order of the microtask queue, and everything else (a new call, an abort, a load that settles,
the clock) may come between any two microtasks.
-/

namespace Webchannel.Jwks

/-- The key set that the load `load` brought. When it did (the time and the step of the run) is read by no code. -/
structure KeySet where
  keys : List (Json JsonNumber)
  load : Nat
  loadedAtMs : Nat
  step : Nat

inductive Failure where
  /-- `JwksLifecycleAbortError` of `raceAbort` -/
  | abort
  /-- The load itself failed, at the step `step` and with its controller aborted or not. -/
  | load (step : Nat) (aborted : Bool)

/-- A promise that has settled. -/
abbrev Settled := Except Failure KeySet

inductive Job where
  /-- The callback of `promise.finally`. -/
  | onFinally (operation : Nat)
  /-- The callback that `raceAbort` gives to `promise.then`. -/
  | relay (call : Nat)
  /-- The call goes on after its `await`. -/
  | resume (call : Nat)
  deriving DecidableEq

/-- A load that is or was in flight: `{ controller, promise, subscribers }`. -/
structure Operation where
  aborted : Bool := false
  subscribers : Nat := 0
  promise : Option Settled := none
  reactions : List Job := []

inductive Request where
  | getKey (kid : JsString)
  | warm (signal : Option Nat)

def Request.signal : Request → Option Nat
  | .getKey _ => none
  | .warm signal => signal

inductive Outcome where
  | key (jwk : Json JsonNumber) (doc : KeySet)
  | keySet (doc : KeySet)
  /-- `kid … not found in JWKS (after refresh)`, with the set looked at last -/
  | notFound (refreshed : KeySet)
  | failed (error : Failure)
  | invalidKid

/-- What a call awaits. -/
inductive Phase where
  /-- `maybeLoadFromCache`, which found `cached` -/
  | reading (cached : Option KeySet)
  /-- `raceAbort` inside `loadFresh`; `raced` is the promise it made for a signal -/
  | loading (operation : Nat) (raced : Option Settled)
  /-- `loadFresh`, which has settled -/
  | loaded (result : Settled)
  | done (outcome : Outcome)

/-- `onAbort` of `raceAbort` -/
def Phase.rejectRace : Phase → Phase
  | .loading op none => .loading op (some (.error .abort))
  | phase => phase

/-- `missed` is the set that lacked the key, and the step that found so. -/
structure Call where
  request : Request
  startedAtMs : Nat := 0
  step : Nat := 0
  missed : Option (KeySet × Nat) := none
  phase : Phase

/-- Operations and calls are numbered as they come; `steps` is the number of the next step of the run. -/
structure JWKSCache where
  now : Nat := 0
  steps : Nat := 1
  cache : Option (KeySet × Nat) := none
  inflightRefetch : Option Nat := none
  operations : Nat → Operation := fun _ => {}
  opened : Nat := 0
  calls : Nat → Call := fun _ => { request := .warm none, phase := .done .invalidKid }
  called : Nat := 0
  abortedSignals : List Nat := []
  listeners : List Nat := []
  jobs : List Job := []

def findKey (doc : KeySet) (kid : JsString) : Option (Json JsonNumber) :=
  doc.keys.find? fun k =>
    match k.member "kid" with
    | some (.str s) => s = kid
    | _ => false

namespace JWKSCache

def enqueue (s : JWKSCache) (job : Job) : JWKSCache := { s with jobs := s.jobs ++ [job] }

def setCall (s : JWKSCache) (i : Nat) (call : Call) : JWKSCache := { s with calls := Function.update s.calls i call }

def setPhase (s : JWKSCache) (i : Nat) (phase : Phase) : JWKSCache := s.setCall i { s.calls i with phase }

def setOperation (s : JWKSCache) (op : Nat) (operation : Operation) : JWKSCache :=
  { s with operations := Function.update s.operations op operation }

def isAborted (s : JWKSCache) (signal : Option Nat) : Bool := signal.any (s.abortedSignals.contains ·)

def maybeLoadFromCache (s : JWKSCache) (ttlMs : Nat) : Option KeySet :=
  match s.cache with
  | some (doc, fetchedAtMs) => if s.now - fetchedAtMs < ttlMs then some doc else none
  | none => none

/-- `promise.then`, or an `await`: at once when the promise has settled. -/
def react (s : JWKSCache) (op : Nat) (job : Job) : JWKSCache :=
  match (s.operations op).promise with
  | some _ => s.enqueue job
  | none => s.setOperation op { s.operations op with reactions := (s.operations op).reactions ++ [job] }

/-- The call waits for the load, or for its signal. -/
def raceAbort (s : JWKSCache) (i op : Nat) : JWKSCache :=
  match (s.calls i).request.signal with
  | none => (s.setPhase i (.loading op none)).react op (.resume i)
  | some signal =>
    if s.isAborted (some signal) then (s.setPhase i (.loading op (some (.error .abort)))).enqueue (.resume i)
    else ({ s with listeners := s.listeners ++ [i] }.setPhase i (.loading op none)).react op (.relay i)

/-- A load starts: its `finally` comes before whatever waits for it. -/
def openOperation (s : JWKSCache) : JWKSCache :=
  { s.setOperation s.opened { reactions := [.onFinally s.opened] } with
    opened := s.opened + 1
    inflightRefetch := some s.opened }

def subscribe (s : JWKSCache) (op : Nat) : JWKSCache :=
  s.setOperation op { s.operations op with subscribers := (s.operations op).subscribers + 1 }

def loadFresh (s : JWKSCache) (i : Nat) : JWKSCache :=
  match s.inflightRefetch with
  | some op => (s.subscribe op).raceAbort i op
  | none => (s.openOperation.subscribe s.opened).raceAbort i s.opened

/-- The `finally` of `loadFresh`. -/
def unsubscribe (s : JWKSCache) (op : Nat) : JWKSCache :=
  if (s.operations op).subscribers - 1 = 0 then
    { s.setOperation op { s.operations op with subscribers := 0, aborted := true } with
      inflightRefetch := if s.inflightRefetch = some op then none else s.inflightRefetch }
  else s.setOperation op { s.operations op with subscribers := (s.operations op).subscribers - 1 }

/-- `getKey` looks the key up; the first miss clears the cache and loads again. -/
def examine (s : JWKSCache) (i : Nat) (kid : JsString) (doc : KeySet) : JWKSCache :=
  match findKey doc kid, (s.calls i).missed with
  | some jwk, _ => s.setPhase i (.done (.key jwk doc))
  | none, some _ => s.setPhase i (.done (.notFound doc))
  | none, none =>
    ({ s with cache := none }.setCall i { s.calls i with missed := some (doc, s.steps) }).loadFresh i

/-- The call goes on to its next `await`. -/
def resume (s : JWKSCache) (i : Nat) : JWKSCache :=
  match (s.calls i).request, (s.calls i).phase with
  | .getKey kid, .reading (some doc) => s.examine i kid doc
  | .getKey _, .reading none => s.loadFresh i
  | .warm signal, .reading cached =>
    if s.isAborted signal then s.setPhase i (.done (.failed .abort))
    else
      match cached with
      | some doc => s.setPhase i (.done (.keySet doc))
      | none => s.loadFresh i
  | request, .loading op raced =>
    match (if request.signal = none then (s.operations op).promise else raced) with
    | some result => ((s.unsubscribe op).setPhase i (.loaded result)).enqueue (.resume i)
    | none => s
  | _, .loaded (.error error) => s.setPhase i (.done (.failed error))
  | .getKey kid, .loaded (.ok doc) => s.examine i kid doc
  | .warm _, .loaded (.ok doc) => s.setPhase i (.done (.keySet doc))
  | _, .done _ => s

/-- The promise of `raceAbort` settles with the load, unless the signal came first. -/
def relay (s : JWKSCache) (i : Nat) : JWKSCache :=
  match (s.calls i).phase with
  | .loading op none =>
    ({ s with listeners := s.listeners.erase i }.setPhase i (.loading op (s.operations op).promise)).enqueue (.resume i)
  | _ => s

def runJob (s : JWKSCache) : Job → JWKSCache
  | .onFinally op =>
    if s.inflightRefetch = some op ∧ (s.operations op).subscribers = 0 then { s with inflightRefetch := none } else s
  | .relay i => s.relay i
  | .resume i => s.resume i

/-- The load settles: on success its set is cached, on failure the cache is cleared, while it is the one in flight. -/
def settle (s : JWKSCache) (op : Nat) (loaded : Option (List (Json JsonNumber))) : JWKSCache :=
  let operation := s.operations op
  let isCurrent := s.inflightRefetch = some op
  let s := { s with jobs := s.jobs ++ operation.reactions }
  match loaded with
  | some keys =>
    let doc := { keys, load := op, loadedAtMs := s.now, step := s.steps }
    { s.setOperation op { operation with promise := some (.ok doc), reactions := [] } with
      cache := if operation.aborted = false ∧ isCurrent then some (doc, s.now) else s.cache }
  | none =>
    { s.setOperation op { operation with promise := some (.error (.load s.steps operation.aborted)), reactions := [] } with
      cache := if isCurrent then none else s.cache }

/-- The listeners of a signal reject the promises of their races. -/
def abort (s : JWKSCache) (signal : Nat) : JWKSCache :=
  let racing := s.listeners.filter fun i => (s.calls i).request.signal = some signal
  { s with
    abortedSignals := signal :: s.abortedSignals
    listeners := s.listeners.filter fun i => (s.calls i).request.signal ≠ some signal
    calls := fun i => if i ∈ racing then { s.calls i with phase := (s.calls i).phase.rejectRace } else s.calls i
    jobs := s.jobs ++ racing.map .resume }

/-- A call starts, and reads the cache before its first `await`. -/
def start (s : JWKSCache) (ttlMs : Nat) (request : Request) : JWKSCache :=
  let call (phase : Phase) : Call := { request, startedAtMs := s.now, step := s.steps, phase }
  let s' := { s with called := s.called + 1 }
  match request with
  | .getKey [] => s'.setCall s.called (call (.done .invalidKid))
  | _ =>
    if s.isAborted request.signal then s'.setCall s.called (call (.done (.failed .abort)))
    else (s'.setCall s.called (call (.reading (s.maybeLoadFromCache ttlMs)))).enqueue (.resume s.called)

inductive Action where
  | start (request : Request)
  | abort (signal : Nat)
  | settle (operation : Nat) (loaded : Option (List (Json JsonNumber)))
  | advance (ms : Nat)
  | job

/-- The call that the action resumes. -/
def resumed (s : JWKSCache) (a : Action) : Option Nat :=
  match a, s.jobs with
  | .job, .resume i :: _ => some i
  | _, _ => none

def step (ttlMs : Nat) (s : JWKSCache) (a : Action) : Option JWKSCache :=
  let tick (t : JWKSCache) : JWKSCache := { t with steps := s.steps + 1 }
  match a with
  | .start request => some (tick (s.start ttlMs request))
  | .abort signal => some (tick (s.abort signal))
  | .settle op loaded =>
    match decide (op < s.opened), (s.operations op).promise with
    | true, none => some (tick (s.settle op loaded))
    | _, _ => none
  | .advance ms => some (tick { s with now := s.now + ms })
  | .job =>
    match s.jobs with
    | job :: jobs => some (tick ({ s with jobs }.runJob job))
    | [] => none

end JWKSCache

end Webchannel.Jwks
