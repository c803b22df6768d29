import Mathlib.Data.List.Count
import Webchannel.Dispatch.Queue

/-!
# What holds between two steps of the dispatcher

Every attached entry is in exactly one place: the queue of its session, a turn whose handler
is still queued, or a call of the handler. A session with a queue is running or has an open
lease, so it is never forgotten, and nothing is left behind when it falls idle.
-/

namespace Webchannel.Dispatch

open Webchannel.Retention

variable {Message : Type}

namespace Dispatcher

/-! ### The loops, in closed form

None of the loops looks at the ledger, so its final value is left unnamed. -/

variable {d : Dispatcher Message}

theorem release_eq (d : Dispatcher Message) (e : Nat) :
    ∃ ledger, d.release e = { d with ledger } := by
  unfold release
  split
  · exact ⟨d.ledger, rfl⟩
  · exact ⟨_, rfl⟩

theorem releaseAll_eq (d : Dispatcher Message) (es : List Nat) :
    ∃ ledger, d.releaseAll es = { d with ledger } := by
  induction es generalizing d with
  | nil => exact ⟨d.ledger, rfl⟩
  | cons e es ih =>
    obtain ⟨ledger, h⟩ := d.release_eq e
    obtain ⟨ledger', h'⟩ := ih { d with ledger }
    refine ⟨ledger', ?_⟩
    simp only [releaseAll, List.foldl_cons] at h' ⊢
    rw [h, h']

theorem markDropped_eq (d : Dispatcher Message) (reason : Drop) (es : List Nat) :
    d.markDropped reason es =
      { d with entries := d.entries.updateAll es ({ · with dropped := some reason }) } := by
  induction es generalizing d with
  | nil => rfl
  | cons e es ih =>
    simp only [markDropped, List.foldl_cons] at ih ⊢
    rw [ih]
    rfl

/-- What `finish` makes of an entry of its lease. -/
def closed (E : LeaseEntry Message) : LeaseEntry Message :=
  match E.state with
  | .provisional => { E with state := .rolledBack, dropped := some .leftProvisional }
  | .committed => { E with state := .attached }
  | _ => E

/-- What `clearPending` and `dispose` make of an entry of an open lease. -/
def droppedBy (reason : Drop) (E : LeaseEntry Message) : LeaseEntry Message :=
  if E.state = .rolledBack then E else { E with state := .rolledBack, dropped := some reason }

theorem closed_closed (E : LeaseEntry Message) : closed (closed E) = closed E := by
  unfold closed
  cases h : E.state <;> simp [h]

theorem droppedBy_droppedBy (reason : Drop) (E : LeaseEntry Message) :
    droppedBy reason (droppedBy reason E) = droppedBy reason E := by
  unfold droppedBy
  by_cases h : E.state = .rolledBack <;> simp [h]

def isCommitted (d : Dispatcher Message) (e : Nat) : Bool :=
  (d.entries.get e).any fun E => E.state = .committed

theorem dropEntries_eq (d : Dispatcher Message) (reason : Drop) (es : List Nat) :
    ∃ ledger, es.foldl (dropEntry reason) d =
      { d with entries := d.entries.updateAll es (droppedBy reason), ledger } := by
  induction es generalizing d with
  | nil => exact ⟨d.ledger, rfl⟩
  | cons e es ih =>
    have hone : ∃ ledger, dropEntry reason d e =
        { d with entries := d.entries.update e (droppedBy reason), ledger } := by
      unfold dropEntry
      cases he : d.entries.get e with
      | none => exact ⟨d.ledger, by rw [Heap.update_eq_self (by simp [he])]⟩
      | some E =>
        simp only
        split
        · rename_i hrolled
          refine ⟨d.ledger, ?_⟩
          rw [Heap.update_eq_self]
          rintro a ha
          obtain rfl := Option.some.inj (he.symm.trans ha)
          simp [droppedBy, hrolled]
        · rename_i hrolled
          obtain ⟨ledger, h⟩ := release_eq
            (d.updateEntry e ({ · with state := .rolledBack, dropped := some reason })) e
          refine ⟨ledger, h.trans ?_⟩
          simp only [updateEntry]
          rw [Heap.update_congr]
          rintro a ha
          obtain rfl := Option.some.inj (he.symm.trans ha)
          simp [droppedBy, hrolled]
    obtain ⟨ledger, h⟩ := hone
    obtain ⟨ledger', h'⟩ := ih { d with entries := d.entries.update e (droppedBy reason), ledger }
    exact ⟨ledger', by rw [List.foldl_cons, h, h']; rfl⟩

/-- The round of `finish` for one entry. -/
theorem finishEntry_eq (d : Dispatcher Message) (s e : Nat) :
    ∃ ledger, finishEntry s d e =
      { d with
        states := d.states.update s fun S =>
          { S with pending := S.pending ++ [e].filter d.isCommitted }
        entries := d.entries.update e closed
        attachments := d.attachments ++ [e].filter d.isCommitted
        ledger } := by
  have hidle : d.isCommitted e = false →
      (d.states.update s fun S => { S with pending := S.pending ++ [e].filter d.isCommitted }) =
        d.states ∧ d.attachments ++ [e].filter d.isCommitted = d.attachments := by
    intro h
    rw [Heap.update_eq_self (by simp [h])]
    simp [h]
  unfold finishEntry
  cases he : d.entries.get e with
  | none =>
    obtain ⟨hs, ha⟩ := hidle (by simp [isCommitted, he])
    exact ⟨d.ledger, by rw [hs, ha, Heap.update_eq_self (by simp [he])]; rfl⟩
  | some E =>
    have hclosed : ∀ f : LeaseEntry Message → LeaseEntry Message, closed E = f E →
        d.entries.update e closed = d.entries.update e f := by
      intro f hf
      apply Heap.update_congr
      intro a ha
      obtain rfl := Option.some.inj (he.symm.trans ha)
      exact hf
    cases hE : E.state with
    | provisional =>
      obtain ⟨hs, ha⟩ := hidle (by simp [isCommitted, he, hE])
      obtain ⟨ledger, h⟩ := release_eq
        (d.updateEntry e ({ · with state := .rolledBack, dropped := some .leftProvisional })) e
      refine ⟨ledger, ?_⟩
      rw [hs, ha, hclosed ({ · with state := .rolledBack, dropped := some .leftProvisional })
        (by simp [closed, hE])]
      simp only [Option.map_some, hE]
      exact h
    | committed =>
      have hcomm : d.isCommitted e = true := by simp [isCommitted, he, hE]
      refine ⟨d.ledger, ?_⟩
      rw [hclosed ({ · with state := .attached }) (by simp [closed, hE])]
      simp [hE, hcomm, updateEntry, updateState]
    | rolledBack =>
      obtain ⟨hs, ha⟩ := hidle (by simp [isCommitted, he, hE])
      exact ⟨d.ledger, by rw [hs, ha, hclosed id (by simp [closed, hE]),
        Heap.update_eq_self (by simp)]; simp [hE]⟩
    | attached =>
      obtain ⟨hs, ha⟩ := hidle (by simp [isCommitted, he, hE])
      exact ⟨d.ledger, by rw [hs, ha, hclosed id (by simp [closed, hE]),
        Heap.update_eq_self (by simp)]; simp [hE]⟩

theorem finishEntries_eq (d : Dispatcher Message) (s : Nat) {es : List Nat} (hes : es.Nodup) :
    ∃ ledger, es.foldl (finishEntry s) d =
      { d with
        states := d.states.update s fun S =>
          { S with pending := S.pending ++ es.filter d.isCommitted }
        entries := d.entries.updateAll es closed
        attachments := d.attachments ++ es.filter d.isCommitted
        ledger } := by
  induction es generalizing d with
  | nil => exact ⟨d.ledger, by rw [Heap.update_eq_self (by simp)]; simp⟩
  | cons e es ih =>
    rw [List.nodup_cons] at hes
    obtain ⟨ledger, h⟩ := d.finishEntry_eq s e
    rw [List.foldl_cons, h]
    obtain ⟨ledger', h'⟩ := ih { d with
      states := d.states.update s fun S => { S with pending := S.pending ++ [e].filter d.isCommitted }
      entries := d.entries.update e closed
      attachments := d.attachments ++ [e].filter d.isCommitted, ledger } hes.2
    refine ⟨ledger', h'.trans ?_⟩
    -- The entries still to come are none of those already closed.
    have hrest : es.filter (isCommitted { d with
        states := d.states.update s fun S =>
          { S with pending := S.pending ++ [e].filter d.isCommitted }
        entries := d.entries.update e closed
        attachments := d.attachments ++ [e].filter d.isCommitted, ledger }) =
        es.filter d.isCommitted := by
      apply List.filter_congr
      intro e' he'
      have hne : e' ≠ e := by
        rintro rfl
        exact hes.1 he'
      simp only [isCommitted, Heap.get_update_of_ne hne]
    have hcons : (e :: es).filter d.isCommitted =
        [e].filter d.isCommitted ++ es.filter d.isCommitted := by
      rw [← List.filter_append, List.singleton_append]
    simp only [hrest, hcons, Heap.update_update, Heap.updateAll_cons, List.append_assoc]
    congr 2
    funext S
    simp

theorem tokenFor_eq (d : Dispatcher Message) (key : String) :
    ∃ tokens nextToken, (d.tokenFor key).2 = { d with tokens, nextToken } := by
  unfold tokenFor
  repeat' split
  all_goals exact ⟨_, _, rfl⟩

/-! ### The invariant -/

/-- The session an entry was offered to. -/
def keyOf (d : Dispatcher Message) (e : Nat) : Option String :=
  (d.entries.get e).bind fun E => (d.leases.get E.lease).map InternalLease.key

/-- What a turn still has to hand to the handler. -/
def waiting (T : Turn Message) : List Nat :=
  if T.phase = .queued then T.entries else []

/-- Every place where an attached entry can be. -/
def located (d : Dispatcher Message) : List Nat :=
  d.invocations.flatMap Invocation.entries ++ d.turns.gather waiting ++
    d.states.gather SessionState.pending

def handled (d : Dispatcher Message) (k : String) : List Nat :=
  (d.invocations.filter (·.key = k)).flatMap Invocation.entries

/-- What a session state still has to hand to the handler, in order. -/
def backlogAt (d : Dispatcher Message) (s : Nat) : List Nat :=
  match d.states.get s with
  | none => []
  | some S => (S.running.elim [] fun t => ((d.turns.get t).map waiting).getD []) ++ S.pending

def backlog (d : Dispatcher Message) (k : String) : List Nat :=
  match d.sessions.get k with
  | none => []
  | some s => d.backlogAt s

def attachmentsOf (d : Dispatcher Message) (k : String) : List Nat :=
  d.attachments.filter fun e => d.keyOf e = some k

/-- Session states, turns and leases point at each other. -/
structure Wired (d : Dispatcher Message) : Prop where
  turn : ∀ t T, d.turns.get t = some T → T.phase ≠ .done →
    ∃ S, d.states.get T.state = some S ∧ S.running = some t
  running : ∀ s S t, d.states.get s = some S → S.running = some t →
    ∃ T, d.turns.get t = some T ∧ T.phase ≠ .done ∧ T.state = s
  lease : ∀ l L, d.leases.get l = some L → L.finished = false →
    ∃ S, d.states.get L.state = some S ∧ l ∈ S.openLeases
  openLease : ∀ s S l, d.states.get s = some S → l ∈ S.openLeases →
    ∃ L, d.leases.get l = some L ∧ L.finished = false ∧ L.state = s

/-- A session state in use is the one its key names. -/
structure Named (d : Dispatcher Message) : Prop where
  state : ∀ k s, d.sessions.get k = some s → ∃ S, d.states.get s = some S
  unique : ∀ k k' s, d.sessions.get k = some s → d.sessions.get k' = some s → k = k'
  lease : ∀ l L, d.leases.get l = some L → L.finished = false →
    d.sessions.get L.key = some L.state
  turn : d.disposed = false → ∀ t T, d.turns.get t = some T → T.phase ≠ .done →
    d.sessions.get T.key = some T.state
  serial : ∀ t t' T T', d.turns.get t = some T → d.turns.get t' = some T' → T.key = T'.key →
    T.phase ≠ .done → T'.phase ≠ .done → t = t'
  disposed : d.disposed = true →
    ∀ s S, d.states.get s = some S → S.pending = [] ∧ S.openLeases = []

/-- The history of an entry fits its state. -/
def Consistent (E : LeaseEntry Message) : Prop :=
  match E.state with
  | .provisional => E.wasCommitted = false ∧ E.dropped = none
  | .committed => E.wasCommitted = true ∧ E.dropped = none
  | .rolledBack => E.dropped ≠ none
  | .attached => E.wasCommitted = true

/-- Leases hold their entries until they finish. -/
structure Filed (d : Dispatcher Message) : Prop where
  entry : ∀ l L e, d.leases.get l = some L → e ∈ L.entries →
    ∃ E, d.entries.get e = some E ∧ E.lease = l ∧ E.state ≠ .attached
  nodup : ∀ l L, d.leases.get l = some L → L.entries.Nodup
  lease : ∀ e E, d.entries.get e = some E → ∃ L, d.leases.get E.lease = some L
  open_ : ∀ e E, d.entries.get e = some E → E.state = .provisional ∨ E.state = .committed →
    ∃ L, d.leases.get E.lease = some L ∧ L.finished = false ∧ e ∈ L.entries
  consistent : ∀ e E, d.entries.get e = some E → Consistent E

/-- An attached entry that has not been dropped. -/
def isHeld (d : Dispatcher Message) (e : Nat) : Bool :=
  (d.entries.get e).any fun E => E.state = .attached ∧ E.dropped = none

/-- An attached entry that was not dropped has one place, under the right key. -/
structure Placed (options : Options Message) (d : Dispatcher Message) : Prop where
  once : ∀ e, d.located.count e = if d.isHeld e then 1 else 0
  pending : d.disposed = false → ∀ s S e, d.states.get s = some S → e ∈ S.pending →
    ∃ k, d.keyOf e = some k ∧ d.sessions.get k = some s
  turn : ∀ t T, d.turns.get t = some T → (∀ e ∈ T.entries, d.keyOf e = some T.key) ∧
    T.message = options.coalesce (d.messagesOf T.entries)
  invocation : ∀ i ∈ d.invocations, (∀ e ∈ i.entries, d.keyOf e = some i.key) ∧
    i.message = options.coalesce (d.messagesOf i.entries)
  attached : ∀ e ∈ d.attachments, ∃ k, d.keyOf e = some k
  order : ∀ k, (d.handled k ++ d.backlog k).Sublist (d.attachmentsOf k)

structure Core (options : Options Message) (d : Dispatcher Message) : Prop where
  wired : d.Wired
  named : d.Named
  filed : d.Filed
  placed : d.Placed options

/-- A session state that has something to do is running or waits for a lease. -/
def Drained (d : Dispatcher Message) (s : Nat) : Prop :=
  ∀ S, d.states.get s = some S → S.running = none → S.openLeases = [] → S.pending = []

structure Inv (options : Options Message) (d : Dispatcher Message) : Prop
    extends Core options d where
  idle : ∀ s, d.Drained s

/-- Neither the ledger nor the tokens matter. -/
theorem Core.books {options : Options Message} (h : d.Core options) (ledger : Ledger)
    (suppliedToken : Option (String → SessionToken)) (tokens : OrderedMap String SessionToken)
    (nextToken : SessionToken) :
    Core options { d with ledger, suppliedToken, tokens, nextToken } where
  wired := ⟨h.wired.turn, h.wired.running, h.wired.lease, h.wired.openLease⟩
  named := ⟨h.named.state, h.named.unique, h.named.lease, h.named.turn, h.named.serial,
    h.named.disposed⟩
  filed := ⟨h.filed.entry, h.filed.nodup, h.filed.lease, h.filed.open_, h.filed.consistent⟩
  placed := ⟨h.placed.once, h.placed.pending, h.placed.turn, h.placed.invocation,
    h.placed.attached, h.placed.order⟩

theorem Inv.books {options : Options Message} (h : d.Inv options) (ledger : Ledger)
    (suppliedToken : Option (String → SessionToken)) (tokens : OrderedMap String SessionToken)
    (nextToken : SessionToken) :
    Inv options { d with ledger, suppliedToken, tokens, nextToken } :=
  ⟨h.toCore.books ledger suppliedToken tokens nextToken, h.idle⟩

theorem Inv.create (options : Options Message) (suppliedToken : Option (String → SessionToken))
    (limits : BusyTurnLimits) : Inv options (create suppliedToken limits) where
  idle := by simp [Drained, Dispatcher.create]
  wired := by constructor <;> simp [Dispatcher.create]
  named := by constructor <;> simp [Dispatcher.create]
  filed := by constructor <;> simp [Dispatcher.create]
  placed := by
    constructor <;> simp [Dispatcher.create, located, handled, backlog, attachmentsOf, isHeld]

end Dispatcher

end Webchannel.Dispatch
