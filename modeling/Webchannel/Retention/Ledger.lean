import Webchannel.Retention.Calls

/-!
# The budget as a ledger

What the budget's clients can observe is the table of reservations: every counter is a sum
over it. The ledger is that table with the calls as pure functions. The budget's methods are
these functions as long as its books are in order, so over any run from its construction. The
components that hold reservations are modelled over the ledger.
-/

namespace Webchannel.Retention

open Webchannel.Effect

structure Ledger where
  limits : BusyTurnLimits
  rows : List Reservation
  deriving DecidableEq, Repr

namespace Ledger

def update (l : Ledger) (r : Nat) (f : Reservation → Reservation) : Ledger :=
  { l with rows := l.rows.modify r f }

def tryReserve (l : Ledger) (token : SessionToken) (chargedBytes : JsNumber)
    (owner : RetentionOwner) : Except Fault RetentionReserveResult × Ledger :=
  match assertSafeNonNegative chargedBytes "chargedBytes" with
  | .error fault => (.error fault, l)
  | .ok charge => match refusal l.limits l.rows token charge with
    | some reason => (.ok (.rejected reason), l)
    | none => (.ok (.accepted l.rows.length),
        { l with rows := l.rows ++ [Reservation.fresh token charge owner] })

/-- A reservation that can still be held and moved. -/
def Open (l : Ledger) (r : Nat) : Prop :=
  ∃ x, l.rows[r]? = some x ∧ x.released = false ∧ x.releaseRequested = false

instance (l : Ledger) (r : Nat) : Decidable (l.Open r) :=
  match h : l.rows[r]? with
  | none => isFalse (by simp [Open, h])
  | some x => decidable_of_iff (x.released = false ∧ x.releaseRequested = false)
      (by simp [Open, h])

/-- `hold()`: the new handle, or `none` when it throws. -/
def hold (l : Ledger) (r : Nat) : Option (Nat × Ledger) :=
  if l.Open r then
    some ((l.rows[r]?.map fun x => x.handles.length).getD 0, l.update r Reservation.held)
  else none

def releaseHold (l : Ledger) (r h : Nat) : Ledger := l.update r (·.holdReleased h)

/-- `transfer(next)`, or `none` when it throws. -/
def transfer (l : Ledger) (r : Nat) (next : RetentionOwner) : Option Ledger :=
  if l.Open r then some (l.update r ({ · with owner := next })) else none

def requestRelease (l : Ledger) (r : Nat) : Ledger := l.update r Reservation.releaseAsked

/-- One call, with the reply its caller sees. -/
def call (l : Ledger) : Call → Except Fault Reply × Ledger
  | .tryReserve token chargedBytes owner =>
    ((l.tryReserve token chargedBytes owner).1.map Reply.reserved,
      (l.tryReserve token chargedBytes owner).2)
  | .hold r => if l.rows[r]? = none then (.ok .noSuchReservation, l) else match l.hold r with
    | none => (.error .cannotHold, l)
    | some (h, l') => (.ok (.handle h), l')
  | .releaseHold r h => if l.rows[r]? = none then (.ok .noSuchReservation, l)
    else (.ok .done, l.releaseHold r h)
  | .transfer r next => if l.rows[r]? = none then (.ok .noSuchReservation, l)
    else match l.transfer r next with
    | none => (.error .alreadyReleased, l)
    | some l' => (.ok .done, l')
  | .requestRelease r => if l.rows[r]? = none then (.ok .noSuchReservation, l)
    else (.ok .done, l.requestRelease r)
  | .release r => if l.rows[r]? = none then (.ok .noSuchReservation, l)
    else if l.Open r then (.ok .done, l.requestRelease r)
    else (.error .releasedMoreThanOnce, l)

/-- The replies to a sequence of calls, and the ledger after it. -/
def calls : Ledger → List Call → List (Except Fault Reply) × Ledger
  | l, [] => ([], l)
  | l, c :: rest => ((l.call c).1 :: ((l.call c).2.calls rest).1, ((l.call c).2.calls rest).2)

end Ledger

def Budget.ledger (b : Budget) : Ledger := ⟨b.limits, b.reservations⟩

variable {b : Budget} {r : Nat} {x : Reservation}

theorem Ledger.rows_update {l : Ledger} {f : Reservation → Reservation}
    (hx : l.rows[r]? = some x) : (l.update r f).rows = l.rows.set r (f x) := by
  obtain ⟨hlt, rfl⟩ := List.getElem?_eq_some_iff.mp hx
  simp only [update, List.modify_eq_set_getElem?, hx]
  rfl

theorem Ledger.open_iff {l : Ledger} (hx : l.rows[r]? = some x) :
    l.Open r ↔ x.released = false ∧ x.releaseRequested = false := by
  simp [Open, hx]

theorem Ledger.not_open {l : Ledger} (hx : l.rows[r]? = some x)
    (h : x.released = true ∨ x.releaseRequested = true) : ¬ l.Open r := by
  rw [Ledger.open_iff hx]
  rintro ⟨hl, hq⟩
  simp [hl, hq] at h

theorem Became.ledger {b' : Budget} {f : Reservation → Reservation}
    (hx : b.reservations[r]? = some x) (h : Became b b' (b.reservations.set r (f x))) :
    b'.ledger = b.ledger.update r f := by
  have hrows := Ledger.rows_update (l := b.ledger) (f := f) hx
  simp only [Budget.ledger, Ledger.update] at hrows ⊢
  rw [h.limits, h.reservations, hrows]

theorem exec_tryReserve_ledger (ha : Accounting b) (t : SessionToken) (charge : JsNumber)
    (o : RetentionOwner) :
    (exec (tryReserve t charge o) b).1 = (b.ledger.tryReserve t charge o).1 ∧
      (exec (tryReserve t charge o) b).2.ledger = (b.ledger.tryReserve t charge o).2 := by
  unfold tryReserve Ledger.tryReserve
  cases hn : assertSafeNonNegative charge "chargedBytes" with
  | error fault => exact ⟨rfl, rfl⟩
  | ok n =>
    simp only
    rw [exec_tryReserveChecked ha.exact]
    simp only [Budget.ledger]
    cases refusal b.limits b.reservations t n with
    | some reason => exact ⟨rfl, rfl⟩
    | none => exact ⟨rfl, rfl⟩

/-- Where its books are in order, every method of the budget is the ledger's function. -/
theorem call_refines (ha : Accounting b) (c : Call) :
    (exec c.run b).1 = (b.ledger.call c).1 ∧ (exec c.run b).2.ledger = (b.ledger.call c).2 := by
  cases c with
  | tryReserve t charge o =>
    obtain ⟨hreply, hledger⟩ := exec_tryReserve_ledger ha t charge o
    simp only [Call.run, Ledger.call, ← hreply, ← hledger]
    rw [exec_bind]
    rcases exec (tryReserve t charge o) b with ⟨reply, b'⟩
    cases reply <;> exact ⟨rfl, rfl⟩
  | hold r =>
    simp only [Call.run, Ledger.call]
    cases hx : b.reservations[r]? with
    | none => simp [exec_onReservation_none hx, Budget.ledger, hx]
    | some x =>
      have hopen := Ledger.open_iff (l := b.ledger) hx
      rw [exec_onReservation_some hx, if_neg (by simp [Budget.ledger, hx])]
      rcases exec_hold ha.exact hx with ⟨hbusy, h⟩ | ⟨hfree, b', h, hb'⟩
      · rw [exec_bind_error h, Ledger.hold, if_neg (Ledger.not_open (l := b.ledger) hx hbusy)]
        exact ⟨rfl, rfl⟩
      · rw [exec_bind_ok h, Ledger.hold, if_pos (hopen.mpr hfree)]
        exact ⟨by simp [Budget.ledger, hx], hb'.ledger hx⟩
  | releaseHold r h =>
    simp only [Call.run, Ledger.call]
    cases hx : b.reservations[r]? with
    | none => simp [exec_onReservation_none hx, Budget.ledger, hx]
    | some x =>
      obtain ⟨b', hexec, hb'⟩ := exec_releaseHold (h := h) ha.exact hx
        (ha.rows x (List.mem_of_getElem? hx))
      rw [exec_onReservation_some hx, if_neg (by simp [Budget.ledger, hx]), exec_bind_ok hexec]
      exact ⟨rfl, hb'.ledger (f := (·.holdReleased h)) hx⟩
  | transfer r next =>
    simp only [Call.run, Ledger.call]
    cases hx : b.reservations[r]? with
    | none => simp [exec_onReservation_none hx, Budget.ledger, hx]
    | some x =>
      have hopen := Ledger.open_iff (l := b.ledger) hx
      rw [exec_onReservation_some hx, if_neg (by simp [Budget.ledger, hx])]
      rcases exec_transfer (o := next) ha.exact hx with ⟨hbusy, h⟩ | ⟨hfree, b', h, hb'⟩
      · rw [exec_bind_error h, Ledger.transfer, if_neg (Ledger.not_open (l := b.ledger) hx hbusy)]
        exact ⟨rfl, rfl⟩
      · rw [exec_bind_ok h, Ledger.transfer, if_pos (hopen.mpr hfree)]
        exact ⟨rfl, hb'.ledger (f := ({ · with owner := next })) hx⟩
  | requestRelease r =>
    simp only [Call.run, Ledger.call]
    cases hx : b.reservations[r]? with
    | none => simp [exec_onReservation_none hx, Budget.ledger, hx]
    | some x =>
      obtain ⟨b', hexec, hb'⟩ := exec_requestRelease ha.exact hx
        (ha.rows x (List.mem_of_getElem? hx))
      rw [exec_onReservation_some hx, if_neg (by simp [Budget.ledger, hx]), exec_bind_ok hexec]
      exact ⟨rfl, hb'.ledger hx⟩
  | release r =>
    simp only [Call.run, Ledger.call]
    cases hx : b.reservations[r]? with
    | none => simp [exec_onReservation_none hx, Budget.ledger, hx]
    | some x =>
      have hopen := Ledger.open_iff (l := b.ledger) hx
      rw [exec_onReservation_some hx, if_neg (by simp [Budget.ledger, hx])]
      rcases exec_release ha.exact hx (ha.rows x (List.mem_of_getElem? hx)) with
        ⟨hbusy, h⟩ | ⟨hfree, b', h, hb'⟩
      · rw [exec_bind_error h, if_neg (Ledger.not_open (l := b.ledger) hx hbusy)]
        exact ⟨rfl, rfl⟩
      · rw [exec_bind_ok h, if_pos (hopen.mpr hfree)]
        exact ⟨rfl, hb'.ledger hx⟩

theorem runCalls_refines (ha : Accounting b) (calls : List Call) :
    (runCalls b calls).1 = (b.ledger.calls calls).1 ∧
      (runCalls b calls).2.ledger = (b.ledger.calls calls).2 := by
  induction calls generalizing b with
  | nil => exact ⟨rfl, rfl⟩
  | cons c rest ih =>
    obtain ⟨hreply, hledger⟩ := call_refines ha c
    obtain ⟨hreplies, hlast⟩ := ih (ha.call c)
    rw [hledger] at hreplies hlast
    simp only [runCalls, Ledger.calls]
    exact ⟨by rw [hreply, hreplies], hlast⟩

/-- From its construction on, a budget cannot be told from the ledger: the same calls have the same
replies, refusals and exceptions, and leave the same table. -/
theorem budget_is_ledger (limits : BusyTurnLimits) (calls : List Call) :
    (runCalls (Budget.new limits) calls).1 = (Ledger.calls ⟨limits, []⟩ calls).1 ∧
      (runCalls (Budget.new limits) calls).2.ledger = (Ledger.calls ⟨limits, []⟩ calls).2 :=
  runCalls_refines (Accounting.new limits) calls

end Webchannel.Retention
