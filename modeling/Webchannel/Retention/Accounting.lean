import Webchannel.Lib.Tally
import Webchannel.Retention.Budget

/-!
# The counters are the sums they stand for

`Exact` says that each of the redundant counters equals a tally over the table of
reservations, and `Row.Ok` says what one reservation's variables can look like. Every
method keeps both, and the row it leaves is a pure function of the row it found: that
function is what the rest of the development uses in place of the counters.
-/

namespace Webchannel.Retention

open Webchannel.Effect Webchannel.Tally

def live (x : Reservation) : Bool := !x.released
def ofSession (t : SessionToken) (x : Reservation) : Bool := live x && x.sessionToken == t
def ofOwner (o : RetentionOwner) (x : Reservation) : Bool := live x && x.owner == o
def ofSessionOwner (t : SessionToken) (o : RetentionOwner) (x : Reservation) : Bool :=
  ofSession t x && x.owner == o

/-- One message and its charge for every reservation that passes the test. -/
def usageOf (p : Reservation → Bool) (rows : List Reservation) : RetentionUsage :=
  ⟨tally (fun _ => 1) p rows, tally (fun x => x.chargedBytes) p rows⟩

def RetentionUsage.Nonneg (u : RetentionUsage) : Prop := 0 ≤ u.messages ∧ 0 ≤ u.bytes

theorem usageOf_nonneg (p : Reservation → Bool) (rows : List Reservation) :
    (usageOf p rows).Nonneg :=
  ⟨tally_nonneg (by simp), tally_nonneg (by simp)⟩

@[simp] theorem usageOf_nil (p : Reservation → Bool) : usageOf p [] = zeroUsage := rfl

@[simp] theorem add_zero_zero (u : RetentionUsage) : u.add 0 0 = u := by
  simp [RetentionUsage.add]

theorem usageOf_append (p : Reservation → Bool) (rows : List Reservation) (x : Reservation) :
    usageOf p (rows ++ [x]) =
      if p x then (usageOf p rows).add 1 x.chargedBytes else usageOf p rows := by
  cases h : p x <;> simp [usageOf, RetentionUsage.add, h]

/-- A row update that keeps the test's answer and the charge keeps the usage. -/
theorem usageOf_set_same {p : Reservation → Bool} {rows : List Reservation} {r : Nat}
    {x y : Reservation} (h : rows[r]? = some x) (hp : p y = p x)
    (hc : y.chargedBytes = x.chargedBytes) : usageOf p (rows.set r y) = usageOf p rows := by
  simp [usageOf, tally_set h, hp, hc]

theorem usageOf_set_drop {p : Reservation → Bool} {rows : List Reservation} {r : Nat}
    {x y : Reservation} (h : rows[r]? = some x) (hx : p x = true) (hy : p y = false) :
    usageOf p (rows.set r y) = (usageOf p rows).add (-1) (-x.chargedBytes) := by
  simp [usageOf, tally_set h, hx, hy, RetentionUsage.add, Int.sub_eq_add_neg]

theorem usageOf_set_gain {p : Reservation → Bool} {rows : List Reservation} {r : Nat}
    {x y : Reservation} (h : rows[r]? = some x) (hx : p x = false) (hy : p y = true) :
    usageOf p (rows.set r y) = (usageOf p rows).add 1 y.chargedBytes := by
  simp [usageOf, tally_set h, hx, hy, RetentionUsage.add]

theorem usageOf_messages_pos {p : Reservation → Bool} {rows : List Reservation} {x : Reservation}
    (hx : x ∈ rows) (hp : p x = true) : 1 ≤ (usageOf p rows).messages :=
  weight_le_tally (f := fun _ => 1) (by simp) hx hp

theorem usageOf_messages_ne_zero {p : Reservation → Bool} {rows : List Reservation} :
    (usageOf p rows).messages ≠ 0 ↔ ∃ x ∈ rows, p x = true := by
  constructor
  · intro h
    by_contra hnone
    simp only [not_exists, not_and, Bool.not_eq_true] at hnone
    exact h (tally_eq_zero hnone)
  · rintro ⟨x, hx, hp⟩
    have := usageOf_messages_pos hx hp
    omega

theorem usageOf_eq_zero {p : Reservation → Bool} {rows : List Reservation}
    (h : ∀ x ∈ rows, p x = false) : usageOf p rows = zeroUsage := by
  simp [usageOf, zeroUsage, tally_eq_zero h]

/-- Every counter equals the sum it stands for, and a session has a record exactly
when it has a reservation that is not finalised. -/
structure Exact (b : Budget) : Prop where
  process : b.processUsage = usageOf live b.reservations
  processOwner : ∀ o, b.processBreakdown o = usageOf (ofOwner o) b.reservations
  session : ∀ t st, b.sessions t = some st → st.usage = usageOf (ofSession t) b.reservations
  sessionOwner : ∀ t st, b.sessions t = some st →
    ∀ o, st.breakdown o = usageOf (ofSessionOwner t o) b.reservations
  present : ∀ t, (b.sessions t).isSome = true ↔ ∃ x ∈ b.reservations, ofSession t x = true

/-- What one reservation's variables can look like between two calls. -/
structure Row.Ok (x : Reservation) : Prop where
  holds : x.holds = x.handles.count true
  released : x.released = (x.releaseRequested && decide (x.handles.count true = 0))
  finalizations : x.finalizations = if x.released then 1 else 0

structure Within (b : Budget) : Prop where
  sessionMessages : ∀ t, (usageOf (ofSession t) b.reservations).messages ≤
    b.limits.maxMessagesPerSession
  sessionBytes : ∀ t, (usageOf (ofSession t) b.reservations).bytes ≤ b.limits.maxBytesPerSession
  processMessages : (usageOf live b.reservations).messages ≤ b.limits.maxMessagesPerProcess
  processBytes : (usageOf live b.reservations).bytes ≤ b.limits.maxBytesPerProcess

structure Accounting (b : Budget) : Prop where
  exact : Exact b
  rows : ∀ x ∈ b.reservations, Row.Ok x
  within : Within b

/-! ### The counters move together -/

theorem exec_assertUsage {u : RetentionUsage} (h : u.Nonneg) (scope : String) (b : Budget) :
    exec (assertUsage u scope) b = (.ok (), b) := by
  have : ¬ (u.messages < 0 ∨ u.bytes < 0) := by
    rcases h with ⟨hm, hb⟩
    omega
  simp [assertUsage, this]

/-- The budget after both levels of one breakdown bucket have moved. -/
def Budget.movedBucket (b : Budget) (t : SessionToken) (st : SessionState) (o : RetentionOwner)
    (dm db : Int) : Budget :=
  { b with
    sessions := Function.update b.sessions t
      (some { st with breakdown := st.breakdown.add o dm db })
    processBreakdown := b.processBreakdown.add o dm db }

theorem exec_adjustBreakdown {b : Budget} {t : SessionToken} {s : SessionState}
    {o : RetentionOwner} {m n : Int} (hs : b.sessions t = some s)
    (hst : ((s.breakdown o).add m n).Nonneg)
    (hp : ((b.processBreakdown o).add m n).Nonneg) :
    exec (adjustBreakdown t o m n) b = (.ok (), b.movedBucket t s o m n) := by
  unfold adjustBreakdown
  rw [exec_bind_ok (exec_modify _ _), exec_bind_ok (exec_get _)]
  have hsession : ({ b.updateSession t fun state =>
      { state with breakdown := state.breakdown.add o m n } with
      processBreakdown := b.processBreakdown.add o m n } : Budget) =
      b.movedBucket t s o m n := by
    simp [Budget.updateSession, Budget.movedBucket, hs]
  rw [hsession, exec_bind_ok (exec_assertUsage _ _ _)]
  · exact exec_assertUsage (by simpa [Budget.movedBucket, RetentionBreakdown.add] using hp) _ _
  · simpa [Budget.session, Budget.movedBucket, RetentionBreakdown.add] using hst

/-- The budget after a reservation's charge has been added to, or taken from, all
four places. -/
def Budget.adjusted (b : Budget) (t : SessionToken) (st : SessionState) (o : RetentionOwner)
    (dm db : Int) : Budget :=
  { b with
    sessions := Function.update b.sessions t
      (some ⟨st.usage.add dm db, st.breakdown.add o dm db⟩)
    processUsage := b.processUsage.add dm db
    processBreakdown := b.processBreakdown.add o dm db }

theorem exec_adjust {b : Budget} {t : SessionToken} {s : SessionState} {o : RetentionOwner}
    {m n : Int} (hs : b.sessions t = some s)
    (hu : (s.usage.add m n).Nonneg) (hp : (b.processUsage.add m n).Nonneg)
    (hst : ((s.breakdown o).add m n).Nonneg)
    (hpo : ((b.processBreakdown o).add m n).Nonneg) :
    exec (adjust t o m n) b = (.ok (), b.adjusted t s o m n) := by
  unfold adjust
  rw [exec_bind_ok (exec_modify _ _)]
  have hb : ({ b.updateSession t fun state => { state with usage := state.usage.add m n } with
      processUsage := b.processUsage.add m n } : Budget) =
      { b with
        sessions := Function.update b.sessions t (some { s with usage := s.usage.add m n })
        processUsage := b.processUsage.add m n } := by
    simp [Budget.updateSession, hs]
  rw [hb, exec_bind_ok (exec_adjustBreakdown (s := { s with usage := s.usage.add m n })
    (by simp) (by simpa using hst) (by simpa using hpo)), exec_bind_ok (exec_get _)]
  have hadj : Budget.movedBucket { b with
        sessions := Function.update b.sessions t (some { s with usage := s.usage.add m n })
        processUsage := b.processUsage.add m n } t { s with usage := s.usage.add m n } o m n =
      b.adjusted t s o m n := by
    simp [Budget.movedBucket, Budget.adjusted]
  rw [hadj, exec_bind_ok (exec_assertUsage _ _ _)]
  · exact exec_assertUsage (by simpa [Budget.adjusted] using hp) _ _
  · simpa [Budget.session, Budget.adjusted] using hu

/-! ### What each method does to its row -/

/-- `finalizeRelease`, on the row. -/
def Reservation.finalized (x : Reservation) : Reservation :=
  { x with released := true, finalizations := x.finalizations + 1 }

/-- A requested release takes effect once no hold is outstanding. -/
def Reservation.settled (x : Reservation) : Reservation :=
  if x.releaseRequested && !x.released && decide (x.handles.count true = 0)
  then x.finalized else x

def Reservation.held (x : Reservation) : Reservation :=
  { x with holds := x.holds + 1, handles := x.handles ++ [true] }

def Reservation.holdReleased (x : Reservation) (h : Nat) : Reservation :=
  if x.handles[h]? = some true then
    Reservation.settled { x with handles := x.handles.set h false, holds := x.holds - 1 }
  else x

def Reservation.releaseAsked (x : Reservation) : Reservation :=
  if x.releaseRequested || x.released then x
  else Reservation.settled { x with releaseRequested := true }

/-- `b'` is `b` with the table `rows`, and its counters are exact again. -/
structure Became (b b' : Budget) (rows : List Reservation) : Prop where
  reservations : b'.reservations = rows
  limits : b'.limits = b.limits
  exact : Exact b'

/-- The part of a row the counters depend on. -/
structure SameCharge (x y : Reservation) : Prop where
  released : y.released = x.released
  token : y.sessionToken = x.sessionToken
  owner : y.owner = x.owner
  bytes : y.chargedBytes = x.chargedBytes

theorem Exact.set_same {b : Budget} {r : Nat} {x y : Reservation} (he : Exact b)
    (hx : b.reservations[r]? = some x) (h : SameCharge x y) :
    Became b (b.setReservation r y) (b.reservations.set r y) := by
  refine ⟨rfl, rfl, ⟨?_, ?_, ?_, ?_, ?_⟩⟩
  · exact he.process.trans (usageOf_set_same hx (by simp [live, h.released]) h.bytes).symm
  · intro o
    exact (he.processOwner o).trans
      (usageOf_set_same hx (by simp [ofOwner, live, h.released, h.owner]) h.bytes).symm
  · intro t st hst
    exact (he.session t st hst).trans
      (usageOf_set_same hx (by simp [ofSession, live, h.released, h.token]) h.bytes).symm
  · intro t st hst o
    exact (he.sessionOwner t st hst o).trans (usageOf_set_same hx
      (by simp [ofSessionOwner, ofSession, live, h.released, h.token, h.owner]) h.bytes).symm
  · intro t
    rw [show (b.setReservation r y).sessions = b.sessions from rfl, he.present t,
      ← usageOf_messages_ne_zero, ← usageOf_messages_ne_zero,
      show (b.setReservation r y).reservations = b.reservations.set r y from rfl,
      usageOf_set_same hx (by simp [ofSession, live, h.released, h.token]) h.bytes]

/-- The session of a live reservation has a record. -/
theorem Exact.session_of_live {b : Budget} {r : Nat} {x : Reservation} (he : Exact b)
    (hx : b.reservations[r]? = some x) (hl : x.released = false) :
    ∃ st, b.sessions x.sessionToken = some st :=
  Option.isSome_iff_exists.mp ((he.present _).mpr
    ⟨x, List.mem_of_getElem? hx, by simp [ofSession, live, hl]⟩)

/-- Taking a live row's charge away never makes a counter negative. -/
theorem drop_nonneg {p : Reservation → Bool} {rows : List Reservation} {r : Nat}
    {x : Reservation} (hx : rows[r]? = some x) (hp : p x = true) :
    ((usageOf p rows).add (-1) (-x.chargedBytes)).Nonneg := by
  have hm := usageOf_messages_pos (List.mem_of_getElem? hx) hp
  have hb : (x.chargedBytes : Int) ≤ (usageOf p rows).bytes :=
    weight_le_tally (f := fun x => (x.chargedBytes : Int)) (by simp)
      (List.mem_of_getElem? hx) hp
  simp only [RetentionUsage.add, RetentionUsage.Nonneg]
  omega

/-- The session map after `t` has lost one reservation: the record goes when nothing is left. -/
def sessionsAfterDrop (b : Budget) (t : SessionToken) (usage : RetentionUsage)
    (breakdown : RetentionBreakdown) : SessionToken → Option SessionState :=
  Function.update b.sessions t
    (if usage.messages = 0 ∧ usage.bytes = 0 then none else some ⟨usage, breakdown⟩)

def Budget.afterDrop (b : Budget) (r : Nat) (x : Reservation) (st : SessionState) : Budget :=
  { b with
    sessions := sessionsAfterDrop b x.sessionToken (st.usage.add (-1) (-x.chargedBytes))
      (st.breakdown.add x.owner (-1) (-x.chargedBytes))
    processUsage := b.processUsage.add (-1) (-x.chargedBytes)
    processBreakdown := b.processBreakdown.add x.owner (-1) (-x.chargedBytes)
    reservations := b.reservations.set r x.finalized }

theorem Exact.afterDrop {b : Budget} {r : Nat} {x : Reservation} {st : SessionState}
    (he : Exact b) (hx : b.reservations[r]? = some x) (hl : x.released = false)
    (hst : b.sessions x.sessionToken = some st) : Exact (b.afterDrop r x st) := by
  have hlive : live x = true := by simp [live, hl]
  have hdead : live x.finalized = false := by simp [live, Reservation.finalized]
  have hsess : st.usage.add (-1) (-x.chargedBytes) =
      usageOf (ofSession x.sessionToken) (b.reservations.set r x.finalized) := by
    rw [usageOf_set_drop hx (by simp [ofSession, hlive]) (by simp [ofSession, hdead]),
      he.session _ _ hst]
  have hown : ∀ o, (st.breakdown.add x.owner (-1) (-x.chargedBytes)) o =
      usageOf (ofSessionOwner x.sessionToken o) (b.reservations.set r x.finalized) := by
    intro o
    by_cases ho : o = x.owner
    · subst ho
      rw [usageOf_set_drop hx (by simp [ofSessionOwner, ofSession, hlive])
        (by simp [ofSessionOwner, ofSession, hdead]), ← he.sessionOwner _ _ hst]
      simp [RetentionBreakdown.add]
    · rw [usageOf_set_same (y := x.finalized) hx
        (by simp [ofSessionOwner, ofSession, hdead, Ne.symm ho]) rfl,
        ← he.sessionOwner _ _ hst]
      simp [RetentionBreakdown.add, ho]
  -- A session other than the row's own keeps its record and its sums.
  have hother : ∀ t, t ≠ x.sessionToken → ∀ o,
      usageOf (ofSession t) (b.reservations.set r x.finalized) =
        usageOf (ofSession t) b.reservations ∧
      usageOf (ofSessionOwner t o) (b.reservations.set r x.finalized) =
        usageOf (ofSessionOwner t o) b.reservations := by
    intro t ht o
    constructor
    · exact usageOf_set_same hx (by simp [ofSession, hdead, Ne.symm ht]) rfl
    · exact usageOf_set_same hx (by simp [ofSessionOwner, ofSession, hdead, Ne.symm ht]) rfl
  refine ⟨?_, ?_, ?_, ?_, ?_⟩ <;> simp only [Budget.afterDrop]
  · rw [usageOf_set_drop hx hlive hdead, he.process]
  · intro o
    by_cases ho : o = x.owner
    · subst ho
      rw [usageOf_set_drop hx (by simp [ofOwner, hlive]) (by simp [ofOwner, hdead]),
        ← he.processOwner]
      simp [RetentionBreakdown.add]
    · rw [usageOf_set_same (y := x.finalized) hx (by simp [ofOwner, hdead, Ne.symm ho]) rfl,
        ← he.processOwner]
      simp [RetentionBreakdown.add, ho]
  · intro t st' hst'
    by_cases ht : t = x.sessionToken
    · subst ht
      simp only [sessionsAfterDrop, Function.update_self] at hst'
      split at hst'
      · cases hst'
      · cases hst'
        exact hsess
    · rw [(hother t ht x.owner).1]
      exact he.session t st' (by simpa [sessionsAfterDrop, ht] using hst')
  · intro t st' hst' o
    by_cases ht : t = x.sessionToken
    · subst ht
      simp only [sessionsAfterDrop, Function.update_self] at hst'
      split at hst'
      · cases hst'
      · cases hst'
        exact hown o
    · rw [(hother t ht o).2]
      exact he.sessionOwner t st' (by simpa [sessionsAfterDrop, ht] using hst') o
  · intro t
    rw [← usageOf_messages_ne_zero]
    by_cases ht : t = x.sessionToken
    · subst ht
      rw [← hsess]
      simp only [sessionsAfterDrop, Function.update_self]
      split
      · simp_all
      · rename_i hne
        have hzero : (usageOf (ofSession x.sessionToken)
            (b.reservations.set r x.finalized)).messages = 0 →
            (usageOf (ofSession x.sessionToken) (b.reservations.set r x.finalized)).bytes = 0 := by
          intro hm
          have hnone : ¬ ∃ z ∈ b.reservations.set r x.finalized,
              ofSession x.sessionToken z = true := by
            rw [← usageOf_messages_ne_zero]
            exact fun h => h hm
          simp only [not_exists, not_and, Bool.not_eq_true] at hnone
          rw [usageOf_eq_zero hnone]
          rfl
        rw [hsess] at hne ⊢
        simp only [Option.isSome_some, true_iff]
        exact fun hm => hne ⟨hm, hzero hm⟩
    · rw [(hother t ht x.owner).1, usageOf_messages_ne_zero, ← he.present t]
      simp [sessionsAfterDrop, ht]

theorem exec_finalizeRelease {b : Budget} {r : Nat} {x : Reservation} (he : Exact b)
    (hx : b.reservations[r]? = some x) (hl : x.released = false) :
    ∃ b', exec (finalizeRelease r x) b = (.ok (), b') ∧
      Became b b' (b.reservations.set r x.finalized) := by
  obtain ⟨st, hst⟩ := he.session_of_live hx hl
  have hlive : live x = true := by simp [live, hl]
  have hsess : ofSession x.sessionToken x = true := by simp [ofSession, hlive]
  have hadjust := exec_adjust (b := b) (o := x.owner) (m := -1) (n := -x.chargedBytes) hst
    (by rw [he.session _ _ hst]; exact drop_nonneg hx hsess)
    (by rw [he.process]; exact drop_nonneg hx hlive)
    (by rw [he.sessionOwner _ _ hst]; exact drop_nonneg hx (by simp [ofSessionOwner, hsess]))
    (by rw [he.processOwner]; exact drop_nonneg hx (by simp [ofOwner, hlive]))
  refine ⟨b.afterDrop r x st, ?_, ⟨rfl, rfl, he.afterDrop hx hl hst⟩⟩
  unfold finalizeRelease
  rw [exec_bind_ok (exec_get _)]
  simp only [hst, Option.isNone_some, Bool.false_eq_true, if_false]
  rw [exec_bind_ok hadjust, exec_bind_ok (exec_modify _ _), exec_bind_ok (exec_get _)]
  simp only [exec_ite, exec_modify, exec_pure, Budget.session, Budget.setReservation,
    Budget.adjusted, Function.update_self, Option.getD_some, Function.update_idem]
  split
  · rename_i hz
    simp only [Budget.afterDrop, sessionsAfterDrop, if_pos hz]
    rfl
  · rename_i hz
    simp only [Budget.afterDrop, sessionsAfterDrop, if_neg hz]
    rfl

end Webchannel.Retention
