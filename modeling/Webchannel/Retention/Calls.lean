import Webchannel.Retention.Accounting

/-!
# Every sequence of calls keeps the books

Each method of a reservation changes one row of the table, by a pure function of that
row, and leaves exact counters; the only exceptions are the ones its contract names. The
run theorem at the end is the accounting law for arbitrary call sequences.
-/

namespace Webchannel.Retention

open Webchannel.Effect Webchannel.Tally

variable {b : Budget} {r : Nat} {x : Reservation}

theorem getElem?_set_row {rows : List Reservation} {y : Reservation} (h : rows[r]? = some x) :
    (rows.set r y)[r]? = some y := by
  have hlt := (List.getElem?_eq_some_iff.mp h).1
  simp [hlt]

theorem set_row_self {rows : List Reservation} (h : rows[r]? = some x) : rows.set r x = rows := by
  obtain ⟨hlt, rfl⟩ := List.getElem?_eq_some_iff.mp h
  simp

theorem Became.trans {b₁ b₂ b₃ : Budget} {rows₂ rows₃ : List Reservation}
    (h₁ : Became b₁ b₂ rows₂) (h₂ : Became b₂ b₃ rows₃) : Became b₁ b₃ rows₃ :=
  ⟨h₂.reservations, h₂.limits.trans h₁.limits, h₂.exact⟩

/-- The row a `hold` leaves, or the refusal of a reservation on its way out. -/
theorem exec_hold (he : Exact b) (hx : b.reservations[r]? = some x) :
    (x.released = true ∨ x.releaseRequested = true) ∧ exec (hold r x) b = (.error .cannotHold, b) ∨
    (x.released = false ∧ x.releaseRequested = false) ∧
      ∃ b', exec (hold r x) b = (.ok x.handles.length, b') ∧
        Became b b' (b.reservations.set r x.held) := by
  by_cases h : x.released = true ∨ x.releaseRequested = true
  · refine .inl ⟨h, ?_⟩
    unfold hold
    rw [if_pos (by simpa using h)]
    exact exec_bind_error (exec_throw _ _)
  · have hf : x.released = false ∧ x.releaseRequested = false := by simpa using h
    refine .inr ⟨hf, b.setReservation r x.held, ?_, he.set_same hx ⟨rfl, rfl, rfl, rfl⟩⟩
    unfold hold
    rw [if_neg (by simpa using h)]
    rfl

/-- Setting a requested row and finalising it when nothing holds it is one settled row. -/
theorem exec_settle {y : Reservation} (he : Exact b) (hx : b.reservations[r]? = some x)
    (hsame : SameCharge x y) (hl : x.released = false) (hh : y.holds = y.handles.count true) :
    ∃ b', exec (if y.holds = 0 ∧ y.releaseRequested = true ∧ y.released = false
        then finalizeRelease r y else pure ()) (b.setReservation r y) = (.ok (), b') ∧
      Became b b' (b.reservations.set r y.settled) := by
  have hset := he.set_same hx hsame
  have hy : y.released = false := hsame.released.trans hl
  have hrow : (b.setReservation r y).reservations[r]? = some y := by
    simpa [Budget.setReservation] using getElem?_set_row hx
  by_cases hcond : y.holds = 0 ∧ y.releaseRequested = true ∧ y.released = false
  · obtain ⟨b', hexec, hb'⟩ := exec_finalizeRelease hset.exact hrow hy
    refine ⟨b', by rw [if_pos hcond]; exact hexec, hset.trans ⟨?_, hb'.limits, hb'.exact⟩⟩
    have hcount : y.handles.count true = 0 := by omega
    have hsettled : y.settled = y.finalized := by
      simp [Reservation.settled, hcond.2.1, hy, hcount]
    rw [hb'.reservations, hsettled, hset.reservations, List.set_set]
  · refine ⟨b.setReservation r y, by rw [if_neg hcond]; rfl, ?_⟩
    have hsettled : y.settled = y := by
      have : ¬ (y.releaseRequested = true ∧ y.released = false ∧ y.handles.count true = 0) := by
        rintro ⟨h₁, h₂, h₃⟩
        exact hcond ⟨by omega, h₁, h₂⟩
      simp only [Reservation.settled]
      rw [if_neg (by simpa [and_assoc] using this)]
    rw [hsettled]
    exact hset

theorem count_set_false {flags : List Bool} {i : Nat} (h : flags[i]? = some true) :
    (flags.set i false).count true + 1 = flags.count true := by
  obtain ⟨hlt, htrue⟩ := List.getElem?_eq_some_iff.mp h
  have hcount := List.count_set (a := false) (b := true) (l := flags) hlt
  have hpos : 0 < flags.count true := List.count_pos_iff.mpr (List.mem_of_getElem? h)
  simp only [htrue, beq_self_eq_true, if_true] at hcount
  simp at hcount
  omega

theorem exec_releaseHold {h : Nat} (he : Exact b) (hx : b.reservations[r]? = some x)
    (hrow : Row.Ok x) : ∃ b', exec (releaseHold r h x) b = (.ok (), b') ∧
      Became b b' (b.reservations.set r (x.holdReleased h)) := by
  by_cases hh : x.handles[h]? = some true
  · have hcount := count_set_false hh
    have hlive : x.released = false := by
      rw [hrow.released]
      have : x.handles.count true ≠ 0 := by omega
      simp [this]
    let y : Reservation := { x with handles := x.handles.set h false, holds := x.holds - 1 }
    have hy : y.holds = y.handles.count true := by
      have := hrow.holds
      simp only [y]
      omega
    obtain ⟨b', hexec, hb'⟩ := exec_settle (y := y) he hx ⟨rfl, rfl, rfl, rfl⟩ hlive hy
    refine ⟨b', ?_, by simpa [Reservation.holdReleased, hh, y] using hb'⟩
    unfold releaseHold
    rw [if_neg (by simpa using hh)]
    have hnn : ¬ (y.holds < 0) := by omega
    change exec (modify _ >>= _) b = _
    rw [exec_bind_ok (exec_modify _ _)]
    change exec (if y.holds < 0 then _ else _) _ = _
    rw [if_neg hnn]
    exact hexec
  · refine ⟨b, ?_, ?_⟩
    · unfold releaseHold
      rw [if_pos hh]
      rfl
    · rw [show x.holdReleased h = x by simp [Reservation.holdReleased, hh]]
      rw [set_row_self hx]
      exact ⟨rfl, rfl, he⟩

theorem exec_markReleaseRequested (he : Exact b) (hx : b.reservations[r]? = some x)
    (hrow : Row.Ok x) (hl : x.released = false) :
    ∃ b', exec (markReleaseRequested r x) b = (.ok (), b') ∧
      Became b b' (b.reservations.set r (Reservation.settled { x with releaseRequested := true })) := by
  obtain ⟨b', hexec, hb'⟩ := exec_settle (y := { x with releaseRequested := true }) he hx
    ⟨rfl, rfl, rfl, rfl⟩ hl hrow.holds
  refine ⟨b', ?_, hb'⟩
  unfold markReleaseRequested
  rw [exec_bind_ok (exec_modify _ _)]
  simpa only [hl, and_true] using hexec

theorem exec_requestRelease (he : Exact b) (hx : b.reservations[r]? = some x) (hrow : Row.Ok x) :
    ∃ b', exec (requestRelease r x) b = (.ok (), b') ∧
      Became b b' (b.reservations.set r x.releaseAsked) := by
  by_cases h : x.releaseRequested = true ∨ x.released = true
  · refine ⟨b, ?_, ?_⟩
    · unfold requestRelease
      rcases h with h | h
      · simp only [h, if_true]
        rfl
      · simp only [h, if_true]
        split <;> rfl
    · rw [show x.releaseAsked = x by simp [Reservation.releaseAsked, h], set_row_self hx]
      exact ⟨rfl, rfl, he⟩
  · have hf : x.releaseRequested = false ∧ x.released = false := by simpa using h
    obtain ⟨b', hexec, hb'⟩ := exec_markReleaseRequested he hx hrow hf.2
    refine ⟨b', ?_, by simpa [Reservation.releaseAsked, hf] using hb'⟩
    unfold requestRelease
    simpa [hf] using hexec

theorem exec_release (he : Exact b) (hx : b.reservations[r]? = some x) (hrow : Row.Ok x) :
    (x.released = true ∨ x.releaseRequested = true) ∧
      exec (release r x) b = (.error .releasedMoreThanOnce, b) ∨
    (x.released = false ∧ x.releaseRequested = false) ∧
      ∃ b', exec (release r x) b = (.ok (), b') ∧
        Became b b' (b.reservations.set r x.releaseAsked) := by
  by_cases h : x.released = true ∨ x.releaseRequested = true
  · refine .inl ⟨h, ?_⟩
    unfold release
    rw [if_pos (by simpa using h)]
    exact exec_bind_error (exec_throw _ _)
  · have hf : x.released = false ∧ x.releaseRequested = false := by simpa using h
    obtain ⟨b', hexec, hb'⟩ := exec_markReleaseRequested he hx hrow hf.1
    refine .inr ⟨hf, b', ?_, by simpa [Reservation.releaseAsked, hf] using hb'⟩
    unfold release
    rw [if_neg (by simpa using h)]
    exact hexec

/-- The budget after a live row has moved from its owner's bucket to that of `next`. -/
def Budget.afterTransfer (b : Budget) (r : Nat) (x : Reservation) (st : SessionState)
    (next : RetentionOwner) : Budget :=
  { b with
    sessions := Function.update b.sessions x.sessionToken (some { st with
      breakdown := (st.breakdown.add x.owner (-1) (-x.chargedBytes)).add next 1 x.chargedBytes })
    processBreakdown :=
      (b.processBreakdown.add x.owner (-1) (-x.chargedBytes)).add next 1 x.chargedBytes
    reservations := b.reservations.set r { x with owner := next } }

/-- A bucket of either level, moved the way `transfer` moves it, is the sum over the new rows. -/
theorem moved_bucket {breakdown : RetentionBreakdown} {rows : List Reservation}
    {p : RetentionOwner → Reservation → Bool} {next : RetentionOwner}
    (hb : ∀ o, breakdown o = usageOf (p o) rows) (hx : rows[r]? = some x) (hne : next ≠ x.owner)
    (hp : ∀ o, p o x = (x.owner == o)) (hn : ∀ o, p o { x with owner := next } = (next == o))
    (o : RetentionOwner) :
    ((breakdown.add x.owner (-1) (-x.chargedBytes)).add next 1 x.chargedBytes) o =
      usageOf (p o) (rows.set r { x with owner := next }) := by
  by_cases ho : o = next
  · subst ho
    rw [usageOf_set_gain hx (by simp [hp, Ne.symm hne]) (by simp [hn]), ← hb]
    simp [RetentionBreakdown.add, hne]
  · by_cases hx' : o = x.owner
    · subst hx'
      rw [usageOf_set_drop hx (by simp [hp]) (by simp [hn, Ne.symm ho]), ← hb]
      simp [RetentionBreakdown.add, ho]
    · rw [usageOf_set_same (y := { x with owner := next }) hx (by simp [hp, hn, Ne.symm ho, Ne.symm hx'])
        rfl, ← hb]
      simp [RetentionBreakdown.add, ho, hx']

theorem Exact.afterTransfer {st : SessionState} {next : RetentionOwner} (he : Exact b)
    (hx : b.reservations[r]? = some x) (hl : x.released = false) (hne : next ≠ x.owner)
    (hst : b.sessions x.sessionToken = some st) : Exact (b.afterTransfer r x st next) := by
  have hlive : live x = true := by simp [live, hl]
  have hlive' : live { x with owner := next } = true := by simp [live, hl]
  refine ⟨?_, ?_, ?_, ?_, ?_⟩ <;> simp only [Budget.afterTransfer]
  · rw [usageOf_set_same (y := { x with owner := next }) hx rfl rfl]
    exact he.process
  · exact moved_bucket he.processOwner hx hne (by simp [ofOwner, hlive])
      (by simp [ofOwner, hlive'])
  · intro t st' hst'
    rw [usageOf_set_same (y := { x with owner := next }) hx rfl rfl]
    by_cases ht : t = x.sessionToken
    · subst ht
      rw [Function.update_self] at hst'
      cases hst'
      exact he.session _ st hst
    · exact he.session t st' (by simpa [ht] using hst')
  · intro t st' hst' o
    by_cases ht : t = x.sessionToken
    · subst ht
      rw [Function.update_self] at hst'
      cases hst'
      exact moved_bucket (he.sessionOwner _ _ hst) hx hne
        (by simp [ofSessionOwner, ofSession, hlive])
        (by simp [ofSessionOwner, ofSession, hlive']) o
    · have hother : (x.sessionToken == t) = false := by simpa using Ne.symm ht
      rw [usageOf_set_same (y := { x with owner := next }) hx
        (by simp [ofSessionOwner, ofSession, hother]) rfl]
      exact he.sessionOwner t st' (by simpa [ht] using hst') o
  · intro t
    rw [← usageOf_messages_ne_zero, usageOf_set_same (y := { x with owner := next }) hx rfl rfl,
      usageOf_messages_ne_zero, ← he.present t]
    by_cases ht : t = x.sessionToken
    · subst ht
      simp [hst]
    · simp [ht]

theorem exec_transfer {o : RetentionOwner} (he : Exact b) (hx : b.reservations[r]? = some x) :
    (x.released = true ∨ x.releaseRequested = true) ∧
      exec (transfer r o x) b = (.error .alreadyReleased, b) ∨
    (x.released = false ∧ x.releaseRequested = false) ∧
      ∃ b', exec (transfer r o x) b = (.ok (), b') ∧
        Became b b' (b.reservations.set r { x with owner := o }) := by
  by_cases h : x.released = true ∨ x.releaseRequested = true
  · refine .inl ⟨h, ?_⟩
    unfold transfer
    rw [if_pos (by simpa using h)]
    exact exec_bind_error (exec_throw _ _)
  · have hf : x.released = false ∧ x.releaseRequested = false := by simpa using h
    refine .inr ⟨hf, ?_⟩
    by_cases hne : o = x.owner
    · refine ⟨b, ?_, ?_⟩
      · unfold transfer
        rw [if_neg (by simpa using h), if_pos hne]
        rfl
      · subst hne
        rw [show ({ x with owner := x.owner } : Reservation) = x from rfl, set_row_self hx]
        exact ⟨rfl, rfl, he⟩
    · obtain ⟨st, hst⟩ := he.session_of_live hx hf.1
      have hlive : live x = true := by simp [live, hf.1]
      refine ⟨b.afterTransfer r x st o, ?_, rfl, rfl, he.afterTransfer hx hf.1 hne hst⟩
      have hdown := exec_adjustBreakdown (b := b) (o := x.owner) (m := -1)
        (n := -x.chargedBytes) hst
        (by rw [he.sessionOwner _ _ hst]
            exact drop_nonneg hx (by simp [ofSessionOwner, ofSession, hlive]))
        (by rw [he.processOwner]; exact drop_nonneg hx (by simp [ofOwner, hlive]))
      have hup := exec_adjustBreakdown (b := b.movedBucket x.sessionToken st x.owner (-1)
          (-x.chargedBytes)) (t := x.sessionToken) (o := o) (m := 1) (n := x.chargedBytes)
        (s := { st with breakdown := st.breakdown.add x.owner (-1) (-x.chargedBytes) })
        (by simp [Budget.movedBucket])
        (by
          have := usageOf_nonneg (ofSessionOwner x.sessionToken o) b.reservations
          simp only [RetentionBreakdown.add, Function.update_of_ne hne, he.sessionOwner _ _ hst,
            RetentionUsage.add, RetentionUsage.Nonneg] at this ⊢
          omega)
        (by
          have := usageOf_nonneg (ofOwner o) b.reservations
          simp only [Budget.movedBucket, RetentionBreakdown.add, Function.update_of_ne hne,
            he.processOwner, RetentionUsage.add, RetentionUsage.Nonneg] at this ⊢
          omega)
      unfold transfer
      rw [if_neg (by simpa using h), if_neg hne]
      change exec (get >>= _) b = _
      rw [exec_bind_ok (exec_get _)]
      simp only [hst, Option.isNone_some, Bool.false_eq_true, if_false]
      rw [exec_bind_ok hdown, exec_bind_ok hup, exec_modify]
      simp [Budget.movedBucket, Budget.setReservation, Budget.afterTransfer]

/-! ### Reserving -/

/-- The budget after a fresh reservation has been charged and appended. -/
def Budget.afterReserve (b : Budget) (t : SessionToken) (charge : Nat) (o : RetentionOwner) :
    Budget :=
  { b.adjusted t (b.session t) o 1 charge with
    reservations := b.reservations ++ [Reservation.fresh t charge o] }

theorem Exact.session_usage (he : Exact b) (t : SessionToken) :
    (b.session t).usage = usageOf (ofSession t) b.reservations := by
  cases hs : b.sessions t with
  | some st => simpa [Budget.session, hs] using he.session t st hs
  | none =>
    have hnone : ¬ ∃ x ∈ b.reservations, ofSession t x = true := by
      rw [← he.present t, hs]
      simp
    simp only [not_exists, not_and, Bool.not_eq_true] at hnone
    rw [usageOf_eq_zero hnone]
    simp [Budget.session, hs]

theorem Exact.session_breakdown (he : Exact b) (t : SessionToken) (o : RetentionOwner) :
    (b.session t).breakdown o = usageOf (ofSessionOwner t o) b.reservations := by
  cases hs : b.sessions t with
  | some st => simpa [Budget.session, hs] using he.sessionOwner t st hs o
  | none =>
    have hnone : ¬ ∃ x ∈ b.reservations, ofSession t x = true := by
      rw [← he.present t, hs]
      simp
    simp only [not_exists, not_and, Bool.not_eq_true] at hnone
    rw [usageOf_eq_zero fun x hx => by simp [ofSessionOwner, hnone x hx]]
    simp [Budget.session, hs, zeroBreakdown]

theorem gain_nonneg (p : Reservation → Bool) (rows : List Reservation) (charge : Nat) :
    ((usageOf p rows).add 1 charge).Nonneg := by
  have := usageOf_nonneg p rows
  simp only [RetentionUsage.add, RetentionUsage.Nonneg] at this ⊢
  omega

theorem Exact.afterReserve (he : Exact b) (t : SessionToken) (charge : Nat) (o : RetentionOwner) :
    Exact (b.afterReserve t charge o) := by
  have hlive : live (Reservation.fresh t charge o) = true := rfl
  refine ⟨?_, ?_, ?_, ?_, ?_⟩ <;> simp only [Budget.afterReserve, Budget.adjusted, usageOf_append]
  · rw [if_pos hlive, he.process]
    rfl
  · intro o'
    by_cases ho : o' = o
    · subst ho
      simp [ofOwner, Reservation.fresh, live, RetentionBreakdown.add, he.processOwner]
    · simp [ofOwner, Reservation.fresh, live, RetentionBreakdown.add, he.processOwner, ho,
        Ne.symm ho]
  · intro t' st hst
    by_cases ht : t' = t
    · subst ht
      rw [Function.update_self] at hst
      cases hst
      simp [ofSession, Reservation.fresh, live, he.session_usage]
    · rw [Function.update_of_ne ht] at hst
      simp [ofSession, Reservation.fresh, live, Ne.symm ht, he.session t' st hst]
  · intro t' st hst o'
    by_cases ht : t' = t
    · subst ht
      rw [Function.update_self] at hst
      cases hst
      by_cases ho : o' = o
      · subst ho
        simp [ofSessionOwner, ofSession, Reservation.fresh, live, RetentionBreakdown.add,
          he.session_breakdown]
      · simp [ofSessionOwner, ofSession, Reservation.fresh, live, RetentionBreakdown.add,
          he.session_breakdown, ho, Ne.symm ho]
    · rw [Function.update_of_ne ht] at hst
      simp [ofSessionOwner, ofSession, Reservation.fresh, live, Ne.symm ht,
        he.sessionOwner t' st hst]
  · intro t'
    by_cases ht : t' = t
    · subst ht
      simp only [Function.update_self, Option.isSome_some, true_iff]
      exact ⟨_, by simp, show ofSession t' (Reservation.fresh t' charge o) = true by
        simp [ofSession, live, Reservation.fresh]⟩
    · rw [Function.update_of_ne ht, he.present t']
      simp [ofSession, Reservation.fresh, Ne.symm ht]

/-- The four ceilings a reservation is tested against. -/
structure Fits (b : Budget) (t : SessionToken) (charge : Nat) : Prop where
  sessionMessages : (usageOf (ofSession t) b.reservations).messages + 1 ≤
    b.limits.maxMessagesPerSession
  sessionBytes : (usageOf (ofSession t) b.reservations).bytes + charge ≤ b.limits.maxBytesPerSession
  processMessages : (usageOf live b.reservations).messages + 1 ≤ b.limits.maxMessagesPerProcess
  processBytes : (usageOf live b.reservations).bytes + charge ≤ b.limits.maxBytesPerProcess

/-- The first ceiling the charge would break, from the table alone. -/
def refusal (limits : BusyTurnLimits) (rows : List Reservation) (t : SessionToken) (charge : Nat) :
    Option RetentionLimitReason :=
  if (usageOf (ofSession t) rows).messages + 1 > limits.maxMessagesPerSession then
    some .sessionMessageCount
  else if (usageOf (ofSession t) rows).bytes + charge > limits.maxBytesPerSession then
    some .sessionByteCount
  else if (usageOf live rows).messages + 1 > limits.maxMessagesPerProcess then
    some .processMessageCount
  else if (usageOf live rows).bytes + charge > limits.maxBytesPerProcess then
    some .processByteCount
  else none

theorem fits_of_refusal {t : SessionToken} {charge : Nat}
    (h : refusal b.limits b.reservations t charge = none) : Fits b t charge := by
  unfold refusal at h
  repeat' split at h
  all_goals first
    | exact ⟨by omega, by omega, by omega, by omega⟩
    | cases h

theorem exec_tryReserveChecked (he : Exact b) (t : SessionToken) (charge : Nat)
    (o : RetentionOwner) :
    exec (tryReserveChecked t charge o) b =
      match refusal b.limits b.reservations t charge with
      | some reason => (.ok (.rejected reason), b)
      | none => (.ok (.accepted b.reservations.length), b.afterReserve t charge o) := by
  have husage : ((b.sessions t).map SessionState.usage).getD zeroUsage =
      usageOf (ofSession t) b.reservations := by
    rw [← he.session_usage t]
    cases hs : b.sessions t <;> simp [Budget.session, hs]
  unfold tryReserveChecked refusal
  rw [exec_bind_ok (exec_get _)]
  simp only [husage, he.process]
  by_cases h₁ : (usageOf (ofSession t) b.reservations).messages + 1 > b.limits.maxMessagesPerSession
  · rw [if_pos h₁, if_pos h₁]
    rfl
  rw [if_neg h₁, if_neg h₁]
  by_cases h₂ : (usageOf (ofSession t) b.reservations).bytes + charge > b.limits.maxBytesPerSession
  · rw [if_pos h₂, if_pos h₂]
    rfl
  rw [if_neg h₂, if_neg h₂]
  by_cases h₃ : (usageOf live b.reservations).messages + 1 > b.limits.maxMessagesPerProcess
  · rw [if_pos h₃, if_pos h₃]
    rfl
  rw [if_neg h₃, if_neg h₃]
  by_cases h₄ : (usageOf live b.reservations).bytes + charge > b.limits.maxBytesPerProcess
  · rw [if_pos h₄, if_pos h₄]
    rfl
  rw [if_neg h₄, if_neg h₄, exec_bind_ok (exec_modify _ _)]
  have hadjust := exec_adjust (b := { b with
      sessions := Function.update b.sessions t (some (b.session t)) })
    (t := t) (o := o) (m := 1) (n := charge) (s := b.session t) (by simp)
    (by rw [he.session_usage]; exact gain_nonneg _ _ _)
    (by rw [he.process]; exact gain_nonneg _ _ _)
    (by rw [he.session_breakdown]; exact gain_nonneg _ _ _)
    (by rw [he.processOwner]; exact gain_nonneg _ _ _)
  rw [exec_bind_ok hadjust, exec_bind_ok (exec_modify _ _), exec_pure]
  simp [Budget.adjusted, Budget.afterReserve]

theorem exec_tryReserve (he : Exact b) (t : SessionToken) (charge : JsNumber)
    (o : RetentionOwner) :
    (∃ fault, exec (tryReserve t charge o) b = (.error fault, b) ∧ fault.internal = false) ∨
    (∃ reason, exec (tryReserve t charge o) b = (.ok (.rejected reason), b)) ∨
    ∃ n, exec (tryReserve t charge o) b =
      (.ok (.accepted b.reservations.length), b.afterReserve t n o) ∧ Fits b t n := by
  unfold tryReserve
  cases hn : assertSafeNonNegative charge "chargedBytes" with
  | error fault =>
    refine .inl ⟨fault, rfl, ?_⟩
    unfold assertSafeNonNegative at hn
    split at hn
    · split at hn <;> cases hn
      rfl
    · cases hn
      rfl
  | ok n =>
    have h := exec_tryReserveChecked he t n o
    cases hr : refusal b.limits b.reservations t n with
    | some reason =>
      rw [hr] at h
      exact .inr (.inl ⟨reason, h⟩)
    | none =>
      rw [hr] at h
      exact .inr (.inr ⟨n, h, fits_of_refusal hr⟩)

/-! ### Calls in any order -/

/-- A call on the budget or on a reservation it has handed out. -/
inductive Call where
  | tryReserve (token : SessionToken) (chargedBytes : JsNumber) (owner : RetentionOwner)
  | hold (r : Nat)
  | releaseHold (r h : Nat)
  | transfer (r : Nat) (next : RetentionOwner)
  | requestRelease (r : Nat)
  | release (r : Nat)
  deriving DecidableEq, Repr

inductive Reply where
  | reserved (result : RetentionReserveResult)
  | handle (h : Nat)
  | done
  | noSuchReservation
  deriving DecidableEq, Repr

/-- Run a method on reservation `r`, if it exists. -/
def onReservation (r : Nat) (method : Reservation → BudgetM Reply) : BudgetM Reply := do
  let b ← get
  match b.reservations[r]? with
  | none => pure .noSuchReservation
  | some x => method x

def Call.run : Call → BudgetM Reply
  | .tryReserve token chargedBytes owner => do
      let result ← Retention.tryReserve token chargedBytes owner
      return .reserved result
  | .hold r => onReservation r fun x => do
      let h ← Retention.hold r x
      return .handle h
  | .releaseHold r h => onReservation r fun x => do
      Retention.releaseHold r h x
      return .done
  | .transfer r next => onReservation r fun x => do
      Retention.transfer r next x
      return .done
  | .requestRelease r => onReservation r fun x => do
      Retention.requestRelease r x
      return .done
  | .release r => onReservation r fun x => do
      Retention.release r x
      return .done

/-- A sequence of calls; a call that throws leaves whatever it has written. -/
def runCalls : Budget → List Call → List (Except Fault Reply) × Budget
  | b, [] => ([], b)
  | b, c :: rest =>
    let (reply, b') := exec c.run b
    let (replies, last) := runCalls b' rest
    (reply :: replies, last)

/-- The rows a call may leave behind. -/
inductive Evolves (b : Budget) : List Reservation → Prop where
  | same : Evolves b b.reservations
  | appended {t : SessionToken} {charge : Nat} {o : RetentionOwner} : Fits b t charge →
      Evolves b (b.reservations ++ [Reservation.fresh t charge o])
  | held {r : Nat} {x : Reservation} : b.reservations[r]? = some x → x.released = false →
      x.releaseRequested = false → Evolves b (b.reservations.set r x.held)
  | holdReleased {r h : Nat} {x : Reservation} : b.reservations[r]? = some x →
      Evolves b (b.reservations.set r (x.holdReleased h))
  | transferred {r : Nat} {x : Reservation} {next : RetentionOwner} :
      b.reservations[r]? = some x → Evolves b (b.reservations.set r { x with owner := next })
  | releaseAsked {r : Nat} {x : Reservation} : b.reservations[r]? = some x →
      Evolves b (b.reservations.set r x.releaseAsked)

theorem exec_onReservation_none {method : Reservation → BudgetM Reply}
    (h : b.reservations[r]? = none) :
    exec (onReservation r method) b = (.ok .noSuchReservation, b) := by
  unfold onReservation
  rw [exec_bind_ok (exec_get _), h]
  rfl

theorem exec_onReservation_some {method : Reservation → BudgetM Reply}
    (h : b.reservations[r]? = some x) :
    exec (onReservation r method) b = exec (method x) b := by
  unfold onReservation
  rw [exec_bind_ok (exec_get _), h]

/-- What one call can do: it evolves the table by one row and never trips an assertion. -/
theorem call_cases (c : Call) (ha : Accounting b) :
    ∃ reply b' rows, exec c.run b = (reply, b') ∧ Became b b' rows ∧ Evolves b rows ∧
      ∀ fault, reply = .error fault → fault.internal = false := by
  have hsame : Became b b b.reservations := ⟨rfl, rfl, ha.exact⟩
  cases c with
  | tryReserve t charge o =>
    rcases exec_tryReserve ha.exact t charge o with ⟨fault, h, hf⟩ | ⟨reason, h⟩ | ⟨n, h, hfit⟩
    · exact ⟨_, b, _, exec_bind_error h, hsame, .same, by rintro _ ⟨⟩; exact hf⟩
    · exact ⟨_, b, _, exec_bind_ok h, hsame, .same, by rintro _ ⟨⟩⟩
    · exact ⟨_, _, _, exec_bind_ok h, ⟨rfl, rfl, ha.exact.afterReserve t n o⟩, .appended hfit,
        by rintro _ ⟨⟩⟩
  | hold r =>
    cases hx : b.reservations[r]? with
    | none => exact ⟨_, b, _, exec_onReservation_none hx, hsame, .same, by rintro _ ⟨⟩⟩
    | some x =>
      rcases exec_hold ha.exact hx with ⟨-, h⟩ | ⟨⟨hl, hq⟩, b', h, hb'⟩
      · exact ⟨_, b, _, (exec_onReservation_some hx).trans (exec_bind_error h), hsame, .same,
          by rintro _ ⟨⟩; rfl⟩
      · exact ⟨_, b', _, (exec_onReservation_some hx).trans (exec_bind_ok h), hb', .held hx hl hq,
          by rintro _ ⟨⟩⟩
  | releaseHold r h =>
    cases hx : b.reservations[r]? with
    | none => exact ⟨_, b, _, exec_onReservation_none hx, hsame, .same, by rintro _ ⟨⟩⟩
    | some x =>
      obtain ⟨b', hexec, hb'⟩ := exec_releaseHold (h := h) ha.exact hx
        (ha.rows x (List.mem_of_getElem? hx))
      exact ⟨_, b', _, (exec_onReservation_some hx).trans (exec_bind_ok hexec), hb',
        .holdReleased hx, by rintro _ ⟨⟩⟩
  | transfer r next =>
    cases hx : b.reservations[r]? with
    | none => exact ⟨_, b, _, exec_onReservation_none hx, hsame, .same, by rintro _ ⟨⟩⟩
    | some x =>
      rcases exec_transfer (o := next) ha.exact hx with ⟨-, h⟩ | ⟨-, b', h, hb'⟩
      · exact ⟨_, b, _, (exec_onReservation_some hx).trans (exec_bind_error h), hsame, .same,
          by rintro _ ⟨⟩; rfl⟩
      · exact ⟨_, b', _, (exec_onReservation_some hx).trans (exec_bind_ok h), hb', .transferred hx,
          by rintro _ ⟨⟩⟩
  | requestRelease r =>
    cases hx : b.reservations[r]? with
    | none => exact ⟨_, b, _, exec_onReservation_none hx, hsame, .same, by rintro _ ⟨⟩⟩
    | some x =>
      obtain ⟨b', hexec, hb'⟩ := exec_requestRelease ha.exact hx
        (ha.rows x (List.mem_of_getElem? hx))
      exact ⟨_, b', _, (exec_onReservation_some hx).trans (exec_bind_ok hexec), hb',
        .releaseAsked hx, by rintro _ ⟨⟩⟩
  | release r =>
    cases hx : b.reservations[r]? with
    | none => exact ⟨_, b, _, exec_onReservation_none hx, hsame, .same, by rintro _ ⟨⟩⟩
    | some x =>
      rcases exec_release ha.exact hx (ha.rows x (List.mem_of_getElem? hx)) with
        ⟨-, h⟩ | ⟨-, b', h, hb'⟩
      · exact ⟨_, b, _, (exec_onReservation_some hx).trans (exec_bind_error h), hsame, .same,
          by rintro _ ⟨⟩; rfl⟩
      · exact ⟨_, b', _, (exec_onReservation_some hx).trans (exec_bind_ok h), hb',
          .releaseAsked hx, by rintro _ ⟨⟩⟩

/-! ### Rows stay well formed and usage stays bounded -/

theorem Row.Ok.fresh (t : SessionToken) (charge : Nat) (o : RetentionOwner) :
    Row.Ok (Reservation.fresh t charge o) := ⟨rfl, rfl, rfl⟩

theorem Row.Ok.held (h : Row.Ok x) (hl : x.released = false) (hq : x.releaseRequested = false) :
    Row.Ok x.held := by
  refine ⟨?_, ?_, ?_⟩
  · simp [Reservation.held, h.holds]
  · simp [Reservation.held, hl, hq]
  · simpa [Reservation.held, hl] using h.finalizations

/-- A row that is not released becomes well formed by settling it. -/
theorem Row.Ok.settled (hh : x.holds = x.handles.count true) (hl : x.released = false)
    (hf : x.finalizations = 0) : Row.Ok x.settled := by
  by_cases hc : x.releaseRequested = true ∧ x.handles.count true = 0
  · have hs : x.settled = x.finalized := by simp [Reservation.settled, hc, hl]
    rw [hs]
    exact ⟨hh, by simp [Reservation.finalized, hc], by simp [Reservation.finalized, hf]⟩
  · have hs : x.settled = x := by
      simp only [Reservation.settled, hl]
      rw [if_neg (by simpa using hc)]
    rw [hs]
    refine ⟨hh, ?_, by simp [hl, hf]⟩
    rw [hl]
    cases hq : x.releaseRequested
    · rfl
    · simpa [hq] using hc

theorem Row.Ok.holdReleased (h : Row.Ok x) (i : Nat) : Row.Ok (x.holdReleased i) := by
  by_cases hi : x.handles[i]? = some true
  · have hpos : 0 < x.handles.count true := List.count_pos_iff.mpr (List.mem_of_getElem? hi)
    have hl : x.released = false := by
      rw [h.released]
      have : x.handles.count true ≠ 0 := by omega
      simp [this]
    have hcount : (x.handles.set i false).count true + 1 = x.handles.count true :=
      count_set_false hi
    simp only [Reservation.holdReleased, if_pos hi]
    refine Row.Ok.settled ?_ hl (by simpa [hl] using h.finalizations)
    have := h.holds
    simp only
    omega
  · simpa [Reservation.holdReleased, hi] using h

theorem Row.Ok.transferred (h : Row.Ok x) (next : RetentionOwner) :
    Row.Ok { x with owner := next } := ⟨h.holds, h.released, h.finalizations⟩

theorem Row.Ok.releaseAsked (h : Row.Ok x) : Row.Ok x.releaseAsked := by
  by_cases hc : x.releaseRequested = true ∨ x.released = true
  · simpa [Reservation.releaseAsked, hc] using h
  · have hf : x.releaseRequested = false ∧ x.released = false := by simpa using hc
    rw [Reservation.releaseAsked, if_neg (by simp [hf])]
    exact Row.Ok.settled h.holds hf.2 (by simpa [hf] using h.finalizations)

theorem Evolves.rows {rows : List Reservation} (h : Evolves b rows)
    (hb : ∀ x ∈ b.reservations, Row.Ok x) : ∀ x ∈ rows, Row.Ok x := by
  have hset : ∀ {r : Nat} {x y : Reservation}, b.reservations[r]? = some x →
      (Row.Ok x → Row.Ok y) → ∀ z ∈ b.reservations.set r y, Row.Ok z := by
    intro r x y hx hy z hz
    rcases List.mem_or_eq_of_mem_set hz with hz | rfl
    · exact hb z hz
    · exact hy (hb x (List.mem_of_getElem? hx))
  cases h with
  | same => exact hb
  | appended _ =>
    intro x hx
    rcases List.mem_append.mp hx with hx | hx
    · exact hb x hx
    · rw [List.mem_singleton.mp hx]
      exact Row.Ok.fresh _ _ _
  | held hx hl hq => exact hset hx fun h => h.held hl hq
  | holdReleased hx => exact hset hx fun h => h.holdReleased _
  | transferred hx => exact hset hx fun h => h.transferred _
  | releaseAsked hx => exact hset hx fun h => h.releaseAsked

/-- A row's charge and session never change, and a released row stays released. -/
structure Descends (x y : Reservation) : Prop where
  token : y.sessionToken = x.sessionToken
  bytes : y.chargedBytes = x.chargedBytes
  live : live y = true → live x = true

theorem Descends.held (x : Reservation) : Descends x x.held := ⟨rfl, rfl, id⟩

theorem Descends.transferred (x : Reservation) (next : RetentionOwner) :
    Descends x { x with owner := next } := ⟨rfl, rfl, id⟩

theorem Descends.settled {y : Reservation} (h : Descends x y) : Descends x y.settled := by
  unfold Reservation.settled
  split
  · exact ⟨h.token, h.bytes, by simp [Reservation.finalized, Retention.live]⟩
  · exact h

theorem Descends.holdReleased (x : Reservation) (i : Nat) : Descends x (x.holdReleased i) := by
  unfold Reservation.holdReleased
  split
  · exact Descends.settled ⟨rfl, rfl, id⟩
  · exact ⟨rfl, rfl, id⟩

theorem Descends.releaseAsked (x : Reservation) : Descends x x.releaseAsked := by
  unfold Reservation.releaseAsked
  split
  · exact ⟨rfl, rfl, id⟩
  · exact Descends.settled ⟨rfl, rfl, id⟩

theorem usageOf_set_le {p : Reservation → Bool} {rows : List Reservation} {y : Reservation}
    (hx : rows[r]? = some x) (hp : p y = true → p x = true)
    (hb : y.chargedBytes = x.chargedBytes) :
    (usageOf p (rows.set r y)).messages ≤ (usageOf p rows).messages ∧
      (usageOf p (rows.set r y)).bytes ≤ (usageOf p rows).bytes := by
  cases hy : p y with
  | true => simp [usageOf_set_same hx (hy.trans (hp hy).symm) hb]
  | false =>
    cases hx' : p x with
    | true =>
      rw [usageOf_set_drop hx hx' hy]
      simp only [RetentionUsage.add]
      omega
    | false => simp [usageOf_set_same hx (hy.trans hx'.symm) hb]

theorem Within.set {y : Reservation} {b' : Budget} (h : Within b) (hx : b.reservations[r]? = some x)
    (hd : Descends x y) (hb : Became b b' (b.reservations.set r y)) : Within b' := by
  have hlive := usageOf_set_le (p := live) hx hd.live hd.bytes
  have hsess : ∀ t, (usageOf (ofSession t) (b.reservations.set r y)).messages ≤
        (usageOf (ofSession t) b.reservations).messages ∧
      (usageOf (ofSession t) (b.reservations.set r y)).bytes ≤
        (usageOf (ofSession t) b.reservations).bytes := by
    intro t
    refine usageOf_set_le hx ?_ hd.bytes
    simp only [ofSession, Bool.and_eq_true, hd.token]
    exact fun hboth => ⟨hd.live hboth.1, hboth.2⟩
  constructor <;> rw [hb.limits, hb.reservations]
  · exact fun t => (hsess t).1.trans (h.sessionMessages t)
  · exact fun t => (hsess t).2.trans (h.sessionBytes t)
  · exact hlive.1.trans h.processMessages
  · exact hlive.2.trans h.processBytes

theorem Within.appended {t : SessionToken} {charge : Nat} {o : RetentionOwner} {b' : Budget}
    (h : Within b) (hf : Fits b t charge)
    (hb : Became b b' (b.reservations ++ [Reservation.fresh t charge o])) : Within b' := by
  have hsession : ∀ t', ofSession t' (Reservation.fresh t charge o) = (t == t') := fun _ => rfl
  constructor <;> rw [hb.limits, hb.reservations]
  · intro t'
    rw [usageOf_append, hsession]
    split
    · rename_i ht
      obtain rfl : t = t' := by simpa using ht
      exact hf.sessionMessages
    · exact h.sessionMessages t'
  · intro t'
    rw [usageOf_append, hsession]
    split
    · rename_i ht
      obtain rfl : t = t' := by simpa using ht
      exact hf.sessionBytes
    · exact h.sessionBytes t'
  · rw [usageOf_append]
    exact hf.processMessages
  · rw [usageOf_append]
    exact hf.processBytes

theorem Evolves.within {b' : Budget} {rows : List Reservation} (h : Evolves b rows)
    (hw : Within b) (hb : Became b b' rows) : Within b' := by
  cases h with
  | same =>
    constructor <;> rw [hb.limits, hb.reservations]
    exacts [hw.sessionMessages, hw.sessionBytes, hw.processMessages, hw.processBytes]
  | appended hf => exact hw.appended hf hb
  | held hx _ _ => exact hw.set hx (Descends.held _) hb
  | holdReleased hx => exact hw.set hx (Descends.holdReleased _ _) hb
  | transferred hx => exact hw.set hx (Descends.transferred _ _) hb
  | releaseAsked hx => exact hw.set hx (Descends.releaseAsked _) hb

/-- One call keeps the books. -/
theorem Accounting.call (ha : Accounting b) (c : Call) : Accounting (exec c.run b).2 := by
  obtain ⟨reply, b', rows, hexec, hb', hev, -⟩ := call_cases c ha
  rw [hexec]
  exact ⟨hb'.exact, by rw [hb'.reservations]; exact hev.rows ha.rows, hev.within ha.within hb'⟩

theorem Accounting.new (limits : BusyTurnLimits) : Accounting (Budget.new limits) := by
  refine ⟨⟨rfl, fun _ => rfl, ?_, ?_, ?_⟩, by simp [Budget.new], ⟨?_, ?_, ?_, ?_⟩⟩ <;>
    simp [Budget.new, zeroUsage]

/-- Any sequence of calls keeps the books, and no assertion is ever tripped. -/
theorem Accounting.run (ha : Accounting b) (calls : List Call) :
    Accounting (runCalls b calls).2 ∧
      ∀ fault, .error fault ∈ (runCalls b calls).1 → fault.internal = false := by
  induction calls generalizing b with
  | nil => exact ⟨ha, by simp [runCalls]⟩
  | cons c rest ih =>
    obtain ⟨reply, b', rows, hexec, -, -, hfault⟩ := call_cases c ha
    have hb' : Accounting b' := by
      have := ha.call c
      rwa [hexec] at this
    obtain ⟨hlast, hrest⟩ := ih hb'
    simp only [runCalls, hexec]
    refine ⟨hlast, fun fault hmem => ?_⟩
    rcases List.mem_cons.mp hmem with h | h
    · exact hfault fault h.symm
    · exact hrest fault h

theorem runCalls_limits (ha : Accounting b) (calls : List Call) :
    (runCalls b calls).2.limits = b.limits := by
  induction calls generalizing b with
  | nil => rfl
  | cons c rest ih =>
    obtain ⟨reply, b', rows, hexec, hb', -, -⟩ := call_cases c ha
    have := ha.call c
    rw [hexec] at this
    simp only [runCalls, hexec]
    exact (ih this).trans hb'.limits

/-- The session record's view of one owner, zero when there is no record. -/
def Budget.sessionBucket (b : Budget) (t : SessionToken) (o : RetentionOwner) : RetentionUsage :=
  (b.session t).breakdown o

/-- `usage(sessionToken)`. -/
def Budget.usage (b : Budget) (t : SessionToken) : RetentionUsage := (b.session t).usage

end Webchannel.Retention
