import Webchannel.Dispatch.Disposal
import Webchannel.Lib.Runs

/-!
# Serial exactly-once dispatch

The invariant holds along every interleaving of the dispatcher's methods and of the promise
chains it starts.
-/

namespace Webchannel.Dispatch

open Webchannel.Retention Webchannel.Runs

variable {Message : Type}

namespace Dispatcher

variable {options : Options Message} {d d' : Dispatcher Message}

theorem Inv.requestReleaseSupplied (h : d.Inv options) (supplied : Option (Nat × Reservation)) :
    Inv options (d.requestReleaseSupplied supplied) := by
  cases supplied with
  | none => exact h
  | some r => exact h.books _ _ _ _

theorem Inv.settleOffer (h : d.Inv options) (supplied : Option (Nat × Reservation))
    (offered : BatchOffer) : Inv options (d.settleOffer supplied offered) := by
  cases offered with
  | accepted e =>
    simp only [Dispatcher.settleOffer]
    split
    · exact h
    · exact h.commit ‹_›
  | rejected reason => exact h.requestReleaseSupplied supplied
  | disposed => exact h.requestReleaseSupplied supplied

theorem Inv.dispatch (h : d.Inv options) (key : String) (message : Message)
    (supplied : Option (Nat × Reservation)) :
    Inv options (d.dispatch options key message supplied).2 := by
  have hbegin := h.beginBatch key
  unfold Dispatcher.dispatch
  rcases hb : d.beginBatch key with ⟨l, d₁⟩
  rw [hb] at hbegin
  cases l with
  | none => exact hbegin.requestReleaseSupplied supplied
  | some l =>
    dsimp only
    cases hL : d₁.leases.get l with
    | none => exact hbegin
    | some L =>
      have hoffer := Inv.offer hbegin hL message supplied
      dsimp only
      rcases ho : d₁.offer options l L message supplied with ⟨reply, d₂⟩
      rw [ho] at hoffer
      cases reply with
      | error fault => exact hoffer
      | ok offered =>
        dsimp only
        have hsettled := Inv.settleOffer hoffer supplied offered
        cases hL' : (d₂.settleOffer supplied offered).leases.get l with
        | none => exact hsettled
        | some L' => exact hsettled.finish hL'

end Dispatcher

open Dispatcher

variable {options : Options Message} {d d' : Dispatcher Message}

theorem Dispatcher.Inv.step {a : Action Message} (h : d.Inv options)
    (hs : step options d a = some d') : d'.Inv options := by
  cases a with
  | beginBatch key =>
    obtain rfl := Option.some.inj hs
    exact h.beginBatch key
  | offer l message supplied =>
    obtain ⟨L, hL, hs⟩ := Option.bind_eq_some_iff.mp hs
    obtain ⟨row, -, hs⟩ := Option.bind_eq_some_iff.mp hs
    obtain rfl := Option.some.inj hs
    exact h.offer hL message row
  | commit e =>
    obtain ⟨E, hE, hs⟩ := Option.bind_eq_some_iff.mp hs
    obtain rfl := Option.some.inj hs
    exact h.commit hE
  | rollback e =>
    obtain ⟨E, hE, hs⟩ := Option.bind_eq_some_iff.mp hs
    obtain rfl := Option.some.inj hs
    exact h.rollback hE
  | finish l =>
    obtain ⟨L, hL, hs⟩ := Option.bind_eq_some_iff.mp hs
    obtain rfl := Option.some.inj hs
    exact h.finish hL
  | dispatch key message supplied =>
    obtain ⟨row, -, hs⟩ := Option.bind_eq_some_iff.mp hs
    obtain rfl := Option.some.inj hs
    exact h.dispatch key message row
  | clearPending key =>
    obtain rfl := Option.some.inj hs
    exact h.clearPending key
  | dispose =>
    obtain rfl := Option.some.inj hs
    exact h.dispose
  | startHandler t =>
    obtain ⟨T, hT, hs⟩ := Option.bind_eq_some_iff.mp hs
    split at hs
    · obtain rfl := Option.some.inj hs
      exact h.startHandler hT ‹_›
    · cases hs
  | settleHandler t =>
    obtain ⟨T, hT, hs⟩ := Option.bind_eq_some_iff.mp hs
    split at hs
    · obtain rfl := Option.some.inj hs
      exact h.settleHandler hT ‹_›
    · cases hs
  | afterSettled t =>
    obtain ⟨T, hT, hs⟩ := Option.bind_eq_some_iff.mp hs
    split at hs
    · obtain rfl := Option.some.inj hs
      exact h.afterSettled hT ‹_›
    · cases hs
  | ledger call =>
    obtain rfl := Option.some.inj hs
    exact h.books _ _ _ _
  | sessionToken f =>
    obtain rfl := Option.some.inj hs
    exact h.books _ _ _ _

theorem inv_of_reached {suppliedToken : Option (String → SessionToken)} {limits : BusyTurnLimits}
    (h : Reached (step options) (create suppliedToken limits) d) : d.Inv options :=
  h.invariant (Inv.create options suppliedToken limits) fun _ _ _ hi _ hs => hi.step hs

/-- The session runs no turn and no lease is open on it. -/
def Quiescent (d : Dispatcher Message) (key : String) : Prop :=
  (∀ t T, d.turns.get t = some T → T.key = key → T.phase = .done) ∧
    ∀ l L, d.leases.get l = some L → L.key = key → L.finished = true

/-- In a quiescent session, everything that was not dropped has reached the handler. -/
theorem invoked_of_quiescent (h : d.Inv options) {e : Nat} {E : LeaseEntry Message}
    {L : InternalLease} (hE : d.entries.get e = some E) (hL : d.leases.get E.lease = some L)
    (hdrop : E.dropped = none) (hq : Quiescent d L.key) :
    (d.invocations.flatMap Invocation.entries).count e = 1 := by
  have hcons := h.filed.consistent e E hE
  have hfin := hq.2 _ L hL rfl
  have hkey : d.keyOf e = some L.key := keyOf_eq_some.mpr ⟨E, L, hE, hL, rfl⟩
  -- It was attached: its lease is finished, and it was not rolled back.
  have hatt : E.state = .attached := by
    have hopen := h.filed.open_ e E hE
    cases hs : E.state with
    | attached => rfl
    | rolledBack => simp [Consistent, hs, hdrop] at hcons
    | provisional =>
      obtain ⟨L', hL', hopen', -⟩ := hopen (.inl hs)
      obtain rfl := Option.some.inj (hL.symm.trans hL')
      simp [hfin] at hopen'
    | committed =>
      obtain ⟨L', hL', hopen', -⟩ := hopen (.inr hs)
      obtain rfl := Option.some.inj (hL.symm.trans hL')
      simp [hfin] at hopen'
  have hone : d.located.count e = 1 := by
    rw [h.placed.once e]
    simp [isHeld, hE, hatt, hdrop]
  -- No turn of the session is waiting for its microtask.
  have hturns : (d.turns.gather waiting).count e = 0 := by
    apply List.count_eq_zero_of_not_mem
    intro hmem
    obtain ⟨t, T, hT, he⟩ := Heap.mem_gather.mp hmem
    unfold waiting at he
    split at he
    · rename_i hphase
      have hkeyT := (h.placed.turn t T hT).1 e he
      have := hq.1 t T hT (Option.some.inj (hkeyT.symm.trans hkey))
      simp [hphase] at this
    · simp at he
  -- Nothing is queued in the session: it would be running or have an open lease.
  have hstates : (d.states.gather SessionState.pending).count e = 0 := by
    apply List.count_eq_zero_of_not_mem
    intro hmem
    obtain ⟨s, S, hS, he⟩ := Heap.mem_gather.mp hmem
    cases hd : d.disposed with
    | true => simp [(h.named.disposed hd s S hS).1] at he
    | false =>
      obtain ⟨k, hk, hks⟩ := h.placed.pending hd s S e hS he
      obtain rfl := Option.some.inj (hk.symm.trans hkey)
      have hrun : S.running = none := by
        cases hr : S.running with
        | none => rfl
        | some t =>
          obtain ⟨T, hT, hphase, hstate⟩ := h.wired.running s S t hS hr
          have hkT := h.named.turn hd t T hT hphase
          rw [hstate] at hkT
          exact absurd (hq.1 t T hT (h.named.unique _ _ s hkT hks)) hphase
      have hopen : S.openLeases = [] := by
        apply List.eq_nil_iff_forall_not_mem.mpr
        intro l hl
        obtain ⟨L', hL', hopen, hstate⟩ := h.wired.openLease s S l hS hl
        have hkL := h.named.lease l L' hL' hopen
        rw [hstate] at hkL
        simp [hq.2 l L' hL' (h.named.unique _ _ s hkL hks)] at hopen
      simp [h.idle s S hS hrun hopen] at he
  simp only [located, List.count_append, hturns, hstates] at hone
  omega

end Webchannel.Dispatch
