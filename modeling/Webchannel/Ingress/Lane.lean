import Mathlib.Data.List.Infix
import Webchannel.Ingress.Soundness

/-!
# The entries of a flush, one after the other

An entry that carries an id is classified when its outcome has been found or recorded, or its offer came too late, and
the batch was still active afterwards. Nothing is done about an entry unless every entry before it is classified.
-/

namespace Webchannel.Ingress

open Webchannel.Program Webchannel.Runs
open Webchannel.Outcome (IngressOutcome Durability OutcomeLookup)

/-! ### What the calls say about an entry -/

/-- The entry that a call takes further. -/
def touched : Call → Option Nat
  | .lookup e _ | .offer e | .record e _ _ _ | .commitWrite e | .commitOffer e => some e
  | _ => none

/-- The ids that a call publishes, or tries to. -/
def sent : Call → List String
  | .sendAck _ _ ids | .sendInboundRejected _ _ ids => ids
  | _ => []

def acceptedOffer : Event Call Reply → Option Nat
  | ⟨.offer e, some .accepted⟩ => some e
  | _ => none

def disposedOffer : Event Call Reply → Option Nat
  | ⟨.offer e, some .disposed⟩ => some e
  | _ => none

/-- An answer that classifies the entry if the batch is still active after it. -/
def classifies : Event Call Reply → Option Nat
  | ⟨.lookup e _, some (.found _)⟩ => some e
  | ⟨.record e _ .accepted _, some (.recorded _)⟩ => some e
  | ⟨.record e _ .overloaded _, some (.recorded .durable)⟩ => some e
  | _ => none

/-- The latest calls have found the entry active, right after such an answer. -/
def confirmed (e : Nat) : History → Bool
  | ⟨.entryIsActive e', some true⟩ :: ⟨.isActive, some true⟩ :: event :: _ => e' = e ∧ classifies event = some e
  | _ => false

def Classified (t : History) (e : Nat) : Prop :=
  e ∈ t.filterMap disposedOffer ∨ ∃ u ∈ t.tails, confirmed e u = true

variable (items : List IngressDedupeItem)

/-- The entry carries an id that can be looked up. -/
def Carries (e : Nat) : Prop := (items[e]?.bind ingressDedupeKey).isSome = true

/-- Every entry before the position is classified, if it carries an id. -/
def Clear (t : History) (n : Nat) : Prop := ∀ e < n, Carries items e → Classified t e

/-- No call has taken an entry further, or published the id of one, behind an entry that was not classified. -/
def Barrier (t : History) : Prop :=
  ∀ c, t.Called c → (∀ e, touched c = some e → Clear items t e) ∧
    ∀ id ∈ sent c, ∃ e, idAt items e = some id ∧ Clear items t (e + 1)

def offers (t : History) : List Nat := t.filterMap acceptedOffer

/-- The entries that the lease attaches to the dispatcher, in the order of their offers. -/
def attached (t : History) : List Nat :=
  if t.Returned .finish then
    ((offers t).filter fun e => t.Returned (.commitOffer e) ∧ ¬ t.Called (.rollbackOffer e)).reverse
  else []

/-- The accepted outcome of an entry was recorded, other than by the retry of a cancelled message. -/
def RecordedAccepted (t : History) (e : Nat) : Prop := ∃ r ∈ t.filterMap recorded, r.1 = e ∧ r.2.1 = .accepted

/-- The dispatcher accepted the entry; if it carries an id, its outcome was recorded and was not too late. -/
def Accepted (t : History) (e : Nat) : Prop :=
  e ∈ offers t ∧ (Carries items e → RecordedAccepted t e ∧ ¬ t.Called (.rollbackWrite e))

/-- The accepted entries, which all lie before the barrier, are attached in order. -/
def Exact (t : History) : Prop :=
  (attached t).Pairwise (· < ·) ∧ ∀ e, (e ∈ attached t ↔ Accepted items t e) ∧ (Accepted items t e → Clear items t (e + 1))

/-- Every entry behind the barrier is released, and so is the one that raised it if the dispatcher had not accepted it. -/
def Released (t : History) : Prop :=
  ∀ e < items.length, ¬ Clear items t (e + 1) → t.Called (.requestRelease e) ∨ e ∈ offers t

/-- What holds when the flush has ended, by a throw if there is no result. -/
def Concludes : Option FlushEnd → History → Prop
  | some .published, t => Released items t ∧ Exact items t
  | some .invalidated, t => Released items t ∧ ∀ e ∈ attached t, ¬ Carries items e
  | _, t => ∀ e ∈ attached t, ¬ Carries items e

section Decidability

variable (t : History) (e n : Nat)

instance : Decidable (Classified t e) :=
  inferInstanceAs (Decidable (e ∈ t.filterMap disposedOffer ∨ ∃ u ∈ t.tails, confirmed e u = true))

instance : Decidable (Carries items e) := inferInstanceAs (Decidable (_ = true))

instance : Decidable (Clear items t n) := inferInstanceAs (Decidable (∀ e < n, Carries items e → Classified t e))

end Decidability

variable {items} {t : History} {event : Event Call Reply} {id : String} {e n k : Nat} {l : Locals}

theorem Classified.cons (h : Classified t e) : Classified (event :: t) e := by
  obtain h | ⟨u, hu, hconfirmed⟩ := h
  · exact .inl (mem_filterMap_cons.mpr (.inr h))
  · exact .inr ⟨u, (List.mem_tails _ _).mpr (((List.mem_tails _ _).mp hu).trans (List.suffix_cons event t)), hconfirmed⟩

theorem Clear.cons (h : Clear items t n) : Clear items (event :: t) n := fun e he hcarries => (h e he hcarries).cons

theorem Clear.mono {m : Nat} (h : Clear items t n) (hle : m ≤ n) : Clear items t m :=
  fun e he => h e (Nat.lt_of_lt_of_le he hle)

theorem Clear.succ (h : Clear items t n) (hn : Carries items n → Classified t n) : Clear items t (n + 1) := by
  intro e he hcarries
  obtain he | rfl := Nat.lt_succ_iff_lt_or_eq.mp he
  · exact h e he hcarries
  · exact hn hcarries

theorem Barrier.cons (h : Barrier items t) (htouched : ∀ e, touched event.call = some e → Clear items t e)
    (hsent : ∀ id ∈ sent event.call, ∃ e, idAt items e = some id ∧ Clear items t (e + 1)) :
    Barrier items (event :: t) := by
  intro c hcalled
  obtain rfl | hcalled := Trace.called_cons.mp hcalled
  · refine ⟨fun e he => (htouched e he).cons, fun id hid => ?_⟩
    obtain ⟨e, hat, hclear⟩ := hsent id hid
    exact ⟨e, hat, hclear.cons⟩
  · obtain ⟨htouched, hsent⟩ := h c hcalled
    refine ⟨fun e he => (htouched e he).cons, fun id hid => ?_⟩
    obtain ⟨e, hat, hclear⟩ := hsent id hid
    exact ⟨e, hat, hclear.cons⟩

/-! ### The variables and the calls -/

variable (items) in
/-- What holds also after a throw. -/
structure Held (l : Locals) (t : History) : Prop where
  barrier : Barrier items t
  held : ∀ e ∈ offers t, Carries items e → e ∈ l.rollbackOffers
  rolled : ∀ e ∈ l.rolledBack, t.Called (.rollbackOffer e)
  unfinished : ¬ t.Called .finish
  undecided : l.finalized = false

variable (items) in
/-- Inside the loop: the entries before `n` are through, and none from `k` on has been offered. -/
structure Lane (n k : Nat) (l : Locals) (t : History) : Prop extends Held items l t where
  clear : l.fifoBlocked = false → Clear items t n
  released : ∀ e < n, ¬ Clear items t (e + 1) → t.Called (.requestRelease e) ∨ e ∈ offers t
  chunks : ∀ type, ∀ id ∈ (l.writer type).ids, ∃ e, idAt items e = some id ∧ Clear items t (e + 1)
  writes : ∀ e ∈ l.pendingWrites, Clear items t e
  fresh : ∀ e ∈ offers t, e < k
  sorted : (offers t).Pairwise (· > ·)
  undone : ∀ e, t.Called (.rollbackWrite e) ∨ t.Called (.rollbackOffer e) → e < k
  bare : ∀ e ∈ offers t, e < n → ¬ Carries items e → t.Returned (.commitOffer e) ∧ ¬ t.Called (.rollbackOffer e)
  carried : ∀ e ∈ offers t, e < n → Carries items e → RecordedAccepted t e → ¬ t.Called (.rollbackWrite e) →
    e ∈ l.commitOffers
  commits : ∀ e ∈ l.commitOffers, e ∈ offers t ∧ RecordedAccepted t e ∧ ¬ t.Called (.rollbackWrite e) ∧
    ¬ t.Called (.rollbackOffer e) ∧ Clear items t (e + 1)
  committed : ∀ e, t.Called (.commitOffer e) → Carries items e → e ∈ l.commitOffers
  unrecorded : ∀ e, RecordedAccepted t e → e < k

/-- A call that neither takes an entry further nor publishes, undoes or finishes. -/
def plain : Call → Bool
  | .lookup _ _ | .offer _ | .record _ _ _ _ | .commitWrite _ | .commitOffer _ | .sendAck _ _ _
  | .sendInboundRejected _ _ _ | .rollbackWrite _ | .rollbackOffer _ | .finish => false
  | _ => true

theorem acceptedOffer_call (h : acceptedOffer event = some e) : event.call = .offer e := by
  unfold acceptedOffer at h
  split at h
  · rw [Option.some.inj h]
  · cases h

theorem recorded_call {r : Nat × IngressOutcome × Durability} (h : recorded event = some r) :
    ∃ key outcome, event.call = .record r.1 key outcome false := by
  unfold recorded at h
  split at h
  · obtain rfl := Option.some.inj h
    exact ⟨_, _, rfl⟩
  · cases h

theorem offers_cons_of_none (h : acceptedOffer event = none) : offers (event :: t) = offers t := by
  rw [offers, offers, List.filterMap_cons_none h]

theorem RecordedAccepted.cons (h : RecordedAccepted t e) : RecordedAccepted (event :: t) e := by
  obtain ⟨r, hr, hrest⟩ := h
  exact ⟨r, mem_filterMap_cons.mpr (.inr hr), hrest⟩

theorem RecordedAccepted.of_cons (h : RecordedAccepted (event :: t) e)
    (hother : ∀ key outcome, event.call ≠ .record e key outcome false) : RecordedAccepted t e := by
  obtain ⟨r, hr, rfl, hacc⟩ := h
  obtain hnew | hold := mem_filterMap_cons.mp hr
  · obtain ⟨key, outcome, hcall⟩ := recorded_call hnew
    exact absurd hcall (hother key outcome)
  · exact ⟨r, hold, rfl, hacc⟩

theorem called_cons_of_ne {c : Call} (h : event.call ≠ c) : Trace.Called (event :: t) c ↔ t.Called c := by
  rw [Trace.called_cons]
  exact or_iff_right h

theorem Held.cons (h : Held items l t) (htouched : ∀ e, touched event.call = some e → Clear items t e)
    (hsent : ∀ id ∈ sent event.call, ∃ e, idAt items e = some id ∧ Clear items t (e + 1))
    (hoffer : acceptedOffer event = none) (hfinish : event.call ≠ .finish) : Held items l (event :: t) where
  barrier := h.barrier.cons htouched hsent
  held e he := h.held e (offers_cons_of_none hoffer ▸ he)
  rolled e he := Trace.called_cons.mpr (.inr (h.rolled e he))
  unfinished hcalled := h.unfinished ((called_cons_of_ne hfinish).mp hcalled)
  undecided := h.undecided

/-- A call that accepts, undoes and commits nothing, and records for no entry before `n`. -/
theorem Lane.cons (h : Lane items n k l t) (htouched : ∀ e, touched event.call = some e → Clear items t e)
    (hsent : ∀ id ∈ sent event.call, ∃ e, idAt items e = some id ∧ Clear items t (e + 1))
    (hoffer : acceptedOffer event = none) (hfinish : event.call ≠ .finish) (hundo : undoes event.call = false)
    (hcommit : ∀ e, event.call ≠ .commitOffer e)
    (hrecord : ∀ e key outcome, event.call = .record e key outcome false → n ≤ e ∧ e < k) :
    Lane items n k l (event :: t) := by
  have hcalled := fun e => called_of_not_undoes (t := t) event hundo e
  have hoffers : offers (event :: t) = offers t := offers_cons_of_none hoffer
  refine { h.toHeld.cons htouched hsent hoffer hfinish with
    clear := fun hopen => (h.clear hopen).cons
    released := fun e he hclear => ?_
    chunks := fun type id hid => ?_
    writes := fun e he => (h.writes e he).cons
    fresh := fun e he => h.fresh e (hoffers ▸ he)
    sorted := hoffers ▸ h.sorted
    undone := fun e he => h.undone e (he.imp (hcalled e).1.mp (hcalled e).2.mp)
    bare := fun e he hlt hbare => ?_
    carried := fun e he hlt hcarries hrec hkept => ?_
    commits := fun e he => ?_
    committed := fun e he => h.committed e ((called_cons_of_ne (hcommit e)).mp he)
    unrecorded := fun e hrec => ?_ }
  · rw [hoffers]
    exact (h.released e he fun hold => hclear hold.cons).imp_left fun hc => Trace.called_cons.mpr (.inr hc)
  · obtain ⟨e, hat, hclear⟩ := h.chunks type id hid
    exact ⟨e, hat, hclear.cons⟩
  · obtain ⟨hreturned, hkept⟩ := h.bare e (hoffers ▸ he) hlt hbare
    exact ⟨hreturned.cons event, fun hc => hkept ((hcalled e).2.mp hc)⟩
  · refine h.carried e (hoffers ▸ he) hlt hcarries (hrec.of_cons fun key outcome hcall => ?_)
      fun hc => hkept ((hcalled e).1.mpr hc)
    exact absurd hlt (Nat.not_lt.mpr (hrecord e key outcome hcall).1)
  · obtain ⟨hoffered, hrec, hwrite, hoff, hclear⟩ := h.commits e he
    exact ⟨hoffers ▸ hoffered, hrec.cons, fun hc => hwrite ((hcalled e).1.mp hc), fun hc => hoff ((hcalled e).2.mp hc),
      hclear.cons⟩
  · by_cases hnew : ∃ key outcome, event.call = .record e key outcome false
    · obtain ⟨key, outcome, hcall⟩ := hnew
      exact (hrecord e key outcome hcall).2
    · exact h.unrecorded e (hrec.of_cons fun key outcome hcall => hnew ⟨key, outcome, hcall⟩)

theorem plain_facts {c : Call} (hc : plain c = true) : touched c = none ∧ sent c = [] ∧ c ≠ .finish ∧ undoes c = false ∧
    (∀ e, c ≠ .offer e) ∧ (∀ e, c ≠ .commitOffer e) ∧ ∀ e key outcome, c ≠ .record e key outcome false := by
  cases c <;> simp_all [plain, touched, sent, undoes]

theorem acceptedOffer_none (h : ∀ e, event.call ≠ .offer e) : acceptedOffer event = none := by
  cases hoffer : acceptedOffer event with
  | none => rfl
  | some e => exact absurd (acceptedOffer_call hoffer) (h e)

theorem Lane.plain {c : Call} {r : Option (Reply c)} (h : Lane items n k l t) (hc : plain c = true) :
    Lane items n k l (⟨c, r⟩ :: t) := by
  obtain ⟨htouched, hsent, hfinish, hundo, hoffer, hcommit, hrecord⟩ := plain_facts hc
  refine h.cons (fun e he => ?_) (fun id hid => ?_) (acceptedOffer_none hoffer) hfinish hundo hcommit
    fun e key outcome hcall => absurd hcall (hrecord e key outcome)
  · cases htouched.symm.trans he
  · dsimp only at hid
    rw [hsent] at hid
    cases hid

/-- A call that is about no entry, publishes nothing and does not finish. -/
theorem Held.inert {c : Call} {r : Option (Reply c)} (h : Held items l t) (htouched : touched c = none) (hsent : sent c = [])
    (hfinish : c ≠ .finish) : Held items l (⟨c, r⟩ :: t) := by
  have hoffer (e : Nat) : c ≠ .offer e := by
    rintro rfl
    cases htouched
  refine h.cons (fun e he => ?_) (fun id hid => ?_) (acceptedOffer_none hoffer) hfinish
  · cases htouched.symm.trans he
  · dsimp only at hid
    rw [hsent] at hid
    cases hid

/-- The entry is looked up, or the outcome of a cancelled message is recorded again. -/
theorem Lane.ask {c : Call} {r : Option (Reply c)} (h : Lane items n k l t) (hclear : Clear items t n)
    (hc : (∃ key, c = .lookup n key) ∨ ∃ key outcome, c = .record n key outcome true) : Lane items n k l (⟨c, r⟩ :: t) := by
  obtain ⟨key, rfl⟩ | ⟨key, outcome, rfl⟩ := hc
  · exact h.cons (fun e he => Option.some.inj he ▸ hclear) (fun id hid => by cases hid) rfl nofun rfl nofun nofun
  · refine h.cons (fun e he => Option.some.inj he ▸ hclear) (fun id hid => by cases hid) rfl nofun rfl nofun ?_
    intro e key' outcome' hcall
    cases hcall

/-- An outcome is recorded for the entry at hand. -/
theorem Lane.record {key : String} {outcome : IngressOutcome} {r : Option OutcomeRecordResult}
    (h : Lane items n (n + 1) l t) (hclear : Clear items t n) :
    Lane items n (n + 1) l (⟨.record n key outcome false, r⟩ :: t) := by
  refine h.cons (fun e he => Option.some.inj he ▸ hclear) (fun id hid => by cases hid) rfl nofun rfl nofun ?_
  intro e key' outcome' hcall
  cases hcall
  exact ⟨Nat.le_refl _, Nat.lt_succ_self _⟩

/-- The lease has an answer for the entry other than that it accepts. -/
theorem Lane.refused {r : Option OfferStatus} (h : Lane items n k l t) (hclear : Clear items t n) (hr : r ≠ some .accepted) :
    Lane items n k l (⟨.offer n, r⟩ :: t) := by
  refine h.cons (fun e he => Option.some.inj he ▸ hclear) (fun id hid => by cases hid) ?_ nofun rfl nofun nofun
  match r, hr with
  | none, _ => rfl
  | some .rejected, _ => rfl
  | some .disposed, _ => rfl
  | some .accepted, hr => exact absurd rfl hr

theorem Lane.raise {m : Nat} (h : Lane items n k l t) (hle : k ≤ m) : Lane items n m l t :=
  { h with
    fresh := fun e he => Nat.lt_of_lt_of_le (h.fresh e he) hle
    undone := fun e he => Nat.lt_of_lt_of_le (h.undone e he) hle
    unrecorded := fun e he => Nat.lt_of_lt_of_le (h.unrecorded e he) hle }

/-- The lease accepts the entry, whose closure is kept if it carries an id. -/
theorem Lane.accept (h : Lane items n n l t) (hclear : Clear items t n) {l' : Locals}
    (hl : l' = l ∧ ¬ Carries items n ∨ l' = { l with rollbackOffers := l.rollbackOffers ++ [n] }) :
    Lane items n (n + 1) l' (⟨.offer n, some .accepted⟩ :: t) := by
  have hoffers : offers (⟨.offer n, some .accepted⟩ :: t) = n :: offers t := rfl
  have hcalled := fun e => called_of_not_undoes (t := t) ⟨.offer n, some .accepted⟩ rfl e
  have hlocals : l'.fifoBlocked = l.fifoBlocked ∧ l'.rolledBack = l.rolledBack ∧ l'.pendingWrites = l.pendingWrites ∧
      l'.commitOffers = l.commitOffers ∧ l'.finalized = l.finalized ∧ (∀ type, l'.writer type = l.writer type) ∧
      ∀ e ∈ l.rollbackOffers, e ∈ l'.rollbackOffers := by
    obtain ⟨rfl, -⟩ | rfl := hl
    · exact ⟨rfl, rfl, rfl, rfl, rfl, fun _ => rfl, fun _ => id⟩
    · exact ⟨rfl, rfl, rfl, rfl, rfl, fun type => by cases type <;> rfl, fun e he => List.mem_append_left _ he⟩
  obtain ⟨hblocked, hrolled, hwrites, hcommits, hfinal, hwriter, hrollback⟩ := hlocals
  have hne {e : Nat} (he : e ∈ n :: offers t) (hlt : e < n) : e ∈ offers t := by
    obtain rfl | he := List.mem_cons.mp he
    · exact absurd hlt (Nat.lt_irrefl _)
    · exact he
  constructor
  · constructor
    · exact h.barrier.cons (fun e he => Option.some.inj he ▸ hclear) fun id hid => by cases hid
    · intro e he hcarries
      obtain rfl | he := List.mem_cons.mp (hoffers ▸ he)
      · obtain ⟨-, hbare⟩ | rfl := hl
        · exact absurd hcarries hbare
        · exact List.mem_append_right _ List.mem_cons_self
      · exact hrollback e (h.held e he hcarries)
    · intro e he
      exact Trace.called_cons.mpr (.inr (h.rolled e (hrolled ▸ he)))
    · intro hc
      obtain heq | hc := Trace.called_cons.mp hc
      · cases heq
      · exact h.unfinished hc
    · exact hfinal.trans h.undecided
  · exact fun hopen => (h.clear (hblocked ▸ hopen)).cons
  · intro e he hnot
    rw [hoffers]
    exact (h.released e he fun hold => hnot hold.cons).imp (fun hc => Trace.called_cons.mpr (.inr hc)) (.tail _)
  · intro type id hid
    obtain ⟨e, hat, he⟩ := h.chunks type id (hwriter type ▸ hid)
    exact ⟨e, hat, he.cons⟩
  · exact fun e he => (h.writes e (hwrites ▸ he)).cons
  · intro e he
    obtain rfl | he := List.mem_cons.mp (hoffers ▸ he)
    · exact Nat.lt_succ_self _
    · exact Nat.lt_succ_of_lt (h.fresh e he)
  · rw [hoffers]
    exact List.pairwise_cons.mpr ⟨h.fresh, h.sorted⟩
  · exact fun e he => Nat.lt_succ_of_lt (h.undone e (he.imp (hcalled e).1.mp (hcalled e).2.mp))
  · intro e he hlt hbare
    obtain ⟨hreturned, hkept⟩ := h.bare e (hne (hoffers ▸ he) hlt) hlt hbare
    exact ⟨hreturned.cons _, fun hc => hkept ((hcalled e).2.mp hc)⟩
  · intro e he hlt hcarries hrec hkept
    rw [hcommits]
    exact h.carried e (hne (hoffers ▸ he) hlt) hlt hcarries (hrec.of_cons nofun) fun hc => hkept ((hcalled e).1.mpr hc)
  · intro e he
    obtain ⟨hoffered, hrec, hwrite, hoff, hcleared⟩ := h.commits e (hcommits ▸ he)
    exact ⟨.tail _ hoffered, hrec.cons, fun hc => hwrite ((hcalled e).1.mp hc), fun hc => hoff ((hcalled e).2.mp hc),
      hcleared.cons⟩
  · intro e he
    rw [hcommits]
    obtain heq | he := Trace.called_cons.mp he
    · cases heq
    · exact h.committed e he
  · exact fun e hrec => Nat.lt_succ_of_lt (h.unrecorded e (hrec.of_cons nofun))

/-- The loop goes on behind an entry that it is through with. -/
theorem Lane.next (h : Lane items n k l t) (hk : k ≤ n + 1)
    (hclear : l.fifoBlocked = false → Carries items n → Classified t n)
    (hreleased : ¬ Clear items t (n + 1) → t.Called (.requestRelease n) ∨ n ∈ offers t)
    (hbare : n ∈ offers t → ¬ Carries items n → t.Returned (.commitOffer n) ∧ ¬ t.Called (.rollbackOffer n))
    (hcarried : n ∈ offers t → Carries items n → RecordedAccepted t n → ¬ t.Called (.rollbackWrite n) →
      n ∈ l.commitOffers) : Lane items (n + 1) (n + 1) l t := by
  have hraised := h.raise hk
  refine { hraised with
    clear := fun hopen => ?_
    released := fun e he hnot => ?_
    bare := fun e he hlt => ?_
    carried := fun e he hlt => ?_ }
  · exact (h.clear hopen).succ (hclear hopen)
  · obtain hlt | rfl := Nat.lt_succ_iff_lt_or_eq.mp he
    · exact h.released e hlt hnot
    · exact hreleased hnot
  · obtain hlt | rfl := Nat.lt_succ_iff_lt_or_eq.mp hlt
    · exact h.bare e he hlt
    · exact hbare he
  · obtain hlt | rfl := Nat.lt_succ_iff_lt_or_eq.mp hlt
    · exact h.carried e he hlt
    · exact hcarried he

/-- What belongs to the entry at hand is rolled back. -/
theorem Lane.undo {c : Call} {r : Option (Reply c)} (h : Lane items n (n + 1) l t)
    (hc : c = .rollbackWrite n ∨ c = .rollbackOffer n) (hkept : n ∉ l.commitOffers) :
    Lane items n (n + 1) l (⟨c, r⟩ :: t) := by
  have hplain : touched c = none ∧ sent c = [] ∧ (∀ e, c ≠ .offer e) ∧ c ≠ .finish ∧
      (∀ e key outcome, c ≠ .record e key outcome false) ∧ (∀ e, c ≠ .commitOffer e) ∧
      ∀ e, e ≠ n → c ≠ .rollbackWrite e ∧ c ≠ .rollbackOffer e := by
    rcases hc with rfl | rfl
    · refine ⟨rfl, rfl, nofun, nofun, nofun, nofun, fun e he => ⟨fun heq => ?_, nofun⟩⟩
      exact he (Call.rollbackWrite.inj heq).symm
    · refine ⟨rfl, rfl, nofun, nofun, nofun, nofun, fun e he => ⟨nofun, fun heq => ?_⟩⟩
      exact he (Call.rollbackOffer.inj heq).symm
  obtain ⟨htouched, hsent, hoffer, hfinish, hrecord, hcommit, hother⟩ := hplain
  have hoffers : offers (⟨c, r⟩ :: t) = offers t := offers_cons_of_none (acceptedOffer_none hoffer)
  have hheld : Held items l (⟨c, r⟩ :: t) := by
    refine h.toHeld.cons (fun e he => ?_) (fun id hid => ?_) (acceptedOffer_none hoffer) hfinish
    · cases htouched.symm.trans he
    · dsimp only at hid
      rw [hsent] at hid
      cases hid
  refine { hheld with
    clear := fun hopen => (h.clear hopen).cons
    released := fun e he hclear => ?_
    chunks := fun type id hid => ?_
    writes := fun e he => (h.writes e he).cons
    fresh := fun e he => h.fresh e (hoffers ▸ he)
    sorted := hoffers ▸ h.sorted
    undone := fun e he => ?_
    bare := fun e he hlt hbare => ?_
    carried := fun e he hlt hcarries hrec hkept => ?_
    commits := fun e he => ?_
    committed := fun e he => h.committed e ((called_cons_of_ne (hcommit e)).mp he)
    unrecorded := fun e hrec => h.unrecorded e (hrec.of_cons (hrecord e)) }
  · rw [hoffers]
    exact (h.released e he fun hold => hclear hold.cons).imp_left fun hc => Trace.called_cons.mpr (.inr hc)
  · obtain ⟨e, hat, hclear⟩ := h.chunks type id hid
    exact ⟨e, hat, hclear.cons⟩
  · by_cases hen : e = n
    · rw [hen]
      exact Nat.lt_succ_self n
    · exact h.undone e (he.imp (called_cons_of_ne (hother e hen).1).mp (called_cons_of_ne (hother e hen).2).mp)
  · obtain ⟨hreturned, hoff⟩ := h.bare e (hoffers ▸ he) hlt hbare
    exact ⟨hreturned.cons _, fun hc => hoff ((called_cons_of_ne (hother e (Nat.ne_of_lt hlt)).2).mp hc)⟩
  · refine h.carried e (hoffers ▸ he) hlt hcarries (hrec.of_cons (hrecord e)) fun hc => hkept ?_
    exact Trace.called_cons.mpr (.inr hc)
  · obtain ⟨hoffered, hrec, hwrite, hoff, hclear⟩ := h.commits e he
    have hen : e ≠ n := by
      rintro rfl
      exact hkept he
    exact ⟨hoffers ▸ hoffered, hrec.cons, fun hc => hwrite ((called_cons_of_ne (hother e hen).1).mp hc),
      fun hc => hoff ((called_cons_of_ne (hother e hen).2).mp hc), hclear.cons⟩

/-- Variables that say nothing about the offers may change. -/
theorem Lane.locals {l' : Locals} (h : Lane items n k l t) (hblocked : l'.fifoBlocked = false → l.fifoBlocked = false)
    (hrollback : l'.rollbackOffers = l.rollbackOffers) (hcommits : l'.commitOffers = l.commitOffers)
    (hfinal : l'.finalized = l.finalized)
    (hrolled : ∀ e ∈ l'.rolledBack, t.Called (.rollbackOffer e)) (hwrites : ∀ e ∈ l'.pendingWrites, Clear items t e)
    (hchunks : ∀ type, ∀ id ∈ (l'.writer type).ids, ∃ e, idAt items e = some id ∧ Clear items t (e + 1)) :
    Lane items n k l' t :=
  { h with
    held := fun e he hcarries => hrollback ▸ h.held e he hcarries
    rolled := hrolled
    undecided := hfinal.trans h.undecided
    clear := fun hopen => h.clear (hblocked hopen)
    chunks := hchunks
    writes := hwrites
    carried := fun e he hlt hcarries hrec hkept => hcommits ▸ h.carried e he hlt hcarries hrec hkept
    commits := fun e he => h.commits e (hcommits ▸ he)
    committed := fun e he hcarries => hcommits ▸ h.committed e he hcarries }

/-- An offer is committed: one that carries no id, or one that is due. -/
theorem Lane.commit {r : Option Unit} (h : Lane items n k l t) (hclear : Clear items t e)
    (hdue : Carries items e → e ∈ l.commitOffers) : Lane items n k l (⟨.commitOffer e, r⟩ :: t) := by
  have hcalled := fun e' => called_of_not_undoes (t := t) ⟨.commitOffer e, r⟩ rfl e'
  have hheld : Held items l (⟨.commitOffer e, r⟩ :: t) :=
    h.toHeld.cons (fun e' he => Option.some.inj he ▸ hclear) (fun id hid => by cases hid) rfl nofun
  refine { hheld with
    clear := fun hopen => (h.clear hopen).cons
    released := fun e he hnot =>
      (h.released e he fun hold => hnot hold.cons).imp_left fun hc => Trace.called_cons.mpr (.inr hc)
    chunks := fun type id hid => ?_
    writes := fun e he => (h.writes e he).cons
    fresh := h.fresh
    sorted := h.sorted
    undone := fun e he => h.undone e (he.imp (hcalled e).1.mp (hcalled e).2.mp)
    bare := fun e he hlt hbare => ?_
    carried := fun e he hlt hcarries hrec hkept => ?_
    commits := fun e he => ?_
    committed := fun e' he hcarries => ?_
    unrecorded := fun e hrec => h.unrecorded e (hrec.of_cons nofun) }
  · obtain ⟨e, hat, he⟩ := h.chunks type id hid
    exact ⟨e, hat, he.cons⟩
  · obtain ⟨hreturned, hkept⟩ := h.bare e he hlt hbare
    exact ⟨hreturned.cons _, fun hc => hkept ((hcalled e).2.mp hc)⟩
  · exact h.carried e he hlt hcarries (hrec.of_cons nofun) fun hc => hkept ((hcalled e).1.mpr hc)
  · obtain ⟨hoffered, hrec, hwrite, hoff, hcleared⟩ := h.commits e he
    exact ⟨hoffered, hrec.cons, fun hc => hwrite ((hcalled e).1.mp hc), fun hc => hoff ((hcalled e).2.mp hc),
      hcleared.cons⟩
  · obtain heq | he := Trace.called_cons.mp he
    · obtain rfl := Call.commitOffer.inj heq
      exact hdue hcarries
    · exact h.committed e' he hcarries

/-! ### The turn of an entry -/

variable (items) in
/-- Nothing has been done about entry `n`, and all entries before it are classified. -/
def Due (n : Nat) (l : Locals) (t : History) : Prop := Lane items n n l t ∧ Clear items t n

variable (items) in
/-- The dispatcher does not accept the entry in this round. -/
def Passed (n : Nat) (l : Locals) (t : History) : Prop :=
  Lane items n (n + 1) l t ∧ Clear items t n ∧ n ∉ offers t

variable (items) in
/-- The dispatcher has accepted the entry, and nothing of it has been undone yet. -/
structure Taken (n : Nat) (l : Locals) (t : History) : Prop extends Lane items n (n + 1) l t where
  due : Clear items t n
  offered : n ∈ offers t
  written : ¬ t.Called (.rollbackWrite n)
  kept : ¬ t.Called (.rollbackOffer n)
  spare : n ∉ l.commitOffers

variable (items) in
/-- Calls of no account keep the property, and it says what holds also after a throw. -/
structure Steady (I : Locals → History → Prop) : Prop where
  held : ∀ l t, I l t → Held items l t
  plain : ∀ l t (c : Call) (r : Option (Reply c)), I l t → plain c = true → I l (⟨c, r⟩ :: t)

theorem Due.fresh (h : Due items n l t) : n ∉ offers t := fun hn => Nat.lt_irrefl n (h.1.fresh n hn)

theorem Due.passed (h : Due items n l t) : Passed items n l t := ⟨h.1.raise (Nat.le_succ n), h.2, h.fresh⟩

theorem Passed.spare (h : Passed items n l t) : n ∉ l.commitOffers := fun hn => h.2.2 (h.1.commits n hn).1

theorem Passed.next (h : Passed items n l t) (hclear : l.fifoBlocked = false → Carries items n → Classified t n)
    (hreleased : ¬ Clear items t (n + 1) → t.Called (.requestRelease n)) : Lane items (n + 1) (n + 1) l t :=
  h.1.next (Nat.le_refl _) hclear (fun hnot => .inl (hreleased hnot)) (fun hn => absurd hn h.2.2) fun hn => absurd hn h.2.2

/-- The loop goes on behind a classified entry. -/
theorem Passed.through (h : Passed items n l t) (hn : Carries items n → Classified t n) : Due items (n + 1) l t := by
  have hclear := h.2.1.succ hn
  exact ⟨h.next (fun _ => hn) fun hnot => absurd hclear hnot, hclear⟩

theorem Lane.block (h : Lane items n k l t) : Lane items n k { l with fifoBlocked := true } t :=
  h.locals nofun rfl rfl rfl h.rolled h.writes h.chunks

theorem Due.plain {c : Call} {r : Option (Reply c)} (h : Due items n l t) (hc : plain c = true) :
    Due items n l (⟨c, r⟩ :: t) := ⟨h.1.plain hc, h.2.cons⟩

theorem offers_plain {c : Call} {r : Option (Reply c)} (hc : plain c = true) : offers (⟨c, r⟩ :: t) = offers t :=
  offers_cons_of_none (acceptedOffer_none (plain_facts hc).2.2.2.2.1)

theorem Passed.plain {c : Call} {r : Option (Reply c)} (h : Passed items n l t) (hc : plain c = true) :
    Passed items n l (⟨c, r⟩ :: t) := ⟨h.1.plain hc, h.2.1.cons, (offers_plain (t := t) (r := r) hc).symm ▸ h.2.2⟩

theorem Taken.plain {c : Call} {r : Option (Reply c)} (h : Taken items n l t) (hc : plain c = true) :
    Taken items n l (⟨c, r⟩ :: t) := by
  have hcalled := called_of_not_undoes (t := t) ⟨c, r⟩ (plain_facts hc).2.2.2.1 n
  exact ⟨h.toLane.plain hc, h.due.cons, (offers_plain (t := t) (r := r) hc).symm ▸ h.offered, fun hw => h.written (hcalled.1.mp hw),
    fun ho => h.kept (hcalled.2.mp ho), h.spare⟩

/-- The write of an accepted entry is kept for the end of the batch, and its offer with it. -/
theorem Taken.push (h : Taken items n l t) (hcarries : Carries items n) (hn : Classified t n)
    (hrecorded : RecordedAccepted t n) {l' : Locals} (hl : l' = { l with
      pendingWrites := l.pendingWrites ++ [n]
      commitOffers := l.commitOffers ++ [n] }) : Due items (n + 1) l' t := by
  subst hl
  have hclear : Clear items t (n + 1) := h.due.succ fun _ => hn
  have hlane : Lane items n (n + 1) { l with
      pendingWrites := l.pendingWrites ++ [n]
      commitOffers := l.commitOffers ++ [n] } t := by
    refine { h.toLane with
      held := h.held
      undecided := h.undecided
      chunks := fun type => ?_
      writes := fun e he => ?_
      carried := fun e he hlt hcarries hrec hkept => List.mem_append_left _ (h.carried e he hlt hcarries hrec hkept)
      commits := fun e he => ?_
      committed := fun e he hcarries => List.mem_append_left _ (h.committed e he hcarries) }
    · cases type with
      | ack => exact h.chunks .ack
      | inboundRejected => exact h.chunks .inboundRejected
    · obtain he | he := List.mem_append.mp he
      · exact h.writes e he
      · rw [List.mem_singleton.mp he]
        exact h.due
    · obtain he | he := List.mem_append.mp he
      · exact h.commits e he
      · rw [List.mem_singleton.mp he]
        exact ⟨h.offered, hrecorded, h.written, h.kept, hclear⟩
  refine ⟨hlane.next (Nat.le_refl _) (fun _ _ => hn) (fun hnot => absurd hclear hnot) (fun _ hbare => ?_) ?_, hclear⟩
  · exact absurd hcarries hbare
  · exact fun _ _ _ _ => List.mem_append_right _ (List.mem_singleton.mpr rfl)

theorem Lane.steady : Steady items (Lane items n k) := ⟨fun _ _ h => h.toHeld, fun _ _ _ _ h hc => h.plain hc⟩

theorem Due.steady : Steady items (Due items n) := ⟨fun _ _ h => h.1.toHeld, fun _ _ _ _ h hc => h.plain hc⟩

theorem Passed.steady : Steady items (Passed items n) := ⟨fun _ _ h => h.1.toHeld, fun _ _ _ _ h hc => h.plain hc⟩

theorem Taken.steady : Steady items (Taken items n) := ⟨fun _ _ h => h.toHeld, fun _ _ _ _ h hc => h.plain hc⟩

theorem Steady.and {I : Locals → History → Prop} {F : Locals → History → Prop} (h : Steady items I)
    (hF : ∀ l t (c : Call) (r : Option (Reply c)), F l t → Ingress.plain c = true → F l (⟨c, r⟩ :: t)) :
    Steady items fun l t => I l t ∧ F l t :=
  ⟨fun l t hI => h.held l t hI.1, fun l t c r hI hc => ⟨h.plain l t c r hI.1 hc, hF l t c r hI.2 hc⟩⟩

theorem RecordedAccepted.of_plain {c : Call} {r : Option (Reply c)} (h : RecordedAccepted (⟨c, r⟩ :: t) e)
    (hc : Ingress.plain c = true) : RecordedAccepted t e :=
  RecordedAccepted.of_cons h ((plain_facts hc).2.2.2.2.2.2 e)

end Webchannel.Ingress
