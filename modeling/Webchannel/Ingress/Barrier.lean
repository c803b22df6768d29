import Webchannel.Ingress.Lane

/-!
# The barrier of a flush

The first entry that is left unclassified stops its batch: nothing is done about the entries behind it but to release
them, so that a retry meets a peer's messages in their order.
-/

namespace Webchannel.Ingress

open Webchannel.Program Webchannel.Runs
open Webchannel.Outcome (IngressOutcome Durability OutcomeLookup)

variable {items : List IngressDedupeItem} {t : History} {event : Event Call Reply} {id : String} {e n k : Nat} {l : Locals}

/-! ### The loop -/

namespace Flush

variable {α : Type} {key peerId : String} {I : Locals → History → Prop}

variable (items) in
/-- Code that keeps to the barrier. -/
abbrev Fifo (I : Locals → History → Prop) (m : Flush α) (Q : Option α → Locals → History → Prop) : Prop :=
  Spec (fun _ _ => True) (Barrier items) I m Q

variable (items) in
/-- The round of entry `n` is over, or a call has thrown out of the loop. -/
def Turned {α : Type} (n : Nat) (r : Option α) (l : Locals) (t : History) : Prop :=
  r.elim (Held items l t) fun _ => Lane items (n + 1) (n + 1) l t

theorem Turned.of_lane {r : Option α} (h : Lane items (n + 1) (n + 1) l t) : Turned items n r l t := by
  cases r with
  | none => exact h.toHeld
  | some _ => exact h

theorem call_steady {c : Call} (hI : Steady items I) (hc : plain c = true) : Fifo items I (call c) fun _ => I :=
  Spec.call fun l t r h _ => ⟨(hI.held _ _ (hI.plain l t c r h hc)).barrier, hI.plain l t c r h hc⟩

theorem call_called {c : Call} (hI : Steady items I) (hc : plain c = true) :
    Fifo items I (call c) fun _ l t => I l t ∧ t.Called c :=
  Spec.call fun l t r h _ =>
    ⟨(hI.held _ _ (hI.plain l t c r h hc)).barrier, hI.plain l t c r h hc, Trace.called_cons.mpr (.inl rfl)⟩

theorem inactive_steady (hI : Steady items I) : Fifo items I (inactive e) fun _ => I := by
  refine Spec.keep_bind (call_steady hI rfl) fun running => Spec.ite (fun _ => ?_) fun _ => ?_
  · exact Spec.keep_bind (call_steady hI rfl) fun _ => Spec.pure fun _ _ h => h
  · exact Spec.pure fun _ _ h => h

/-- An entry that is active right after a classifying answer is classified. -/
theorem inactive_classifies (hI : Steady items I) {A : Prop} :
    Fifo items (fun l t => I l t ∧ (A → ∃ event rest, t = event :: rest ∧ classifies event = some e)) (inactive e)
      fun r l t => I l t ∧ (r = some false → A → Classified t e) := by
  refine Spec.bind (Q := fun r l t => I l t ∧
    (A → ∃ event rest, t = ⟨.isActive, r⟩ :: event :: rest ∧ classifies event = some e)) ?_ (fun running => ?_) ?_
  · refine Spec.call fun l t r h _ => ?_
    have hnext := hI.plain l t .isActive r h.1 rfl
    refine ⟨(hI.held _ _ hnext).barrier, hnext, fun hA => ?_⟩
    obtain ⟨event, rest, rfl, hevent⟩ := h.2 hA
    exact ⟨event, rest, rfl, hevent⟩
  · refine Spec.ite (fun hrunning => ?_) fun _ => Spec.pure fun _ _ h => ⟨h.1, nofun⟩
    refine Spec.bind (Q := fun r l t => I l t ∧ (r = some true → A → Classified t e)) ?_ (fun active => ?_)
      fun _ _ h => ⟨h.1, nofun⟩
    · refine Spec.call fun l t r h _ => ?_
      have hnext := hI.plain l t (.entryIsActive e) r h.1 rfl
      refine ⟨(hI.held _ _ hnext).barrier, hnext, fun hr hA => ?_⟩
      obtain ⟨event, rest, rfl, hevent⟩ := h.2 hA
      subst hr hrunning
      exact .inr ⟨_, (List.mem_tails _ _).mpr (List.suffix_refl _), decide_eq_true ⟨rfl, hevent⟩⟩
    · refine Spec.pure fun l t h => ⟨h.1, fun hr => h.2 ?_⟩
      cases active
      · cases hr
      · rfl
  · exact fun _ _ h => ⟨h.1, nofun⟩

/-- What a store's adapter answers is the latest answer; what it throws counts as none. -/
theorem guarded_last {failure : AdapterFailure} {c : Call} {J : Option (Reply c) → Locals → History → Prop}
    (hJ : ∀ r, Steady items (J r)) (hstep : ∀ l t r, I l t → J r l (⟨c, r⟩ :: t)) :
    Fifo items I (guarded failure (call c)) fun r l t => J r.join l t ∧ ∀ a, r.join = some a → ∃ rest, t = ⟨c, some a⟩ :: rest := by
  refine Spec.bind (Q := fun r l t => J r.join l t ∧ ∀ a, r.join = some a → ∃ rest, t = ⟨c, some a⟩ :: rest)
    (Spec.attempt (Spec.call fun l t r h _ => ?_)) (fun result => ?_) fun _ _ h => h
  · have hnext := hstep l t r h
    refine ⟨((hJ r).held _ _ hnext).barrier, hnext, fun a ha => ⟨t, ?_⟩⟩
    obtain rfl : r = some a := ha
    rfl
  · cases result with
    | some a => exact Spec.pure fun _ _ h => h
    | none =>
      refine Spec.bind (Q := fun _ => J none) ?_ (fun _ => ?_) fun _ _ h => ⟨h, nofun⟩
      · exact (call_steady (hJ none) rfl).pre fun _ _ h => h.1
      · exact Spec.pure fun _ _ h => ⟨h, nofun⟩

/-- The entry is released, and the loop stops at it. -/
theorem release_block : Fifo items (Passed items n) (do release n; blockFifo) (Turned items n) := by
  refine Spec.bind (call_called Passed.steady rfl) (fun _ => ?_) fun _ _ h => h.1.1.toHeld
  refine Spec.modify fun l t h => ?_
  have hblocked : Passed items n { l with fifoBlocked := true } t := ⟨h.1.1.block, h.1.2⟩
  exact hblocked.next nofun fun _ => h.2

/-- A write that was recorded too late is rolled back. -/
theorem rollbackLate_passed {result : Option OutcomeRecordResult} :
    Fifo items (Passed items n) (rollbackLate n result) fun _ => Passed items n := by
  refine Spec.ite (fun _ => Spec.call fun l t r h _ => ?_) fun _ => Spec.pure fun _ _ h => h
  have hundone := h.1.undo (r := r) (.inl rfl) h.spare
  exact ⟨hundone.barrier, hundone, h.2.1.cons, h.2.2⟩

theorem setAside {result : Option OutcomeRecordResult} :
    Fifo items (Passed items n) (do rollbackLate n result; release n; blockFifo) (Turned items n) :=
  Spec.bind rollbackLate_passed (fun _ => release_block) fun _ _ h => h.1.toHeld

theorem put_lane (peerId : String) (type : ResultType) {w : ChunkWriter} (h : Lane items n k l t)
    (hids : ∀ id ∈ w.ids, ∃ e, idAt items e = some id ∧ Clear items t (e + 1)) :
    Lane items n k ((writerOptions peerId type).put w l) t := by
  have hlocals (l' : Locals) (hl : l' = (writerOptions peerId type).put w l) : l'.fifoBlocked = l.fifoBlocked ∧
      l'.rollbackOffers = l.rollbackOffers ∧ l'.commitOffers = l.commitOffers ∧ l'.finalized = l.finalized ∧
      l'.rolledBack = l.rolledBack ∧ l'.pendingWrites = l.pendingWrites := by
    subst hl
    cases type <;> exact ⟨rfl, rfl, rfl, rfl, rfl, rfl⟩
  obtain ⟨hblocked, hrollback, hcommits, hfinal, hrolled, hwrites⟩ := hlocals _ rfl
  refine h.locals (fun hopen => hblocked ▸ hopen) hrollback hcommits hfinal (fun e he => h.rolled e (hrolled ▸ he))
    (fun e he => h.writes e (hwrites ▸ he)) fun type' id hid => ?_
  by_cases htype : type' = type
  · subst htype
    cases type' <;> exact hids id hid
  · have hwriter : ((writerOptions peerId type).put w l).writer type' = l.writer type' := by
      cases type <;> cases type' <;> first | rfl | exact absurd rfl htype
    exact h.chunks type' id (hwriter ▸ hid)

/-- Ids of classified entries are published. -/
theorem publish_lane {type : ResultType} {site : Site} {ids : List String} {F : Locals → History → Prop}
    (hF : ∀ l event t, F l t → F l (event :: t)) :
    Fifo items (fun l t => (∀ id ∈ ids, ∃ e, idAt items e = some id ∧ Clear items t (e + 1)) ∧ Lane items n k l t ∧ F l t)
      ((writerOptions peerId type).publish site ⟨type, ids⟩) fun _ l t => Lane items n k l t ∧ F l t := by
  cases type with
  | ack =>
    refine Spec.call fun l t r h _ => ?_
    have hnext : Lane items n k l (⟨.sendAck site peerId ids, r⟩ :: t) := h.2.1.cons nofun h.1 rfl nofun rfl nofun nofun
    exact ⟨hnext.barrier, hnext, hF _ _ _ h.2.2⟩
  | inboundRejected =>
    refine Spec.call fun l t r h _ => ?_
    have hnext : Lane items n k l (⟨.sendInboundRejected site peerId ids, r⟩ :: t) :=
      h.2.1.cons nofun h.1 rfl nofun rfl nofun nofun
    exact ⟨hnext.barrier, hnext, hF _ _ _ h.2.2⟩

/-- The id of a classified entry is added, whatever gets published meanwhile. -/
theorem add_lane (type : ResultType) :
    Fifo items (fun l t => Lane items n k l t ∧ ∃ e, idAt items e = some id ∧ Clear items t (e + 1))
      ((writerOptions peerId type).add (some id)) fun _ => Lane items n k := by
  have hstable (t : History) (event : Event Call Reply) (h : ∃ e, idAt items e = some id ∧ Clear items t (e + 1)) :
      ∃ e, idAt items e = some id ∧ Clear items (event :: t) (e + 1) := by
    obtain ⟨e, hat, hclear⟩ := h
    exact ⟨e, hat, hclear.cons⟩
  have hsteady : Steady items fun l t => Lane items n k l t ∧ ∃ e, idAt items e = some id ∧ Clear items t (e + 1) :=
    Lane.steady.and fun _ t _ _ h _ => hstable t _ h
  have hallows : (writerOptions peerId type).Allows (fun _ _ => True) (Barrier items)
      (fun l t => Lane items n k l t ∧ ∃ e, idAt items e = some id ∧ Clear items t (e + 1)) id := by
    refine ⟨fun w => ?_, fun w frame => ?_, ?_, ?_⟩
    · have hframe : (writerOptions peerId type).frameFor w.ids = ⟨type, w.ids⟩ := by cases type <;> rfl
      rw [hframe]
      refine ((publish_lane (n := n) (k := k) (F := fun l t => (writerOptions peerId type).writer l = w ∧
        ∃ e, idAt items e = some id ∧ Clear items t (e + 1)) fun l event t h => ⟨h.1, hstable t event h.2⟩).pre ?_).post ?_
      · rintro l t ⟨rfl, hlane, hid⟩
        exact ⟨fun x hx => hlane.chunks type x (writer_eq type l ▸ hx), hlane, rfl, hid⟩
      · exact fun _ _ _ h => ⟨h.2.1, h.1, h.2.2⟩
    · have hcall : (writerOptions peerId type).measureWireBytes frame = call (.measureResultWireBytes peerId frame) := by
        cases type <;> rfl
      rw [hcall]
      refine ((call_steady (hsteady.and (F := fun l _ => (writerOptions peerId type).writer l = w)
        fun _ _ _ _ h _ => h) rfl).pre ?_).post ?_
      · exact fun _ _ h => ⟨h.2, h.1⟩
      · exact fun _ _ _ h => ⟨h.2, h.1⟩
    · have hcall : (writerOptions peerId type).onTooSmall = call (.logWarn .resultTooSmall) := by cases type <;> rfl
      rw [hcall]
      exact call_steady hsteady rfl
    · rintro w l t ⟨hlane, hid⟩ hw
      refine ⟨put_lane _ _ hlane fun x hx => ?_, hid⟩
      obtain hx | rfl := hw x hx
      · exact hlane.chunks type x (writer_eq type l ▸ hx)
      · exact hid
  exact hallows.add.post fun _ _ _ h => h.1

/-- A classified entry's id goes into its chunk, and its round is over. -/
theorem add_turned (type : ResultType) (hid : idAt items n = some id) :
    Fifo items (Due items (n + 1)) (do
      let _ ← (writerOptions peerId type).add (some id)
      pure ()) (Turned items n) := by
  refine Spec.bind (Q := fun _ => Lane items (n + 1) (n + 1)) ((add_lane type).pre ?_) (fun _ => ?_) fun _ _ h => h.toHeld
  · exact fun l t h => ⟨h.1, n, hid, h.2⟩
  · exact Spec.pure fun _ _ h => h

theorem Due.turned {r : Option α} (h : Due items (n + 1) l t) : Turned items n r l t := .of_lane h.1

theorem recordOverloaded_turned (hid : idAt items n = some id) :
    Fifo items (Passed items n) (recordOverloaded peerId n key id) (Turned items n) := by
  refine Spec.bind (guarded_last (J := fun _ => Passed items n) (fun _ => Passed.steady) fun l t r h => ?_)
    (fun result => ?_) fun _ _ h => h.1.1.toHeld
  · exact ⟨h.1.record h.2.1, h.2.1.cons, h.2.2⟩
  refine Spec.bind ((inactive_classifies (Passed.steady (n := n)) (A := result = some (.recorded .durable))).pre ?_)
    (fun gone => ?_) fun _ _ h => h.1.1.toHeld
  · rintro l t ⟨h, hlast⟩
    refine ⟨h, fun hrec => ?_⟩
    obtain ⟨rest, rfl⟩ := hlast _ hrec
    exact ⟨_, rest, rfl, rfl⟩
  refine Spec.ite (fun _ => setAside.pre fun _ _ h => h.1) fun hactive => ?_
  refine Spec.ite (fun hrec => ?_) fun _ => setAside.pre fun _ _ h => h.1
  refine Spec.bind (Q := fun _ => Due items (n + 1)) (Spec.modify ?_) (fun _ => add_turned .inboundRejected hid)
    fun _ _ h => h.1.toHeld
  rintro l t ⟨h, hclassified⟩
  have hdue := h.through fun _ => hclassified (by rw [Bool.not_eq_true] at hactive; rw [hactive]) hrec
  refine ⟨hdue.1.locals (fun hopen => hopen) rfl rfl rfl hdue.1.rolled (fun e he => ?_) fun type => ?_, hdue.2⟩
  · obtain he | he := List.mem_append.mp he
    · exact hdue.1.writes e he
    · rw [List.mem_singleton.mp he]
      exact h.2.1
  · cases type with
    | ack => exact hdue.1.chunks .ack
    | inboundRejected => exact hdue.1.chunks .inboundRejected

/-- The accepted outcome has been asked for, with this answer. -/
theorem taken_steady (items : List IngressDedupeItem) (n : Nat) (result : Option OutcomeRecordResult) :
    Steady items fun l t => Taken items n l t ∧ (RecordedAccepted t n ↔ wasRecorded result = true) :=
  Taken.steady.and fun _ _ _ _ h hc => ⟨fun hrec => h.mp (hrec.of_plain hc), fun hr => (h.mpr hr).cons⟩

variable (items) in
/-- An accepted entry is left for later; it was not recorded, or too late. -/
def Dropped (n : Nat) (l : Locals) (t : History) : Prop :=
  Lane items n (n + 1) l t ∧ n ∈ offers t ∧ (RecordedAccepted t n → t.Called (.rollbackWrite n))

theorem dropped_block (hcarries : Carries items n) : Fifo items (Dropped items n) blockFifo (Turned items n) := by
  refine Spec.modify fun l t h => ?_
  refine h.1.block.next (Nat.le_refl _) nofun (fun _ => .inr h.2.1) (fun _ hbare => absurd hcarries hbare) ?_
  exact fun _ _ hrec hkept => absurd (h.2.2 hrec) hkept

theorem rollbackLate_taken {result : Option OutcomeRecordResult} :
    Fifo items (fun l t => Taken items n l t ∧ (RecordedAccepted t n ↔ wasRecorded result = true)) (rollbackLate n result)
      fun _ => Dropped items n := by
  refine Spec.ite (fun _ => Spec.call fun l t r h _ => ?_) fun hnot => Spec.pure fun l t h => ?_
  · have hundone := h.1.undo (r := r) (.inl rfl) h.1.spare
    exact ⟨hundone.barrier, hundone, h.1.offered, fun _ => Trace.called_cons.mpr (.inl rfl)⟩
  · exact ⟨h.1.toLane, h.1.offered, fun hrec => absurd (h.2.mp hrec) hnot⟩

theorem rollbackOnce_taken : Fifo items (fun l t => Taken items n l t ∧ ¬ RecordedAccepted t n) (rollbackOnce n)
    fun _ => Dropped items n := by
  refine Spec.get fun v => Spec.ite (fun _ => Spec.pure fun l t h => ?_) fun _ => ?_
  · exact ⟨h.2.1.toLane, h.2.1.offered, fun hrec => absurd hrec h.2.2⟩
  refine Spec.bind (Q := fun r l t => r = some () ∧ l = { v with rolledBack := n :: v.rolledBack } ∧
    Taken items n v t ∧ ¬ RecordedAccepted t n) (Spec.modify ?_) (fun _ => Spec.call ?_) nofun
  · rintro l t ⟨rfl, h⟩
    exact ⟨rfl, rfl, h⟩
  · rintro l t r ⟨-, rfl, h, hnot⟩ -
    have hundone := h.undo (r := r) (.inr rfl) h.spare
    refine ⟨hundone.barrier, hundone.locals (fun hopen => hopen) rfl rfl rfl (fun e he => ?_) hundone.writes hundone.chunks,
      h.offered, fun hrec => absurd (hrec.of_cons nofun) hnot⟩
    obtain rfl | he := List.mem_cons.mp he
    · exact Trace.called_cons.mpr (.inl rfl)
    · exact hundone.rolled e he

theorem recordAccepted_turned (hid : idAt items n = some id) (hcarries : Carries items n) :
    Fifo items (fun l t => ∃ t', t = ⟨.offer n, some .accepted⟩ :: t' ∧ Due items n l t') (recordAccepted peerId n key id)
      (Turned items n) := by
  refine Spec.bind (Q := fun _ l t => Taken items n l t ∧ ¬ RecordedAccepted t n) (Spec.modify ?_) (fun _ => ?_)
    fun _ _ h => h.1.toHeld
  · rintro l _ ⟨t, rfl, h⟩
    have hundone := fun hc => Nat.lt_irrefl n (h.1.undone n hc)
    have hcalled := called_of_not_undoes (t := t) ⟨.offer n, some .accepted⟩ rfl n
    refine ⟨⟨h.1.accept h.2 (.inr rfl), h.2.cons, List.mem_cons_self, fun hc => hundone (.inl (hcalled.1.mp hc)),
      fun hc => hundone (.inr (hcalled.2.mp hc)), fun hmem => h.fresh (h.1.commits n hmem).1⟩, fun hrec => ?_⟩
    exact Nat.lt_irrefl n (h.1.unrecorded n (hrec.of_cons nofun))
  refine Spec.bind (guarded_last (J := fun r l t => Taken items n l t ∧ (RecordedAccepted t n ↔ wasRecorded r = true))
    (taken_steady items n) fun l t r h => ?_) (fun result => ?_) fun _ _ h => h.1.1.toHeld
  · have hcalled := called_of_not_undoes (t := t) ⟨.record n key .accepted false, r⟩ rfl n
    refine ⟨⟨h.1.toLane.record h.1.due, h.1.due.cons, h.1.offered, fun hc => h.1.written (hcalled.1.mp hc),
      fun hc => h.1.kept (hcalled.2.mp hc), h.1.spare⟩, fun hrec => ?_, fun hr => ?_⟩
    · obtain ⟨x, hx, hrest⟩ := hrec
      obtain hnew | hold := mem_filterMap_cons.mp hx
      · match r, hnew with
        | some (.recorded _), _ => rfl
      · exact absurd ⟨x, hold, hrest⟩ h.2
    · obtain ⟨d, rfl⟩ := exists_recorded hr
      exact ⟨(n, .accepted, d), mem_filterMap_cons.mpr (.inl rfl), rfl, rfl⟩
  refine Spec.bind ((inactive_classifies (taken_steady items n result)
    (A := wasRecorded result = true)).pre ?_) (fun gone => ?_) fun _ _ h => h.1.1.toHeld
  · rintro l t ⟨h, hlast⟩
    refine ⟨h, fun hrec => ?_⟩
    obtain ⟨d, hd⟩ := exists_recorded hrec
    obtain ⟨rest, rfl⟩ := hlast _ hd
    exact ⟨_, rest, rfl, rfl⟩
  refine Spec.ite (fun _ => ?_) fun hactive => Spec.ite (fun hrec => ?_) fun hnot => ?_
  · exact Spec.bind (rollbackLate_taken.pre fun _ _ h => h.1) (fun _ => dropped_block hcarries) fun _ _ h => h.1.toHeld
  · refine Spec.bind (Q := fun _ => Due items (n + 1)) (Spec.modify ?_) (fun _ => add_turned .ack hid)
      fun _ _ h => h.1.toHeld
    rintro l t ⟨⟨h, hrecorded⟩, hclassified⟩
    have hn : Classified t n := hclassified (by rw [Bool.not_eq_true] at hactive; rw [hactive]) hrec
    exact h.push hcarries hn (hrecorded.mpr hrec) rfl
  · refine Spec.bind (rollbackOnce_taken.pre fun _ _ h => ?_) (fun _ => dropped_block hcarries) fun _ _ h => h.1.toHeld
    exact ⟨h.1.1, fun hrec => hnot (h.1.2.mp hrec)⟩

variable (items) in
/-- What the lease has answered about entry `n`. -/
def Offered (n : Nat) : Option OfferStatus → Locals → History → Prop
  | some .accepted, l, t => ∃ t', t = ⟨.offer n, some .accepted⟩ :: t' ∧ Due items n l t'
  | some .disposed, l, t => Passed items n l t ∧ Classified t n
  | _, l, t => Passed items n l t

theorem offer_due : Fifo items (Due items n) (call (.offer n)) (Offered items n) := by
  refine Spec.call fun l t r h _ => ⟨?_, ?_⟩
  · exact h.1.barrier.cons (fun e he => Option.some.inj he ▸ h.2) fun id hid => by cases hid
  · have hpassed (hr : r ≠ some .accepted) (hoffers : offers (⟨.offer n, r⟩ :: t) = offers t) :
        Passed items n l (⟨.offer n, r⟩ :: t) := by
      refine ⟨(h.1.refused h.2 hr).raise (Nat.le_succ n), h.2.cons, ?_⟩
      rw [hoffers]
      exact h.fresh
    match r with
    | none => exact hpassed nofun rfl
    | some .rejected => exact hpassed nofun rfl
    | some .disposed => exact ⟨hpassed nofun rfl, .inl (mem_filterMap_cons.mpr (.inl rfl))⟩
    | some .accepted => exact ⟨t, rfl, h⟩

theorem release_turned : Fifo items (Due items (n + 1)) (release e) (Turned items n) :=
  (call_steady Due.steady rfl).post fun _ _ _ h => Due.turned h

theorem offerFresh_turned (hid : idAt items n = some id) (hcarries : Carries items n) :
    Fifo items (Due items n) (offerFresh peerId n key id) (Turned items n) := by
  refine Spec.bind offer_due (fun offer => ?_) fun _ _ h => h.1.toHeld
  cases offer with
  | disposed => exact release_turned.pre fun _ _ h => h.1.through fun _ => h.2
  | rejected => exact recordOverloaded_turned hid
  | accepted => exact recordAccepted_turned hid hcarries

theorem offerBare_turned (hbare : ¬ Carries items n) : Fifo items (Due items n) (offerBare n) (Turned items n) := by
  have hrelease : Fifo items (Passed items n) (release n) (Turned items n) :=
    release_turned.pre fun _ _ h => h.through fun hcarries => absurd hcarries hbare
  refine Spec.bind offer_due (fun offer => ?_) fun _ _ h => h.1.toHeld
  cases offer with
  | disposed => exact hrelease.pre fun _ _ h => h.1
  | rejected => exact hrelease
  | accepted =>
    refine Spec.call ?_
    rintro l _ r ⟨t, rfl, h⟩ -
    have htaken := h.1.accept h.2 (.inl ⟨rfl, hbare⟩)
    have hnext := htaken.commit (r := r) h.2.cons fun hcarries => absurd hcarries hbare
    refine ⟨hnext.barrier, ?_⟩
    cases r with
    | none => exact hnext.toHeld
    | some _ =>
      refine hnext.next (Nat.le_refl _) (fun _ hcarries => absurd hcarries hbare) (fun _ => .inr List.mem_cons_self)
        (fun _ _ => ⟨⟨_, .head _, rfl, rfl⟩, fun hc => ?_⟩) fun _ hcarries => absurd hcarries hbare
      obtain heq | hc := Trace.called_cons.mp hc
      · cases heq
      obtain heq | hc := Trace.called_cons.mp hc
      · cases heq
      exact Nat.lt_irrefl n (h.1.undone n (.inr hc))

theorem lookup_due {failure : AdapterFailure} :
    Fifo items (Due items n) (guarded failure (call (.lookup n key))) fun r l t => Due items n l t ∧
      ∀ a, r.join = some a → ∃ rest, t = ⟨.lookup n key, some a⟩ :: rest :=
  guarded_last (J := fun _ => Due items n) (fun _ => Due.steady) fun _ _ _ h => ⟨h.1.ask h.2 (.inl ⟨key, rfl⟩), h.2.cons⟩

theorem classify_turned (hid : idAt items n = some id) (hcarries : Carries items n) :
    Fifo items (Due items n) (classify peerId n key id) (Turned items n) := by
  refine Spec.bind lookup_due (fun existing => ?_) fun _ _ h => h.1.1.toHeld
  refine Spec.bind ((inactive_classifies (Due.steady (n := n))
    (A := ∃ outcome, existing = some (.found outcome))).pre ?_) (fun gone => ?_) fun _ _ h => h.1.1.toHeld
  · rintro l t ⟨h, hlast⟩
    refine ⟨h, ?_⟩
    rintro ⟨outcome, rfl⟩
    obtain ⟨rest, rfl⟩ := hlast _ rfl
    exact ⟨_, rest, rfl, rfl⟩
  refine Spec.ite (fun _ => release_block.pre fun _ _ h => h.1.passed) fun hactive => ?_
  match existing with
  | none => exact release_block.pre fun _ _ h => h.1.passed
  | some (.unknown _) => exact release_block.pre fun _ _ h => h.1.passed
  | some .notFound => exact (offerFresh_turned hid hcarries).pre fun _ _ h => h.1
  | some (.found outcome) =>
    refine Spec.bind (Q := fun _ => Due items (n + 1)) ((call_steady Due.steady rfl).pre ?_) (fun _ => ?_)
      fun _ _ h => h.1.toHeld
    · rintro l t ⟨h, hclassified⟩
      have hn : Classified t n := hclassified (by rw [Bool.not_eq_true] at hactive; rw [hactive]) ⟨outcome, rfl⟩
      exact h.passed.through fun _ => hn
    · cases outcome with
      | accepted => exact add_turned .ack hid
      | overloaded => exact add_turned .inboundRejected hid

/-- The record of a cancelled message that is tried again is the latest answer if it succeeds. -/
theorem retryFallback_due :
    Fifo items (Due items n) (retryFallback n key) fun r l t => Due items n l t ∧
      ∀ d, r.join = some (.recorded d) → ∃ rest, t = ⟨.record n key .accepted true, some (.recorded d)⟩ :: rest := by
  refine Spec.bind (Q := fun r l t => Due items n l t ∧ ∀ d, r.join = some (.recorded d) →
    ∃ rest, t = ⟨.record n key .accepted true, some (.recorded d)⟩ :: rest) (Spec.attempt ?_) (fun result => ?_)
    fun _ _ h => ⟨h.1, nofun⟩
  · refine Spec.bind (Q := fun r l t => Due items n l t ∧ ∀ d, r = some (OutcomeRecordResult.recorded d) →
      ∃ rest, t = ⟨.record n key .accepted true, some (.recorded d)⟩ :: rest) (Spec.call fun l t r h _ => ?_)
      (fun result => ?_) fun _ _ h => ⟨h.1, nofun⟩
    · have hnext := h.1.ask (r := r) h.2 (.inr ⟨key, .accepted, rfl⟩)
      refine ⟨hnext.barrier, ⟨hnext, h.2.cons⟩, fun d hd => ⟨t, ?_⟩⟩
      rw [hd]
    · refine Spec.ite (fun _ => Spec.pure fun _ _ h => h) fun hnot => ?_
      refine Spec.bind (Q := fun _ => Due items n) ((call_steady Due.steady rfl).pre fun _ _ h => h.1) (fun _ => ?_)
        fun _ _ h => ⟨h, nofun⟩
      refine Spec.pure fun _ _ h => ⟨h, fun d hd => ?_⟩
      rw [Option.some.inj hd] at hnot
      exact absurd rfl hnot
  · refine Spec.ite (fun hnone => ?_) fun _ => Spec.pure fun _ _ h => h
    subst hnone
    refine Spec.bind (Q := fun _ => Due items n) ((call_steady Due.steady rfl).pre fun _ _ h => h.1) (fun _ => ?_)
      fun _ _ h => ⟨h, nofun⟩
    exact Spec.pure fun _ _ h => ⟨h, nofun⟩

theorem fallback_turned {item : IngressDedupeItem} (hid : idAt items n = some id) :
    Fifo items (Due items n) (fallback item n key id) (Turned items n) := by
  refine Spec.bind retryFallback_due (fun result => ?_) fun _ _ h => h.1.1.toHeld
  refine Spec.bind ((inactive_classifies (Due.steady (n := n))
    (A := wasRecorded result = true)).pre ?_) (fun gone => ?_) fun _ _ h => h.1.1.toHeld
  · rintro l t ⟨h, hlast⟩
    refine ⟨h, fun hrec => ?_⟩
    obtain ⟨d, rfl⟩ := exists_recorded hrec
    obtain ⟨rest, rfl⟩ := hlast d rfl
    exact ⟨_, rest, rfl, rfl⟩
  refine Spec.ite (fun _ => setAside.pre fun _ _ h => h.1.passed) fun hactive => ?_
  refine Spec.ite (fun hrec => ?_) fun _ => release_block.pre fun _ _ h => h.1.passed
  refine Spec.bind (Q := fun _ => Due items (n + 1)) (Spec.call ?_) (fun _ => ?_) fun _ _ h => h.1.toHeld
  · rintro l t r ⟨h, hclassified⟩ -
    have hdue : Due items (n + 1) l t :=
      h.passed.through fun _ => hclassified (by rw [Bool.not_eq_true] at hactive; rw [hactive]) hrec
    have hnext : Lane items (n + 1) (n + 1) l (⟨.commitWrite n, r⟩ :: t) :=
      hdue.1.cons (fun e he => Option.some.inj he ▸ h.2) (fun id hid => by cases hid) rfl nofun rfl nofun nofun
    exact ⟨hnext.barrier, hnext, hdue.2.cons⟩
  refine Spec.bind (Q := fun _ => Due items (n + 1)) (Spec.call ?_) (fun acked => ?_) fun _ _ h => h.1.toHeld
  · rintro l t r h -
    have hnext : Lane items (n + 1) (n + 1) l (⟨.sendAck .fallback item.peerId [id], r⟩ :: t) := by
      refine h.1.cons nofun (fun x hx => ⟨n, ?_, h.2⟩) rfl nofun rfl nofun nofun
      rw [List.mem_singleton.mp hx]
      exact hid
    exact ⟨hnext.barrier, hnext, h.2.cons⟩
  have hrest {c : Call} (hc : plain c = true) : Fifo items (Due items (n + 1)) (do
      let _ ← call c
      release n) (Turned items n) :=
    Spec.bind (call_steady Due.steady hc) (fun _ => release_turned) fun _ _ h => h.1.toHeld
  exact Spec.ite (fun _ => hrest rfl) fun _ => hrest rfl

theorem flushEntry_turned {item : IngressDedupeItem} (hitem : items[n]? = some item) :
    Fifo items (Lane items n n) (flushEntry peerId (item, n)) (Turned items n) := by
  refine Spec.get fun v => Spec.ite (fun hblocked => ?_) fun hopen => ?_
  · refine Spec.call ?_
    rintro l t r ⟨rfl, h⟩ -
    have hnext := h.plain (c := .requestRelease n) (r := r) rfl
    refine ⟨hnext.barrier, .of_lane (hnext.next (Nat.le_succ n) (fun hopen => ?_) (fun _ => .inl ?_) (fun hn => ?_)
      fun hn => ?_)⟩
    · rw [hblocked] at hopen
      cases hopen
    · exact Trace.called_cons.mpr (.inl rfl)
    · exact absurd (hnext.fresh n hn) (Nat.lt_irrefl n)
    · exact absurd (hnext.fresh n hn) (Nat.lt_irrefl n)
  refine Spec.pre (I := Due items n) ?_ ?_
  rotate_left
  · rintro l t ⟨rfl, h⟩
    exact ⟨h, h.clear (Bool.eq_false_of_not_eq_true hopen)⟩
  refine Spec.bind (inactive_steady Due.steady) (fun gone => ?_) fun _ _ h => h.1.toHeld
  refine Spec.ite (fun _ => release_block.pre fun _ _ h => h.passed) fun _ => ?_
  cases hkey : ingressDedupeKey item with
  | none =>
    refine offerBare_turned fun hcarries => ?_
    rw [Carries, hitem, Option.bind_some, hkey] at hcarries
    cases hcarries
  | some key =>
    have hid := ingressDedupeKey_id hkey
    have hat : idAt items n = some (item.id.getD "") := by rw [idAt, hitem, Option.bind_some, hid]; rfl
    have hcarries : Carries items n := by rw [Carries, hitem, Option.bind_some, hkey]; rfl
    refine Spec.bind (call_steady Due.steady rfl) (fun cancelled => ?_) fun _ _ h => h.1.toHeld
    exact Spec.ite (fun _ => fallback_turned hat) fun _ => classify_turned hat hcarries

theorem loop_turned {items' : List IngressDedupeItem} (hitems : items' = items) :
    Fifo items (Lane items 0 0) (Code.each (flushEntry peerId) items'.zipIdx) fun r l t =>
      r.elim (Held items l t) fun _ => Lane items items.length items.length l t := by
  subst hitems
  have hround : ∀ b ∈ items'.zipIdx, Fifo items' (Lane items' b.2 b.2) (flushEntry peerId b) (Turned items' b.2) :=
    fun b hb => flushEntry_turned (List.mem_zipIdx_iff_getElem?.mp hb)
  simpa using Spec.each_zipIdx (I := fun n => Lane items' n n) hround

end Flush

/-! ### The end of a batch -/

theorem Released.cons (h : Released items t) : Released items (event :: t) := by
  intro e he hnot
  obtain hc | hoffered := h e he fun hclear => hnot hclear.cons
  · exact .inl (Trace.called_cons.mpr (.inr hc))
  · exact .inr (mem_filterMap_cons.mpr (.inr hoffered))

theorem mem_offers_called (h : e ∈ offers t) : t.Called (.offer e) := by
  obtain ⟨event, hevent, hacc⟩ := List.mem_filterMap.mp h
  exact ⟨event, hevent, acceptedOffer_call hacc⟩

theorem Trace.Returned.called {c : Call} (h : t.Returned c) : t.Called c := by
  obtain ⟨event, hevent, hc, -⟩ := h
  exact ⟨event, hevent, hc⟩

variable (items) in
/-- Exactly the accepted entries are committed for good. -/
def Committed (t : History) : Prop :=
  (offers t).Pairwise (· > ·) ∧ ∀ e ∈ offers t,
    (t.Returned (.commitOffer e) ∧ ¬ t.Called (.rollbackOffer e) ↔
      (Carries items e → RecordedAccepted t e ∧ ¬ t.Called (.rollbackWrite e))) ∧
    (t.Returned (.commitOffer e) → Clear items t (e + 1))

theorem Lane.committed_all (h : Lane items n n l t) (hall : ∀ e ∈ l.commitOffers, t.Returned (.commitOffer e)) :
    Committed items t := by
  refine ⟨h.sorted, fun e he => ?_⟩
  have hlt := h.fresh e he
  by_cases hcarries : Carries items e
  · refine ⟨⟨fun hcommitted _ => ?_, fun haccepted => ?_⟩, fun hreturned => ?_⟩
    · obtain ⟨-, hrec, hwritten, -⟩ := h.commits e (h.committed e (Trace.Returned.called hcommitted.1) hcarries)
      exact ⟨hrec, hwritten⟩
    · have hmem := h.carried e he hlt hcarries (haccepted hcarries).1 (haccepted hcarries).2
      exact ⟨hall e hmem, (h.commits e hmem).2.2.2.1⟩
    · exact (h.commits e (h.committed e (Trace.Returned.called hreturned) hcarries)).2.2.2.2
  · refine ⟨⟨fun _ hc => absurd hc hcarries, fun _ => h.bare e he hlt hcarries⟩, fun _ => ?_⟩
    exact ((h.barrier _ (mem_offers_called he)).1 e rfl).succ fun hc => absurd hc hcarries

variable (items) in
/-- No offer of an entry that carries an id stands. -/
def Withdrawn (t : History) : Prop := ∀ e ∈ offers t, Carries items e → t.Called (.rollbackOffer e)

theorem Withdrawn.inert {c : Call} {r : Option (Reply c)} (h : Withdrawn items t) (htouched : touched c = none) :
    Withdrawn items (⟨c, r⟩ :: t) := by
  have hoffer (e : Nat) : c ≠ .offer e := by
    rintro rfl
    cases htouched
  intro e he hcarries
  rw [offers_cons_of_none (acceptedOffer_none hoffer)] at he
  exact Trace.called_cons.mpr (.inr (h e he hcarries))

theorem mem_attached : e ∈ attached t ↔
    t.Returned .finish ∧ e ∈ offers t ∧ t.Returned (.commitOffer e) ∧ ¬ t.Called (.rollbackOffer e) := by
  unfold attached
  split
  · rename_i hfinish
    rw [List.mem_reverse, List.mem_filter, decide_eq_true_iff]
    exact (and_iff_right hfinish).symm
  · rename_i hopen
    exact iff_of_false List.not_mem_nil fun h => hopen h.1

theorem not_returned_finish (h : ¬ t.Called .finish) : ¬ Trace.Returned (⟨.finish, none⟩ :: t : History) .finish := by
  rintro ⟨event, hevent, hc, hreply⟩
  obtain rfl | hevent := List.mem_cons.mp hevent
  · cases hreply
  · exact h ⟨event, hevent, hc⟩

theorem returned_commitOffer_finish {r : Option Unit} :
    Trace.Returned (⟨.finish, r⟩ :: t : History) (.commitOffer e) ↔ t.Returned (.commitOffer e) := by
  refine ⟨?_, fun h => h.cons _⟩
  rintro ⟨event, hevent, hc, hreply⟩
  obtain rfl | hevent := List.mem_cons.mp hevent
  · cases hc
  · exact ⟨event, hevent, hc, hreply⟩

theorem Barrier.finish {r : Option Unit} (h : Barrier items t) : Barrier items (⟨.finish, r⟩ :: t) :=
  h.cons nofun fun id hid => by cases hid

theorem Committed.finish (h : Committed items t) : Exact items (⟨.finish, some ()⟩ :: t) := by
  have hcalled (e : Nat) := called_of_not_undoes (t := t) ⟨.finish, some ()⟩ rfl e
  have haccepted (e : Nat) : Accepted items (⟨.finish, some ()⟩ :: t : History) e ↔ Accepted items t e := by
    refine and_congr_right fun _ => forall_congr' fun _ => and_congr ⟨fun hrec => hrec.of_cons nofun, RecordedAccepted.cons⟩ ?_
    exact not_congr (hcalled e).1
  have hmem (e : Nat) : e ∈ attached (⟨.finish, some ()⟩ :: t : History) ↔
      e ∈ offers t ∧ t.Returned (.commitOffer e) ∧ ¬ t.Called (.rollbackOffer e) := by
    rw [mem_attached, returned_commitOffer_finish, (hcalled e).2]
    exact and_iff_right ⟨_, .head _, rfl, rfl⟩
  refine ⟨?_, fun e => ?_⟩
  · rw [attached, if_pos ⟨_, .head _, rfl, rfl⟩, List.pairwise_reverse]
    exact h.1.filter _
  · rw [hmem, haccepted]
    refine ⟨and_congr_right fun hoffered => (h.2 e hoffered).1, fun hacc => ?_⟩
    obtain ⟨hoffered, hrest⟩ := hacc
    exact ((h.2 e hoffered).2 ((h.2 e hoffered).1.mpr hrest).1).cons

namespace Flush

/-- A call of the end of a batch. -/
theorem call_held {c : Call} (htouched : touched c = none) (hsent : sent c = []) (hfinish : c ≠ .finish) :
    Fifo items (Held items) (call c) fun _ => Held items :=
  Spec.call fun _ _ _ h _ => ⟨(h.inert htouched hsent hfinish).barrier, h.inert htouched hsent hfinish⟩

theorem rollbackWrites_held : Fifo items (Held items) rollbackWrites fun _ => Held items :=
  Spec.get fun _ => (Spec.keep_each fun e _ => call_held (c := .rollbackWrite e) rfl rfl nofun).pre fun _ _ h => h.2

theorem rollbackOnce_held {os : List Nat} :
    Fifo items (fun l t => Held items l t ∧ l.rollbackOffers = os) (rollbackOnce e) fun r l t =>
      (Held items l t ∧ l.rollbackOffers = os) ∧ (r = some () → t.Called (.rollbackOffer e)) := by
  refine Spec.get fun v => Spec.ite (fun hmem => Spec.pure fun l t h => ?_) fun _ => ?_
  · obtain ⟨rfl, h⟩ := h
    exact ⟨h, fun _ => h.1.rolled e hmem⟩
  refine Spec.bind (Q := fun r l t => r = some () ∧ l = { v with rolledBack := e :: v.rolledBack } ∧
    Held items v t ∧ v.rollbackOffers = os) (Spec.modify ?_) (fun _ => Spec.call ?_) nofun
  · rintro l t ⟨rfl, h⟩
    exact ⟨rfl, rfl, h⟩
  · rintro l t r ⟨-, rfl, h, hos⟩ -
    have hnext := h.inert (c := .rollbackOffer e) (r := r) rfl rfl nofun
    have hcalled : Trace.Called (⟨.rollbackOffer e, r⟩ :: t : History) (.rollbackOffer e) := Trace.called_cons.mpr (.inl rfl)
    refine ⟨hnext.barrier, ⟨{ hnext with held := hnext.held, undecided := hnext.undecided, rolled := fun e' he => ?_ }, hos⟩,
      fun _ => hcalled⟩
    obtain rfl | he := List.mem_cons.mp he
    · exact hcalled
    · exact hnext.rolled e' he

/-- When all the closures have run, no offer of an entry that carries an id stands. -/
theorem rollbackOffers_withdrawn :
    Fifo items (Held items) rollbackOffers fun r l t => Held items l t ∧ (r = some () → Withdrawn items t) := by
  refine Spec.get fun v => ((Spec.each_collect (I := fun l t => Held items l t ∧ l.rollbackOffers = v.rollbackOffers)
    (F := fun e t => t.Called (.rollbackOffer e)) ?_ fun e _ => rollbackOnce_held).pre ?_).post ?_
  · exact fun e event t h => Trace.called_cons.mpr (.inr h)
  · rintro l t ⟨rfl, h⟩
    exact ⟨h, rfl⟩
  · rintro r l t ⟨⟨h, hos⟩, hall⟩
    exact ⟨h, fun hr e he hcarries => hall hr e (hos ▸ h.held e he hcarries)⟩

theorem releaseDeferred_withdrawn :
    Fifo items (fun l t => Held items l t ∧ Withdrawn items t) releaseDeferred fun _ l t =>
      Held items l t ∧ Withdrawn items t :=
  Spec.get fun _ => (Spec.keep_each fun e _ => Spec.call fun _ _ r h _ =>
    have hnext := h.1.inert (c := .requestRelease e) (r := r) rfl rfl nofun
    ⟨hnext.barrier, hnext, h.2.inert rfl⟩).pre fun _ _ h => h.2

theorem rollbackBatch_withdrawn :
    Fifo items (Held items) rollbackBatch fun r l t => Held items l t ∧ (r = some () → Withdrawn items t) := by
  refine Spec.bind rollbackWrites_held (fun _ => ?_) fun _ _ h => ⟨h, nofun⟩
  refine Spec.bind rollbackOffers_withdrawn (fun _ => ?_) fun _ _ h => ⟨h.1, nofun⟩
  exact (releaseDeferred_withdrawn.pre fun _ _ h => ⟨h.1, h.2 rfl⟩).post fun _ _ _ h => ⟨h.1, fun _ => h.2⟩

theorem cancelledOf_held (es : List Nat) : Fifo items (Held items) (cancelledOf es) fun _ => Held items := by
  induction es with
  | nil => exact Spec.pure fun _ _ h => h
  | cons e es ih =>
    refine Spec.keep_bind (call_held rfl rfl nofun) fun _ => ?_
    exact Spec.keep_bind ih fun _ => Spec.pure fun _ _ h => h

variable (items) in
/-- What is known when the flush is about to enter its `finally` block. -/
def Decided : Option FlushEnd → Locals → History → Prop
  | none, l, t => Held items l t
  | some .published, l, t => l.finalized = true ∧ Barrier items t ∧ ¬ t.Called .finish ∧ Released items t ∧ Committed items t
  | some .invalidated, l, t => l.finalized = true ∧ Barrier items t ∧ ¬ t.Called .finish ∧ Released items t ∧ Withdrawn items t
  | some _, _, _ => False

theorem invalidate_decides (es : List Nat) :
    Fifo items (fun l t => Held items l t ∧ Released items t) (invalidate es) (Decided items) := by
  refine Spec.post (Q := fun r l t => r.elim (Held items l t) (fun end' => end' = .invalidated ∧ l.finalized = true ∧
    Barrier items t ∧ ¬ t.Called .finish ∧ Withdrawn items t) ∧ Released items t) (Spec.frame ?_ fun _ _ h => h.cons) ?_
  · refine Spec.bind rollbackWrites_held (fun _ => ?_) fun _ _ h => h
    refine Spec.bind (cancelledOf_held es) (fun cancelled => ?_) fun _ _ h => h
    refine Spec.bind (call_held rfl rfl nofun) (fun _ => ?_) fun _ _ h => h
    refine Spec.bind rollbackOffers_withdrawn (fun _ => ?_) fun _ _ h => h.1
    refine Spec.bind (releaseDeferred_withdrawn.pre fun _ _ h => ⟨h.1, h.2 rfl⟩) (fun _ => ?_) fun _ _ h => h.1
    refine Spec.bind (Q := fun r l t => r = some () ∧ l.finalized = true ∧ Barrier items t ∧ ¬ t.Called .finish ∧
      Withdrawn items t) (Spec.modify fun l t h => ?_) (fun _ => Spec.pure fun _ _ h => ⟨rfl, h.2⟩) nofun
    exact ⟨rfl, rfl, h.1.barrier, h.1.unfinished, h.2⟩
  · rintro (_ | end') l t ⟨h, hreleased⟩
    · exact h
    · obtain ⟨rfl, hfinal, hbarrier, hopen, hwithdrawn⟩ := h
      exact ⟨hfinal, hbarrier, hopen, hreleased, hwithdrawn⟩

variable (items) in
/-- All due offers are committed. -/
def Through (n : Nat) (l : Locals) (t : History) : Prop :=
  Lane items n n l t ∧ ∀ e ∈ l.commitOffers, t.Returned (.commitOffer e)

theorem through_stable (l : Locals) (event : Event Call Reply) (t : History)
    (h : ∀ e ∈ l.commitOffers, t.Returned (.commitOffer e)) : ∀ e ∈ l.commitOffers, Trace.Returned (event :: t) (.commitOffer e) :=
  fun e he => (h e he).cons event

theorem Through.steady : Steady items (Through items n) := Lane.steady.and fun _ _ _ _ h _ => through_stable _ _ _ h

theorem commitWrites_lane {v : Locals} :
    Fifo items (fun l t => l = v ∧ Lane items n n l t) (Code.each (fun e => call (.commitWrite e)) v.pendingWrites)
      fun _ l t => l = v ∧ Lane items n n l t := by
  refine Spec.keep_each fun e he => Spec.call ?_
  rintro l t r ⟨rfl, h⟩ -
  have hnext : Lane items n n l (⟨.commitWrite e, r⟩ :: t) :=
    h.cons (fun e' he' => Option.some.inj he' ▸ h.writes e he) (fun id hid => by cases hid) rfl nofun rfl nofun nofun
  exact ⟨hnext.barrier, rfl, hnext⟩

theorem commitOffers_through {v : Locals} :
    Fifo items (fun l t => l = v ∧ Lane items n n l t) (Code.each (fun e => call (.commitOffer e)) v.commitOffers)
      fun r l t => r.elim (Held items l t) fun _ => Through items n l t := by
  refine (Spec.each_collect (I := fun l t => l = v ∧ Lane items n n l t) (F := fun e t => t.Returned (.commitOffer e))
    (fun e event t h => h.cons event) fun e he => Spec.call ?_).post ?_
  · rintro l t r ⟨rfl, h⟩ -
    have hdue := h.commits e he
    have hnext := h.commit (r := r) (hdue.2.2.2.2.mono (Nat.le_succ e)) fun _ => he
    exact ⟨hnext.barrier, ⟨rfl, hnext⟩, fun hr => ⟨_, .head _, rfl, by rw [hr]; rfl⟩⟩
  · rintro (_ | _) l t ⟨⟨rfl, h⟩, hall⟩
    · exact h.toHeld
    · exact ⟨h, hall rfl⟩

theorem finish_through (type : ResultType) :
    Fifo items (Through items n) ((writerOptions peerId type).finish) fun _ => Through items n := by
  have hflush : Fifo items (Through items n) ((writerOptions peerId type).flush .finish) fun _ => Through items n := by
    refine Spec.get fun v => Spec.ite (fun _ => Spec.pure fun _ _ h => h.2) fun _ => ?_
    have hframe : (writerOptions peerId type).frameFor ((writerOptions peerId type).writer v).ids =
        ⟨type, (v.writer type).ids⟩ := by
      rw [writer_eq]
      cases type <;> rfl
    rw [hframe]
    refine Spec.bind ((publish_lane (n := n) (k := n) through_stable).pre ?_) (fun sent => ?_) fun _ _ h => h
    · rintro l t ⟨rfl, h⟩
      exact ⟨h.1.chunks type, h⟩
    · refine Spec.bind (Q := fun _ => Through items n) (Spec.modify fun l t h => ?_) (fun _ => Spec.pure fun _ _ h => h)
        fun _ _ h => h
      refine ⟨put_lane _ _ h.1 nofun, fun e he => h.2 e ?_⟩
      cases type <;> exact he
  refine Spec.keep_bind hflush fun _ => ?_
  exact Spec.get fun _ => Spec.pure fun _ _ h => h.2

theorem publish_decides :
    Fifo items (Lane items items.length items.length) (publish peerId) (Decided items) := by
  refine Spec.get fun v => ?_
  refine Spec.bind (commitWrites_lane.pre fun _ _ h => h) (fun _ => ?_) fun _ _ h => h.2.toHeld
  refine Spec.bind commitOffers_through (fun _ => ?_) fun _ _ h => h
  refine Spec.bind (finish_through .ack) (fun _ => ?_) fun _ _ h => h.1.toHeld
  refine Spec.bind (finish_through .inboundRejected) (fun _ => ?_) fun _ _ h => h.1.toHeld
  have hrelease : Fifo items (Through items items.length) releaseDeferred fun _ => Through items items.length :=
    Spec.get fun _ => (Spec.keep_each fun _ _ => call_steady Through.steady rfl).pre fun _ _ h => h.2
  refine Spec.bind hrelease (fun _ => ?_) fun _ _ h => h.1.toHeld
  refine Spec.bind (Q := fun r l t => r = some () ∧ Decided items (some .published) l t) (Spec.modify fun l t h => ?_)
    (fun _ => Spec.pure fun _ _ h => h.2) nofun
  exact ⟨rfl, rfl, h.1.barrier, h.1.unfinished, h.1.released, h.1.committed_all h.2⟩

theorem isInvalidated_steady {I : Locals → History → Prop} (hI : Steady items I) (es : List Nat) :
    Fifo items I (isInvalidated es) fun _ => I := by
  refine Spec.keep_bind (call_steady hI rfl) fun running => Spec.ite (fun _ => ?_) fun _ => ?_
  · refine Spec.anyOf fun _ _ => Spec.keep_bind (call_steady hI rfl) fun _ => ?_
    exact Spec.pure fun _ _ h => h
  · exact Spec.pure fun _ _ h => h

theorem arbitrate_decides : Fifo items (Lane items 0 0) (arbitrate peerId items) (Decided items) := by
  refine Spec.bind (loop_turned rfl) (fun _ => ?_) fun _ _ h => h
  refine Spec.bind (isInvalidated_steady Lane.steady _) (fun gone => ?_) fun _ _ h => h.toHeld
  refine Spec.ite (fun _ => ?_) fun _ => publish_decides
  exact (invalidate_decides _).pre fun _ _ h => ⟨h.toHeld, h.released⟩

theorem Withdrawn.finish {r : Option Unit} (h : Withdrawn items t) :
    ∀ e ∈ attached (⟨.finish, r⟩ :: t : History), ¬ Carries items e := by
  intro e he hcarries
  obtain ⟨-, hoffered, -, hkept⟩ := mem_attached.mp he
  exact hkept (Trace.called_cons.mpr (.inr (h e hoffered hcarries)))

theorem unfinished_attaches (h : ¬ t.Called .finish) : ∀ e ∈ attached t, ¬ Carries items e :=
  fun _ he => absurd (Trace.Returned.called (mem_attached.mp he).1) h

theorem threw_attaches (h : ¬ t.Called .finish) : ∀ e ∈ attached (⟨.finish, none⟩ :: t : History), ¬ Carries items e :=
  fun _ he => absurd (mem_attached.mp he).1 (not_returned_finish h)

theorem conclude_threw :
    Fifo items (Held items) conclude fun _ _ t => ∀ e ∈ attached t, ¬ Carries items e := by
  refine Spec.get fun v => Spec.ite (fun hfinal => ?_) fun _ => ?_
  · rintro l t ⟨rfl, h⟩
    rw [h.undecided] at hfinal
    cases hfinal
  refine Spec.bind (rollbackBatch_withdrawn.pre fun _ _ h => h.2) (fun _ => ?_) fun _ _ h => unfinished_attaches h.1.unfinished
  exact Spec.call fun l t r h _ => ⟨h.1.barrier.finish, Withdrawn.finish (h.2 rfl)⟩

/-- When the batch has been decided only the lease is finished. -/
theorem conclude_decided {F G : History → Prop} (hfinish : ∀ t, F t → G (⟨.finish, some ()⟩ :: t)) :
    Fifo items (fun l t => l.finalized = true ∧ Barrier items t ∧ ¬ t.Called .finish ∧ F t) conclude fun q _ t =>
      q.elim (∀ e ∈ attached t, ¬ Carries items e) fun _ => G t := by
  refine Spec.get fun v => Spec.ite (fun _ => Spec.call ?_) fun hopen => ?_
  · rintro l t r ⟨-, -, hbarrier, hunfinished, hF⟩ -
    refine ⟨hbarrier.finish, ?_⟩
    cases r with
    | none => exact threw_attaches hunfinished
    | some _ => exact hfinish t hF
  · rintro l t ⟨rfl, hfinal, -⟩
    exact absurd hfinal hopen

theorem conclude_concludes (r : Option FlushEnd) :
    Fifo items (Decided items r) conclude fun q _ t => Concludes items (q.bind fun _ => r) t := by
  match r with
  | none =>
    refine conclude_threw.post fun q l t h => ?_
    cases q <;> exact h
  | some .published =>
    refine (conclude_decided (G := fun t => Released items t ∧ Exact items t) fun t h => ⟨h.1.cons, h.2.finish⟩).post ?_
    intro q l t h
    cases q <;> exact h
  | some .invalidated =>
    refine (conclude_decided (G := fun t => Released items t ∧ ∀ e ∈ attached t, ¬ Carries items e)
      fun t h => ⟨h.1.cons, Withdrawn.finish h.2⟩).post ?_
    intro q l t h
    cases q <;> exact h
  | some .inactive => exact fun _ _ h => h.elim
  | some .nothing => exact fun _ _ h => h.elim

theorem createWriter_lane : Fifo items (Lane items n k) createWriter fun r l t =>
    Lane items n k l t ∧ ∀ w, r = some w → w.ids = [] := by
  refine Spec.bind (call_steady Lane.steady rfl) (fun limit => ?_) fun _ _ h => ⟨h, nofun⟩
  cases chunkLimits none none limit with
  | none => exact Spec.throw fun _ _ h => ⟨h, nofun⟩
  | some limits =>
    refine Spec.pure fun _ _ h => ⟨h, fun w hw => ?_⟩
    rw [← Option.some.inj hw]
    rfl

theorem onFlush_ends :
    Fifo items (Lane items 0 0) (onFlush items) fun r _ t => Concludes items r t := by
  have hthrow (l : Locals) (t : History) (h : Lane items 0 0 l t) : Concludes items none t := unfinished_attaches h.unfinished
  refine Spec.bind (call_steady Lane.steady rfl) (fun running => ?_) hthrow
  refine Spec.ite (fun _ => ?_) fun _ => Spec.pure fun _ _ h => unfinished_attaches h.unfinished
  match items with
  | [] => exact Spec.pure fun _ _ h => unfinished_attaches h.unfinished
  | anchor :: rest =>
    refine Spec.bind (call_steady Lane.steady rfl) (fun _ => ?_) hthrow
    refine Spec.bind createWriter_lane (fun w => ?_) fun l t h => hthrow l t h.1
    refine Spec.bind (Q := fun _ => Lane (anchor :: rest) 0 0) (Spec.modify fun l t h => ?_) (fun _ => ?_) hthrow
    · exact put_lane "" .ack h.1 (by rw [h.2 w rfl]; nofun)
    refine Spec.bind createWriter_lane (fun w => ?_) fun l t h => hthrow l t h.1
    refine Spec.bind (Q := fun _ => Lane (anchor :: rest) 0 0) (Spec.modify fun l t h => ?_) (fun _ => ?_) hthrow
    · exact put_lane "" .inboundRejected h.1 (by rw [h.2 w rfl]; nofun)
    exact Spec.tryFinally arbitrate_decides conclude_concludes

end Flush

theorem Lane.start : Lane items 0 0 .create [] where
  barrier _ hc := by obtain ⟨_, he, _⟩ := hc; cases he
  held _ he := by cases he
  rolled _ he := by cases he
  unfinished hc := by obtain ⟨_, he, _⟩ := hc; cases he
  undecided := rfl
  clear _ := nofun
  released _ he := absurd he (Nat.not_lt_zero _)
  chunks type _ hid := by cases type <;> cases hid
  writes _ he := by cases he
  fresh _ he := by cases he
  sorted := .nil
  undone _ he := by rcases he with ⟨_, he, _⟩ | ⟨_, he, _⟩ <;> cases he
  bare _ he := by cases he
  carried _ he := by cases he
  commits _ he := by cases he
  committed _ hc := by obtain ⟨_, he, _⟩ := hc; cases he
  unrecorded _ hrec := by obtain ⟨_, hr, _⟩ := hrec; cases hr

/-- Behind an entry that is left unclassified nothing is done about any entry, and it is released. The dispatcher gets the
accepted entries before it, in order, if the batch is published, and otherwise none that carries an id. -/
theorem flush_disposes_in_order (items : List IngressDedupeItem) {c : Config Call Reply (Option FlushEnd × Locals)}
    (h : Reached Config.step (Config.start (onFlush items)) c) :
    Barrier items c.trace ∧ ∀ r l, c.prog = .done (r, l) → Concludes items r c.trace := by
  have hsafe : (onFlush items).Safe (fun _ _ => True) (Barrier items) (fun r => Concludes items r.1) [] :=
    Flush.onFlush_ends _ _ Lane.start
  obtain ⟨hbarrier, hrest⟩ := hsafe.reached Lane.start.barrier h
  refine ⟨hbarrier, fun r l hend => ?_⟩
  rw [hend] at hrest
  exact hrest

def wasPublished (c : Config Call Reply (Option FlushEnd × Locals)) : Bool :=
  match c.prog with
  | .done (some .published, _) => true
  | _ => false

theorem done_of_wasPublished {c : Config Call Reply (Option FlushEnd × Locals)} (h : wasPublished c = true) :
    ∃ l, c.prog = .done (some .published, l) := by
  unfold wasPublished at h
  split at h
  · rename_i l hl
    exact ⟨l, hl⟩
  · cases h

theorem flush_disposes_in_order_one_entry :
    ∃ c : Config Call Reply (Option FlushEnd × Locals),
      attached c.trace = [0] ∧ ∃ l, c.prog = .done (some .published, l) ∧ Concludes [⟨"p", some "a"⟩] (some .published) c.trace := by
  have hrun : (exec Config.step (Config.start (onFlush [⟨"p", some "a"⟩]))
      (opened 28 ++ notFound 0 "p:a" ++ admitted 0 "p:a" ["a"] 26 ++
        [answered .isActive true, answered (.entryIsActive 0) true, answered (.commitWrite 0) (),
          answered (.commitOffer 0) (), answered (.sendAck .finish "p" ["a"]) true, answered .finish ()])).map
      (fun c => wasPublished c && decide (attached c.trace = [0])) = some true := by decide +kernel
  obtain ⟨c, hc, hp⟩ := exists_reached_of_exec hrun
  obtain ⟨hend, hp⟩ := Bool.and_eq_true_iff.mp hp
  obtain ⟨l, hl⟩ := done_of_wasPublished hend
  exact ⟨c, of_decide_eq_true hp, l, hl, (flush_disposes_in_order _ hc).2 _ _ hl⟩

/-- The first entry is admitted, and the second is cancelled while it is looked up: although the first was accepted before
the barrier, it is not attached. -/
theorem flush_disposes_in_order_attaches_prefix_fails :
    ∃ c, Reached Config.step (Config.start (onFlush [⟨"p", some "a"⟩, ⟨"p", some "b"⟩])) c ∧
      wasInvalidated c = true ∧ Carries [⟨"p", some "a"⟩, ⟨"p", some "b"⟩] 1 ∧ ¬ Classified c.trace 1 ∧
      0 ∈ offers c.trace ∧ Clear [⟨"p", some "a"⟩, ⟨"p", some "b"⟩] c.trace 1 ∧ attached c.trace = [] := by
  have hrun : (exec Config.step (Config.start (onFlush [⟨"p", some "a"⟩, ⟨"p", some "b"⟩]))
      (opened 28 ++ notFound 0 "p:a" ++ admitted 0 "p:a" ["a"] 26 ++ notFound 1 "p:b" ++
        [answered .isActive true, answered (.entryIsActive 1) false, answered (.requestRelease 1) (),
          answered .isActive true, answered (.entryIsActive 0) true, answered (.entryIsActive 1) false,
          answered (.rollbackWrite 0) (), answered (.isCancellationRequested 0) false,
          answered (.isCancellationRequested 1) true, answered (.waitForCancellation [1]) (),
          answered (.rollbackOffer 0) (), answered .finish ()])).map
      (fun c => wasInvalidated c && decide (Carries [⟨"p", some "a"⟩, ⟨"p", some "b"⟩] 1 ∧ ¬ Classified c.trace 1 ∧
        0 ∈ offers c.trace ∧ Clear [⟨"p", some "a"⟩, ⟨"p", some "b"⟩] c.trace 1 ∧ attached c.trace = [])) =
      some true := by decide +kernel
  obtain ⟨c, hc, hp⟩ := exists_reached_of_exec hrun
  obtain ⟨hend, hp⟩ := Bool.and_eq_true_iff.mp hp
  exact ⟨c, hc, hend, of_decide_eq_true hp⟩

end Webchannel.Ingress
