import Webchannel.Lib.Runs
import Webchannel.Outcome.Invariant

/-!
# Rollbacks and the quarantine

Along every run of the outcome store: one operation at a time for each account and key, a
rollback deletes only what its own record created, and a marker that a rollback failed to
delete is not reported again before a call has deleted it.
-/

namespace Webchannel.Outcome

/-- The marker whose `forget` an operation is waiting for. -/
def Op.deleting (op : Op) : Option IngressOutcome :=
  match op.point, op.kind with
  | .recovering recovery, _ => some recovery.outcome
  | .droppingDual, _ => some .accepted
  | .replacing, .record outcome _ => some outcome.opposite
  | .undoing, .record outcome _ => some outcome
  | .forgetting, .forget outcome => some outcome
  | _, _ => none

namespace OutcomeStore

variable {w w' : OutcomeStore} {i j : Nat} {op op' : Op} {a : Action}

/-! ### What becomes of an operation in one step -/

structure Evolves (poisoned : Bool) (op op' : Op) : Prop where
  kind : op'.kind = op.kind
  waiting : op.point = .waiting → poisoned = true →
    op'.point = .done (Kind.unknown .rollbackRecoveryPoisoned op.kind) ∧ op'.receipt = op.receipt
  found : ∀ o, op'.point = .done (.lookup (.found o)) →
    op.point = op'.point ∨ op.point.working = true
  done : ∀ reply, op.point = .done reply → op'.point = op.point ∧
    (op.receipt = none → op'.receipt = none)
  settled : ∀ r, op.receipt = some r → r.settled = true →
    ∃ r', op'.receipt = some r' ∧ r'.settled = true

/-- An operation between its recovery and its return may do anything but wait. -/
theorem Evolves.of_working {poisoned : Bool} (hw : op.point.working = true)
    (hr : op.receipt = none) (hkind : op'.kind = op.kind) : Evolves poisoned op op' := by
  refine ⟨hkind, ?_, fun _ _ => .inr hw, ?_, ?_⟩
  · intro h
    rw [h] at hw
    cases hw
  · intro reply h
    rw [h] at hw
    cases hw
  · intro r h
    rw [hr] at h
    cases h

/-- Only the hot cache and the warnings differ. -/
def CacheOnly (w w' : OutcomeStore) : Prop :=
  ∃ hot total warnings, w' = { w with hot := hot, totalHotBytes := total, warnings := warnings }

theorem CacheOnly.refl (w : OutcomeStore) : CacheOnly w w :=
  ⟨w.hot, w.totalHotBytes, w.warnings, rfl⟩

theorem CacheOnly.warn (w : OutcomeStore) (a : String) (c : IngressOutcomeFailureCategory) :
    CacheOnly w (w.warn a c) := ⟨w.hot, w.totalHotBytes, _, rfl⟩

theorem CacheOnly.deleteHot (w : OutcomeStore) (a k : String) (o : Option IngressOutcome) :
    CacheOnly w (w.deleteHot a k o) := by
  obtain ⟨hot, total, h⟩ := w.deleteHot_eq a k o
  exact ⟨hot, total, w.warnings, h⟩

theorem CacheOnly.putHot (w : OutcomeStore) (a k : String) (o : IngressOutcome) (d : Durability) :
    CacheOnly w (w.putHot a k o d) := by
  obtain ⟨hot, total, h⟩ := w.putHot_eq a k o d
  exact ⟨hot, total, w.warnings, h⟩

/-- The step moves operation `i` and leaves the quarantine as it is. -/
structure Moves (w w' : OutcomeStore) (i : Nat) : Prop where
  ops : ∃ f : Op → Op, w'.ops = w.ops.update i f ∧ ∀ op, (f op).kind = op.kind
  leftBehind : w'.leftBehind = w.leftBehind
  poisoned : w'.rollbackRecoveryPoisoned = w.rollbackRecoveryPoisoned

theorem CacheOnly.goto (h : CacheOnly w w') (i : Nat) (p : Point) : Moves w (w'.goto i p) i := by
  obtain ⟨hot, total, warnings, rfl⟩ := h
  exact ⟨⟨_, rfl, fun _ => rfl⟩, rfl, rfl⟩

theorem CacheOnly.finish (h : CacheOnly w w') (i : Nat) (reply : Reply) :
    Moves w (w'.finish i reply) i := by
  obtain ⟨hot, total, warnings, rfl⟩ := h
  exact ⟨⟨_, rfl, fun _ => rfl⟩, rfl, rfl⟩

theorem CacheOnly.receive (h : CacheOnly w w') (i : Nat) (op : Op) (o : IngressOutcome)
    (fresh diskError : Bool) : Moves w (w'.receive i op o fresh diskError) i := by
  obtain ⟨hot, total, warnings, rfl⟩ := h
  exact ⟨⟨_, rfl, fun _ => rfl⟩, rfl, rfl⟩

theorem recorded_moves (w : OutcomeStore) (i : Nat) (op : Op) (o : IngressOutcome)
    (answer : Answer) : Moves w (w.recorded i op o answer) i := by
  match answer, o with
  | .threw, _ => exact (CacheOnly.warn ..).finish i _
  | .returned _ false, _ => exact (CacheOnly.refl w).receive i ..
  | .returned _ true, .overloaded => exact (CacheOnly.warn ..).goto i _
  | .returned _ true, .accepted => exact (CacheOnly.warn ..).receive i ..

theorem replaced_moves (w : OutcomeStore) (i : Nat) (op : Op) (o : IngressOutcome)
    (answer : Answer) : Moves w (w.replaced i op o answer) i := by
  match answer with
  | .threw => exact (CacheOnly.warn ..).finish i _
  | .returned _ true => exact (CacheOnly.warn ..).finish i _
  | .returned _ false => exact (CacheOnly.deleteHot ..).goto i _

theorem resume_moves (w : OutcomeStore) (i : Nat) (op : Op) : Moves w (w.resume i op) i := by
  unfold resume
  split
  · exact (CacheOnly.refl w).goto i _
  · exact (CacheOnly.refl w).goto i _
  · exact (CacheOnly.refl w).goto i _
  · exact (CacheOnly.deleteHot ..).goto i _

theorem resumeWith_moves (h : w.Inv) (hop : w.ops.get i = some op)
    (hw : op.point.working = true) {answer : Answer}
    (hs : w.resumeWith i op answer = some w') : Moves w w' i := by
  have hdeleted (o : IngressOutcome) : w.deleted op.accountId op.key o answer = w :=
    (h.clean_of_working hop hw).deleted o answer
  unfold resumeWith at hs
  simp only [hdeleted] at hs
  split at hs
  · simp_all [Point.working]
  · obtain rfl := Option.some.inj hs
    split
    · exact (CacheOnly.warn ..).finish i _
    · exact (CacheOnly.refl w).goto i _
    · exact (CacheOnly.warn ..).finish i _
    · exact (CacheOnly.refl w).goto i _
  · obtain rfl := Option.some.inj hs
    split
    · exact CacheOnly.goto ⟨_, _, _, rfl⟩ i _
    · exact (CacheOnly.putHot ..).finish i _
  · obtain rfl := Option.some.inj hs
    exact (CacheOnly.putHot ..).finish i _
  · obtain rfl := Option.some.inj hs
    split
    · exact (CacheOnly.warn ..).finish i _
    · exact (CacheOnly.putHot ..).finish i _
    · exact (CacheOnly.warn ..).finish i _
    · exact (CacheOnly.refl w).finish i _
  · obtain rfl := Option.some.inj hs
    exact w.replaced_moves i op _ answer
  · obtain rfl := Option.some.inj hs
    exact w.recorded_moves i op _ answer
  · obtain rfl := Option.some.inj hs
    exact (CacheOnly.deleteHot ..).finish i _
  · obtain rfl := Option.some.inj hs
    exact (CacheOnly.refl w).finish i _
  · cases hs

/-- What one step can do to the operations and to the history. -/
structure Stepped (w : OutcomeStore) (a : Action) (w' : OutcomeStore) : Prop where
  ops : (∃ op : Op, w'.ops = w.ops.alloc op ∧ op.point = .waiting ∧ op.receipt = none) ∨
    ∃ i f, w'.ops = w.ops.update i f ∧
      ∀ op, w.ops.get i = some op → Evolves w.rollbackRecoveryPoisoned op (f op)
  poisoned : w.rollbackRecoveryPoisoned = true → w'.rollbackRecoveryPoisoned = true
  leftBehind : ∀ x ∈ w.leftBehind, x ∈ w'.leftBehind ∨
    ∃ i op v, a = .answer i (.returned v false) ∧ w.ops.get i = some op ∧
      op.accountId = x.1 ∧ op.key = x.2.1 ∧ op.deleting = some x.2.2

theorem Moves.stepped (h : Moves w w' i)
    (hop : ∀ op op', w.ops.get i = some op → op'.kind = op.kind →
      Evolves w.rollbackRecoveryPoisoned op op') : Stepped w a w' := by
  obtain ⟨f, hops, hkind⟩ := h.ops
  refine ⟨.inr ⟨i, f, hops, fun op hget => hop op _ hget (hkind op)⟩, ?_, ?_⟩
  · exact fun hp => h.poisoned.trans hp
  · exact fun x hx => .inl (h.leftBehind ▸ hx)

theorem stepped_of_ops_eq (hops : w'.ops = w.ops) (hleft : w'.leftBehind = w.leftBehind)
    (hp : w'.rollbackRecoveryPoisoned = w.rollbackRecoveryPoisoned) : Stepped w a w' := by
  refine ⟨.inr ⟨w.ops.next, id, ?_, ?_⟩, fun h => hp.trans h, fun x hx => .inl (hleft ▸ hx)⟩
  · rw [hops]
    exact (Heap.update_eq_self fun _ _ => rfl).symm
  · intro op hop
    rw [Heap.get_next] at hop
    cases hop

theorem enter_stepped (hop : w.ops.get i = some op) (hwait : op.point = .waiting)
    (g : Gate String) : Stepped w a (OutcomeStore.enter { w with operationTails := g } i op) := by
  have hsettled : ∀ r, op.receipt = some r → r.settled = true →
      ∃ r', op.receipt = some r' ∧ r'.settled = true := fun r hr hs => ⟨r, hr, hs⟩
  have hdone {p : Prop} : ∀ reply, op.point = .done reply → p := by simp [hwait]
  unfold OutcomeStore.enter
  split
  · refine ⟨.inr ⟨i, _, rfl, fun u hu => ?_⟩, id, fun x hx => .inl hx⟩
    obtain rfl := Option.some.inj (hop.symm.trans hu)
    refine ⟨rfl, fun _ _ => ⟨rfl, rfl⟩, ?_, fun r => hdone r, hsettled⟩
    intro o ho
    cases hk : op.kind <;> simp [Kind.unknown, hk] at ho
  · rename_i hp
    split
    · refine ⟨.inr ⟨i, _, rfl, fun u hu => ?_⟩, id, fun x hx => .inl hx⟩
      obtain rfl := Option.some.inj (hop.symm.trans hu)
      exact ⟨rfl, fun _ h => absurd h hp, fun _ h => (by cases h), fun r => hdone r, hsettled⟩
    · refine ⟨.inr ⟨i, _, rfl, fun u hu => ?_⟩, id, fun x hx => .inl hx⟩
      obtain rfl := Option.some.inj (hop.symm.trans hu)
      exact ⟨rfl, fun _ h => absurd h hp, fun _ h => (by cases h), fun r => hdone r, hsettled⟩

theorem recover_stepped (hop : w.ops.get i = some op) {recovery : HotEntry}
    (hp : op.point = .recovering recovery) (answer : Answer) :
    Stepped w (.answer i answer) (w.recover i op recovery answer) := by
  have hevolves {p : Point} (hfound : ∀ o, p ≠ .done (.lookup (.found o))) (u : Op)
      (hu : w.ops.get i = some u) :
      Evolves w.rollbackRecoveryPoisoned u { u with point := p } := by
    obtain rfl := Option.some.inj (hop.symm.trans hu)
    refine ⟨rfl, ?_, fun o ho => absurd ho (hfound o), ?_, fun r hr hs => ⟨r, hr, hs⟩⟩
    · simp [hp]
    · simp [hp]
  have hunknown (error : OutcomeError) (o : IngressOutcome) :
      Point.done (Kind.unknown error op.kind) ≠ .done (.lookup (.found o)) := by
    cases hk : op.kind <;> simp [Kind.unknown]
  obtain _ | ⟨v, _ | _⟩ := answer
  case threw => exact ⟨.inr ⟨i, _, rfl, hevolves (hunknown _)⟩, id, fun x hx => .inl hx⟩
  case returned.true => exact ⟨.inr ⟨i, _, rfl, hevolves (hunknown _)⟩, id, fun x hx => .inl hx⟩
  case returned.false =>
    unfold OutcomeStore.recover
    dsimp only
    obtain ⟨hot, total, heq⟩ := deleteHot_eq { w with
      rollbackRecovery := w.rollbackRecovery.delete (hotKey op.accountId op.key)
      totalRollbackRecoveryBytes := w.totalRollbackRecoveryBytes - recovery.bytes }
      op.accountId op.key (some recovery.outcome)
    rw [heq]
    refine ⟨.inr ⟨i, _, rfl, hevolves fun o h => by cases h⟩, id, ?_⟩
    intro x hx
    by_cases hne : x = (op.accountId, op.key, recovery.outcome)
    · subst hne
      exact .inr ⟨i, op, v, rfl, hop, rfl, rfl, by rw [Op.deleting, hp]⟩
    · exact .inl (List.mem_filter.mpr ⟨hx, decide_eq_true hne⟩)

theorem updateReceipt_stepped (h : w.Inv) (hop : w.ops.get i = some op) {r : Receipt}
    (hr : op.receipt = some r) (g : Receipt → Receipt)
    (hg : r.settled = true → (g r).settled = true) (hops : w'.ops = (w.updateReceipt i g).ops)
    (hp : w.rollbackRecoveryPoisoned = true → w'.rollbackRecoveryPoisoned = true)
    (hleft : ∀ x ∈ w.leftBehind, x ∈ w'.leftBehind) : Stepped w a w' := by
  have hdone := ((h.wellFormed i op hop).receipt r hr).1
  refine ⟨.inr ⟨i, _, hops, fun u hu => ?_⟩, hp, fun x hx => .inl (hleft x hx)⟩
  obtain rfl := Option.some.inj (hop.symm.trans hu)
  refine ⟨rfl, ?_, fun _ _ => .inl rfl, ?_, ?_⟩
  · simp [hdone]
  · simp [hr]
  · intro r' hr' hs
    obtain rfl := Option.some.inj (hr.symm.trans hr')
    exact ⟨g r, by rw [hr, Option.map_some], hg hs⟩

theorem commit_stepped (h : w.Inv) (hop : w.ops.get i = some op) {r : Receipt}
    (hr : op.receipt = some r) : Stepped w a (w.commit i op r) := by
  unfold commit
  split
  · exact stepped_of_ops_eq rfl rfl rfl
  · obtain ⟨hot, total, heq⟩ := (w.updateReceipt i ({ · with settled := true })).putHot_eq
      op.accountId op.key r.outcome r.durability
    dsimp only
    rw [heq]
    exact updateReceipt_stepped h hop hr _ (fun _ => rfl) rfl id fun _ => id

theorem rollback_stepped (h : w.Inv) (hop : w.ops.get i = some op) {r : Receipt}
    (hr : op.receipt = some r) : Stepped w a (w.rollback i r).2 := by
  unfold rollback
  split
  · exact stepped_of_ops_eq rfl rfl rfl
  · split
    · exact updateReceipt_stepped h hop hr _ (fun _ => rfl) rfl id fun _ => id
    · exact updateReceipt_stepped h hop hr _ (fun _ => rfl) rfl id fun _ => id

theorem clean_of_rollingBack (h : w.Inv) (hop : w.ops.get i = some op) {r : Receipt}
    (hr : op.receipt = some r) (hroll : r.rollingBack = true) : w.Clean op := by
  have hwf := h.wellFormed i op hop
  refine h.clean i op hop ?_ (by simp [(hwf.receipt r hr).1])
  rw [busy_of_receipt hwf hr, Receipt.pending, hroll, Bool.or_true]

theorem rolledBack_stepped (h : w.Inv) (hop : w.ops.get i = some op) {r : Receipt}
    (hr : op.receipt = some r) (hroll : r.rollingBack = true) (answer : Answer) :
    Stepped w a (w.rolledBack i op r answer).2 := by
  have hclean := clean_of_rollingBack h hop hr hroll
  by_cases ha : ∃ v, answer = .returned v false
  · obtain ⟨v, rfl⟩ := ha
    obtain ⟨hot, total, heq⟩ := w.deleteHot_eq op.accountId op.key (some r.outcome)
    have hhas : w.rollbackRecovery.has (hotKey op.accountId op.key) = false :=
      OrderedMap.has_eq_false_iff.mpr hclean.1
    unfold rolledBack
    dsimp only
    rw [hclean.deleted, hhas, heq]
    exact updateReceipt_stepped h hop hr _ id rfl id fun _ => id
  · obtain ⟨hot, total, warnings, recovery, bytes, poisoned, heq, -, hpoison, -⟩ :=
      w.rolledBack_failed_eq i op r (fun v hv => ha ⟨v, hv⟩) hclean.1
    rw [heq]
    exact updateReceipt_stepped h hop hr _ id rfl hpoison fun x hx => List.mem_append_left _ hx

theorem working_or_recovering {answer : Answer} (hs : w.resumeWith i op answer = some w') :
    op.point.working = true ∨ ∃ recovery, op.point = .recovering recovery ∧
      w' = w.recover i op recovery answer := by
  unfold resumeWith at hs
  split at hs
  · exact .inr ⟨_, ‹_›, (Option.some.inj hs).symm⟩
  · exact .inl (by simp only [*, Point.working])
  · exact .inl (by simp only [*, Point.working])
  · exact .inl (by simp only [*, Point.working])
  · exact .inl (by simp only [*, Point.working])
  · exact .inl (by simp only [*, Point.working])
  · exact .inl (by simp only [*, Point.working])
  · exact .inl (by simp only [*, Point.working])
  · exact .inl (by simp only [*, Point.working])
  · cases hs

theorem step_stepped (h : w.Inv) (hs : step w a = some w') : Stepped w a w' := by
  have hworking {i : Nat} {u : Op} (hu : w.ops.get i = some u) (hw : u.point.working = true) :
      ∀ op op', w.ops.get i = some op → op'.kind = op.kind →
        Evolves w.rollbackRecoveryPoisoned op op' := by
    intro op op' hop hkind
    obtain rfl := Option.some.inj (hu.symm.trans hop)
    exact .of_working hw (h.receipt_none_of_working hop hw) hkind
  cases a with
  | call accountId key kind =>
    obtain rfl := Option.some.inj hs
    exact ⟨.inl ⟨_, rfl, rfl, rfl⟩, id, fun _ => .inl⟩
  | enter i =>
    obtain ⟨op, hop, hs⟩ := Option.bind_eq_some_iff.mp hs
    obtain ⟨g, hg, hs⟩ := Option.bind_eq_some_iff.mp hs
    obtain rfl := Option.some.inj hs
    exact enter_stepped hop (h.entering hop hg).1 g
  | resume i =>
    obtain ⟨op, hop, hs⟩ := Option.bind_eq_some_iff.mp hs
    split at hs
    · rename_i hp
      obtain rfl := Option.some.inj hs
      exact (w.resume_moves i op).stepped (hworking hop (by rw [hp]; rfl))
    · cases hs
  | answer i answer =>
    obtain ⟨op, hop, hs⟩ := Option.bind_eq_some_iff.mp hs
    rcases working_or_recovering hs with hw | ⟨recovery, hp, rfl⟩
    · exact (resumeWith_moves h hop hw hs).stepped (hworking hop hw)
    · exact recover_stepped hop hp answer
  | commit i =>
    obtain ⟨op, hop, hs⟩ := Option.bind_eq_some_iff.mp hs
    obtain ⟨r, hr, hs⟩ := Option.bind_eq_some_iff.mp hs
    obtain rfl := Option.some.inj hs
    exact commit_stepped h hop hr
  | rollback i =>
    obtain ⟨op, hop, hs⟩ := Option.bind_eq_some_iff.mp hs
    obtain ⟨r, hr, hs⟩ := Option.bind_eq_some_iff.mp hs
    obtain rfl := Option.some.inj hs
    exact rollback_stepped h hop hr
  | rolledBack i answer =>
    obtain ⟨op, hop, hs⟩ := Option.bind_eq_some_iff.mp hs
    obtain ⟨r, hr, hs⟩ := Option.bind_eq_some_iff.mp hs
    split at hs
    · obtain rfl := Option.some.inj hs
      exact rolledBack_stepped h hop hr ‹_› answer
    · cases hs
  | settleTail i =>
    obtain ⟨g, -, hs⟩ := Option.bind_eq_some_iff.mp hs
    obtain rfl := Option.some.inj hs
    exact stepped_of_ops_eq rfl rfl rfl
  | forgetTail i =>
    obtain ⟨g, -, hs⟩ := Option.bind_eq_some_iff.mp hs
    obtain rfl := Option.some.inj hs
    exact stepped_of_ops_eq rfl rfl rfl

/-! ### Whole runs -/

open Runs

/-- An operation after the step is new, or untouched, or has evolved. -/
theorem Stepped.get (h : Stepped w a w') (hop' : w'.ops.get j = some op') :
    (w.ops.get j = none ∧ op'.point = .waiting ∧ op'.receipt = none) ∨
    ∃ op, w.ops.get j = some op ∧ (op' = op ∨ Evolves w.rollbackRecoveryPoisoned op op') := by
  rcases h.ops with ⟨u, hops, hp, hr⟩ | ⟨i, f, hops, hf⟩
  · rw [hops] at hop'
    rcases Heap.get_alloc_cases hop' with ⟨rfl, rfl⟩ | hold
    · exact .inl ⟨Heap.get_next _, hp, hr⟩
    · exact .inr ⟨op', hold, .inl rfl⟩
  · rw [hops] at hop'
    rcases Heap.get_update_cases hop' with ⟨rfl, u, hu, rfl⟩ | ⟨-, hold⟩
    · exact .inr ⟨u, hu, .inr (hf u hu)⟩
    · exact .inr ⟨op', hold, .inl rfl⟩

theorem Stepped.get_of_some (h : Stepped w a w') (hop : w.ops.get j = some op) :
    ∃ op', w'.ops.get j = some op' ∧ (op' = op ∨ Evolves w.rollbackRecoveryPoisoned op op') := by
  rcases h.ops with ⟨u, hops, -⟩ | ⟨i, f, hops, hf⟩
  · exact ⟨op, by rw [hops, Heap.get_alloc_of_some hop], .inl rfl⟩
  · rw [hops, Heap.get_update]
    split
    · rename_i hji
      subst hji
      rw [hop, Option.map_some]
      exact ⟨_, rfl, .inr (hf op hop)⟩
    · exact ⟨op, hop, .inl rfl⟩

theorem inv_reached (h : w.Inv) (hr : Reached step w w') : w'.Inv :=
  ReachedBy.invariant hr h fun _ _ _ hinv _ hs => hinv.step hs

/-- Receipt `i` has been committed or rolled back. -/
def Settled (w : OutcomeStore) (i : Nat) : Prop :=
  ∃ op r, w.ops.get i = some op ∧ op.receipt = some r ∧ r.settled = true

theorem Settled.reached (hs : Settled w i) (h : w.Inv) (hr : Reached step w w') :
    Settled w' i := by
  have hboth : w'.Inv ∧ Settled w' i := by
    refine ReachedBy.invariant (I := fun u => u.Inv ∧ Settled u i) hr ⟨h, hs⟩ ?_
    intro u a u' ⟨hu, op, r, hop, hrec, hset⟩ _ hstep
    refine ⟨hu.step hstep, ?_⟩
    obtain ⟨op', hop', rfl | hev⟩ := (step_stepped hu hstep).get_of_some hop
    · exact ⟨op', r, hop', hrec, hset⟩
    · obtain ⟨r', hr', hset'⟩ := hev.settled r hrec hset
      exact ⟨op', r', hop', hr', hset'⟩
  exact hboth.2

/-- Settling once more changes nothing. -/
theorem Settled.twice (hs : Settled w i) :
    step w (.commit i) = some w ∧ step w (.rollback i) = some w ∧
    ∃ op r, w.ops.get i = some op ∧ op.receipt = some r ∧ w.rollback i r = (some false, w) := by
  obtain ⟨op, r, hop, hr, hset⟩ := hs
  have hroll : w.rollback i r = (some false, w) := by rw [rollback, if_pos hset]
  refine ⟨?_, ?_, op, r, hop, hr, hroll⟩
  · simp [step, hop, hr, commit, hset]
  · simp [step, hop, hr, hroll]

/-- The operation has not been let in, or was turned away by the poisoned store. -/
def TurnedAway (op : Op) : Prop :=
  op.receipt = none ∧ (op.point = .waiting ∨
    op.point = .done (Kind.unknown .rollbackRecoveryPoisoned op.kind))

theorem TurnedAway.evolves (h : TurnedAway op) (hev : Evolves true op op') : TurnedAway op' := by
  obtain ⟨hnone, hw | hd⟩ := h
  · obtain ⟨hp, hr⟩ := hev.waiting hw rfl
    exact ⟨hr.trans hnone, .inr (by rw [hp, hev.kind])⟩
  · obtain ⟨hp, hr⟩ := hev.done _ hd
    exact ⟨hr hnone, .inr (by rw [hp, hd, hev.kind])⟩

/-- After the poisoning nobody is let in any more. -/
theorem turnedAway_reached (h : w.Inv) (hp : w.rollbackRecoveryPoisoned = true)
    (hr : Reached step w w') : w'.rollbackRecoveryPoisoned = true ∧
    ∀ i op', w'.ops.get i = some op' →
      (∀ op, w.ops.get i = some op → op.point = .waiting) → TurnedAway op' := by
  let P (u : OutcomeStore) : Prop := u.Inv ∧ u.rollbackRecoveryPoisoned = true ∧
    ∀ i op', u.ops.get i = some op' →
      (∀ op, w.ops.get i = some op → op.point = .waiting) → TurnedAway op'
  have hall : P w' := by
    refine ReachedBy.invariant hr ⟨h, hp, ?_⟩ ?_
    · intro i op hop hwait
      have hpoint := hwait op hop
      exact ⟨h.receipt_none hop (by simp [hpoint]), .inl hpoint⟩
    · intro u a u' ⟨hu, hpu, hall⟩ _ hstep
      have hstepped := step_stepped hu hstep
      refine ⟨hu.step hstep, hstepped.poisoned hpu, fun i op' hop' hwait => ?_⟩
      rcases hstepped.get hop' with ⟨-, hpoint, hnone⟩ | ⟨op, hop, rfl | hev⟩
      · exact ⟨hnone, .inl hpoint⟩
      · exact hall i op' hop hwait
      · rw [hpu] at hev
        exact (hall i op hop hwait).evolves hev
  exact hall.2

theorem peek_of_poisoned (hp : w.rollbackRecoveryPoisoned = true) (a k : String) :
    w.peek a k = none := by
  rw [peek, hp, Bool.true_or, if_pos rfl]

theorem Inv.peek_leftBehind (h : w.Inv) {a k : String} {o : IngressOutcome}
    (ho : (a, k, o) ∈ w.leftBehind) : w.peek a k = none := by
  rcases h.quarantined a k o ho with hp | ⟨e, he, -⟩
  · exact peek_of_poisoned hp a k
  · rw [peek, OrderedMap.has, he, Option.isSome_some, Bool.or_true, if_pos rfl]

/-- A lookup that comes back with a marker was clean when it did. -/
theorem found_clean (h : w.Inv) (hs : step w a = some w') (hop : w.ops.get i = some op)
    (hop' : w'.ops.get i = some op') {o : IngressOutcome}
    (hfound : op'.point = .done (.lookup (.found o))) (hnew : op.point ≠ op'.point) :
    w.Clean op := by
  rcases (step_stepped h hs).get hop' with ⟨hnone, -⟩ | ⟨u, hu, hsame⟩
  · rw [hop] at hnone
    cases hnone
  · obtain rfl := Option.some.inj (hop.symm.trans hu)
    rcases hsame with rfl | hev
    · exact absurd rfl hnew
    · exact h.clean_of_working hop ((hev.found o hfound).resolve_left hnew)

/-- What the outcome store promises in a state `w`. -/
structure Exact (w : OutcomeStore) : Prop where
  /-- Operations on one key never overlap. -/
  exclusive : ∀ i j op u, w.ops.get i = some op → w.ops.get j = some u →
    op.accountId = u.accountId → op.key = u.key → op.busy = true → u.busy = true → i = j
  /-- The gate is held exactly by the operation that is busy. -/
  gated : ∀ i op, w.ops.get i = some op → (w.operationTails.Inside i ↔ op.busy = true)
  /-- A record keeps it until its receipt has been committed or rolled back. -/
  kept : ∀ i op r, w.ops.get i = some op → op.receipt = some r →
    (op.busy = true ↔ r.settled = false ∨ r.rollingBack = true)
  /-- A rollback deletes only what its own record created. -/
  created : ∀ i ∈ w.rollbackDeletions, ∃ op r, w.ops.get i = some op ∧ op.receipt = some r ∧
    r.created = true
  /-- A rollback whose deletion fails leaves its marker behind. -/
  failed : ∀ i op r answer, w.ops.get i = some op → op.receipt = some r → r.rollingBack = true →
    (∀ v, answer ≠ .returned v false) →
    (op.accountId, op.key, r.outcome) ∈ (w.rolledBack i op r answer).2.leftBehind
  /-- It stays so until an operation on the key has deleted the marker. -/
  remains : ∀ a k o act w', (a, k, o) ∈ w.leftBehind → step w act = some w' →
    (a, k, o) ∈ w'.leftBehind ∨
    ∃ i op v, act = .answer i (.returned v false) ∧ w.ops.get i = some op ∧
      op.accountId = a ∧ op.key = k ∧ op.deleting = some o
  /-- Until then the key is not peeked at with success, and no lookup of it finds a marker. -/
  hidden : ∀ a k o, (a, k, o) ∈ w.leftBehind → w.peek a k = none ∧
    ∀ act w' i op op' o', step w act = some w' → w.ops.get i = some op →
      w'.ops.get i = some op' → op.accountId = a → op.key = k →
      op'.point = .done (.lookup (.found o')) → op.point = op'.point
  /-- Once poisoned, the store answers nothing any more. -/
  poisoned : w.rollbackRecoveryPoisoned = true → ∀ w', Reached step w w' →
    w'.rollbackRecoveryPoisoned = true ∧ (∀ a k, w'.peek a k = none) ∧
    ∀ i op', w'.ops.get i = some op' →
      (∀ op, w.ops.get i = some op → op.point = .waiting) → TurnedAway op'
  /-- Settling a receipt again has no effect, now and later. -/
  settledOnce : ∀ i, Settled w i → ∀ w', Reached step w w' →
    step w' (.commit i) = some w' ∧ step w' (.rollback i) = some w' ∧
    ∃ op r, w'.ops.get i = some op ∧ op.receipt = some r ∧ w'.rollback i r = (some false, w')

theorem Inv.gated (h : w.Inv) (hop : w.ops.get i = some op) :
    w.operationTails.Inside i ↔ op.busy = true := by
  refine ⟨fun hin => ?_, h.inside hop⟩
  obtain ⟨t, ht, -, hent, hrel⟩ := h.ticket i op hop
  obtain ⟨t', ht', he, hr⟩ := hin
  obtain rfl := Option.some.inj (ht.symm.trans ht')
  rw [Op.busy, ← hent, ← hrel, he, hr]
  rfl

theorem Inv.exact (h : w.Inv) : Exact w where
  exclusive i j op u hi hj ha hk hbi hbj :=
    h.alone hj hi hbj hbi (by rw [Op.gateKey, Op.gateKey, ha, hk])
  gated i op hop := h.gated hop
  kept i op r hop hr := by
    rw [busy_of_receipt (h.wellFormed i op hop) hr, Receipt.pending]
    simp
  created := h.deletions
  failed i op r answer hop hr hroll ha := by
    have hclean := clean_of_rollingBack h hop hr hroll
    obtain ⟨_, _, _, _, _, _, heq, -⟩ := w.rolledBack_failed_eq i op r ha hclean.1
    rw [heq]
    exact List.mem_append_right _ (List.mem_singleton.mpr rfl)
  remains a k o act w' ho hs := (step_stepped h hs).leftBehind (a, k, o) ho
  hidden a k o ho := by
    refine ⟨h.peek_leftBehind ho, ?_⟩
    rintro act w' i op op' o' hs hop hop' rfl rfl hfound
    by_contra hnew
    exact (found_clean h hs hop hop' hfound hnew).2 o ho
  poisoned hp w' hr := by
    obtain ⟨hp', hall⟩ := turnedAway_reached h hp hr
    exact ⟨hp', peek_of_poisoned hp', hall⟩
  settledOnce i hs w' hr := (hs.reached h hr).twice

end OutcomeStore

end Webchannel.Outcome
