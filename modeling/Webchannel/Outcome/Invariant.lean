import Webchannel.Outcome.Store

/-!
# What every step of the outcome store keeps

An operation is inside the gate of its key exactly while it is busy, so at most one
operation is busy on a key. A busy operation that is past its recovery finds nothing of its
key left behind by a failed rollback.
-/

namespace Webchannel.Outcome

/-- The length of the account separates it from the key. -/
theorem hotKey_inj {a a' k k' : String} (h : hotKey a k = hotKey a' k') : a = a' ∧ k = k' :=
  lengthPrefixed_inj h

/-! ### The invariant -/

/-- The receipt still holds the gate of its operation. -/
def Receipt.pending (r : Receipt) : Bool := !r.settled || r.rollingBack

def Op.finished (op : Op) : Bool :=
  match op.point with
  | .done _ => op.receipt.all (!·.pending)
  | _ => false

/-- From the moment the gate lets the operation in until it has returned and its receipt,
if it gave one out, has been settled. -/
def Op.busy (op : Op) : Bool := op.point ≠ .waiting && !op.finished

/-- Between the recovery and the return. -/
def Point.working : Point → Bool
  | .waiting | .recovering _ | .done _ => false
  | _ => true

def Op.gateKey (op : Op) : String := hotKey op.accountId op.key

structure Op.WellFormed (op : Op) : Prop where
  receipt : ∀ r, op.receipt = some r → op.point = .done (.recorded r.durability) ∧
    (r.rollingBack = true → r.settled = true ∧ r.created = true)
  recorded : ∀ d, op.point = .done (.recorded d) → op.receipt.isSome = true

namespace OutcomeStore

/-- No marker of the key is left behind, and none is in quarantine. -/
def Clean (w : OutcomeStore) (op : Op) : Prop :=
  w.rollbackRecovery.get op.gateKey = none ∧ ∀ o, (op.accountId, op.key, o) ∉ w.leftBehind

structure Inv (w : OutcomeStore) : Prop where
  gate : w.operationTails.Inv
  tickets : w.operationTails.tickets.next = w.ops.next
  ticket : ∀ i op, w.ops.get i = some op → ∃ t, w.operationTails.tickets.get i = some t ∧
    t.key = op.gateKey ∧ t.entered = decide (op.point ≠ .waiting) ∧ t.released = op.finished
  wellFormed : ∀ i op, w.ops.get i = some op → op.WellFormed
  deletions : ∀ i ∈ w.rollbackDeletions, ∃ op r, w.ops.get i = some op ∧
    op.receipt = some r ∧ r.created = true
  quarantined : ∀ a k o, (a, k, o) ∈ w.leftBehind → w.rollbackRecoveryPoisoned = true ∨
    ∃ e, w.rollbackRecovery.get (hotKey a k) = some e ∧ e.outcome = o
  clean : ∀ i op, w.ops.get i = some op → op.busy = true →
    (∀ r, op.point ≠ .recovering r) → w.Clean op
  recovering : ∀ i op r, w.ops.get i = some op → op.point = .recovering r →
    w.rollbackRecovery.get op.gateKey = some r ∧
    ∀ o, (op.accountId, op.key, o) ∈ w.leftBehind → o = r.outcome

variable {w w' : OutcomeStore} {i j : Nat} {op op' u : Op} {f : Op → Op}

theorem Inv.create (limits : Limits) : (OutcomeStore.create limits).Inv := by
  refine ⟨Gate.Inv.empty, rfl, ?_, ?_, ?_, ?_, ?_, ?_⟩ <;> simp [OutcomeStore.create]

theorem Inv.inside (h : w.Inv) (hop : w.ops.get i = some op) (hbusy : op.busy = true) :
    w.operationTails.Inside i := by
  obtain ⟨t, ht, -, hent, hrel⟩ := h.ticket i op hop
  simp only [Op.busy, Bool.and_eq_true, Bool.not_eq_true'] at hbusy
  exact ⟨t, ht, hent.trans hbusy.1, hrel.trans hbusy.2⟩

/-- Operations on one key never overlap. -/
theorem Inv.alone (h : w.Inv) (hi : w.ops.get i = some op) (hj : w.ops.get j = some u)
    (hbi : op.busy = true) (hbj : u.busy = true) (hkey : u.gateKey = op.gateKey) : j = i := by
  obtain ⟨t, ht, htk, -⟩ := h.ticket i op hi
  obtain ⟨t', ht', htk', -⟩ := h.ticket j u hj
  exact h.gate.exclusive ht' ht (by rw [htk, htk', hkey]) (h.inside hj hbj) (h.inside hi hbi)

theorem busy_of_recovering {r : HotEntry} (hp : op.point = .recovering r) : op.busy = true := by
  simp [Op.busy, Op.finished, hp]

/-- One operation moves on. Nobody else is inside on its key, and nothing changes that
belongs to another key. -/
theorem Inv.replace (h : w.Inv) (hop : w.ops.get i = some op)
    (hfree : ∀ j u, w.ops.get j = some u → j ≠ i → u.busy = true → u.gateKey ≠ op.gateKey)
    (hgate : w'.operationTails.Inv)
    (hnext : w'.operationTails.tickets.next = w.operationTails.tickets.next)
    (hothers : ∀ j, j ≠ i → w'.operationTails.tickets.get j = w.operationTails.tickets.get j)
    (hticket : ∃ t, w'.operationTails.tickets.get i = some t ∧ t.key = op.gateKey ∧
      t.entered = true ∧ t.released = (f op).finished)
    (hops : w'.ops = w.ops.update i f)
    (hacc : (f op).accountId = op.accountId) (hkey : (f op).key = op.key)
    (hwf : (f op).WellFormed) (hpoint : (f op).point ≠ .waiting)
    (hpoison : w.rollbackRecoveryPoisoned = true → w'.rollbackRecoveryPoisoned = true)
    (hdel : ∀ j ∈ w'.rollbackDeletions, ∃ u r, w'.ops.get j = some u ∧ u.receipt = some r ∧
      r.created = true)
    (hrec : ∀ k, k ≠ op.gateKey → w'.rollbackRecovery.get k = w.rollbackRecovery.get k)
    (hleft : ∀ a k o, hotKey a k ≠ op.gateKey →
      ((a, k, o) ∈ w'.leftBehind ↔ (a, k, o) ∈ w.leftBehind))
    (hquar : ∀ o, (op.accountId, op.key, o) ∈ w'.leftBehind →
      w'.rollbackRecoveryPoisoned = true ∨
      ∃ e, w'.rollbackRecovery.get op.gateKey = some e ∧ e.outcome = o)
    (hclean : (f op).busy = true → (∀ r, (f op).point ≠ .recovering r) → w'.Clean op)
    (hrecovering : ∀ r, (f op).point = .recovering r →
      w'.rollbackRecovery.get op.gateKey = some r ∧
      ∀ o, (op.accountId, op.key, o) ∈ w'.leftBehind → o = r.outcome) : w'.Inv := by
  have hgk : (f op).gateKey = op.gateKey := by rw [Op.gateKey, hacc, hkey, Op.gateKey]
  have hcases : ∀ j u, w'.ops.get j = some u →
      (j = i ∧ u = f op) ∨ (j ≠ i ∧ w.ops.get j = some u) := by
    intro j u hu
    rw [hops] at hu
    rcases Heap.get_update_cases hu with ⟨rfl, v, hv, rfl⟩ | hold
    · obtain rfl := Option.some.inj (hop.symm.trans hv)
      exact .inl ⟨rfl, rfl⟩
    · exact .inr hold
  refine ⟨hgate, by rw [hnext, h.tickets, hops, Heap.next_update], ?_, ?_, hdel, ?_, ?_, ?_⟩
  · intro j u hu
    rcases hcases j u hu with ⟨rfl, rfl⟩ | ⟨hne, hu⟩
    · obtain ⟨t, ht, htk, hte, htr⟩ := hticket
      exact ⟨t, ht, htk.trans hgk.symm, hte.trans (decide_eq_true hpoint).symm, htr⟩
    · obtain ⟨t, ht, hrest⟩ := h.ticket j u hu
      exact ⟨t, (hothers j hne).trans ht, hrest⟩
  · intro j u hu
    rcases hcases j u hu with ⟨rfl, rfl⟩ | ⟨-, hu⟩
    · exact hwf
    · exact h.wellFormed j u hu
  · intro a k o hmem
    by_cases hk : hotKey a k = op.gateKey
    · obtain ⟨rfl, rfl⟩ := hotKey_inj hk
      exact hquar o hmem
    · rw [hrec _ hk]
      exact (h.quarantined a k o ((hleft a k o hk).mp hmem)).imp_left hpoison
  · intro j u hu hbusy hnr
    rcases hcases j u hu with ⟨rfl, rfl⟩ | ⟨hne, hu⟩
    · have := hclean hbusy hnr
      rwa [Clean, ← hgk, ← hacc, ← hkey] at this
    · have hk := hfree j u hu hne hbusy
      obtain ⟨hnone, hnot⟩ := h.clean j u hu hbusy hnr
      exact ⟨(hrec _ hk).trans hnone, fun o hmem => hnot o ((hleft _ _ o hk).mp hmem)⟩
  · intro j u r hu hp
    rcases hcases j u hu with ⟨rfl, rfl⟩ | ⟨hne, hu⟩
    · have := hrecovering r hp
      rwa [← hgk, ← hacc, ← hkey] at this
    · have hk := hfree j u hu hne (busy_of_recovering hp)
      obtain ⟨hsome, honly⟩ := h.recovering j u r hu hp
      exact ⟨(hrec _ hk).trans hsome, fun o hmem => honly o ((hleft _ _ o hk).mp hmem)⟩

theorem get_release (g : Gate String) (i j : Nat) : (g.release i).tickets.get j =
    if j = i then (g.tickets.get j).map ({ · with released := true }) else g.tickets.get j :=
  Heap.get_update g.tickets i j _

/-- An operation that is inside moves on, and gives the gate back if that finishes it. -/
theorem Inv.advance (h : w.Inv) (hop : w.ops.get i = some op) (hbusy : op.busy = true)
    (hgate : w'.operationTails =
      if (f op).finished = true then w.operationTails.release i else w.operationTails)
    (hops : w'.ops = w.ops.update i f)
    (hacc : (f op).accountId = op.accountId) (hkey : (f op).key = op.key)
    (hwf : (f op).WellFormed) (hpoint : (f op).point ≠ .waiting)
    (hpoison : w.rollbackRecoveryPoisoned = true → w'.rollbackRecoveryPoisoned = true)
    (hdel : ∀ j ∈ w'.rollbackDeletions, ∃ u r, w'.ops.get j = some u ∧ u.receipt = some r ∧
      r.created = true)
    (hrec : ∀ k, k ≠ op.gateKey → w'.rollbackRecovery.get k = w.rollbackRecovery.get k)
    (hleft : ∀ a k o, hotKey a k ≠ op.gateKey →
      ((a, k, o) ∈ w'.leftBehind ↔ (a, k, o) ∈ w.leftBehind))
    (hquar : ∀ o, (op.accountId, op.key, o) ∈ w'.leftBehind →
      w'.rollbackRecoveryPoisoned = true ∨
      ∃ e, w'.rollbackRecovery.get op.gateKey = some e ∧ e.outcome = o)
    (hclean : (f op).busy = true → w'.Clean op)
    (hrecovering : ∀ r, (f op).point ≠ .recovering r) : w'.Inv := by
  have hinside := h.inside hop hbusy
  obtain ⟨t, ht, htk, -, -⟩ := h.ticket i op hop
  obtain ⟨t', ht', hent, hrel⟩ := hinside
  obtain rfl := Option.some.inj (ht.symm.trans ht')
  refine h.replace hop ?_ ?_ ?_ ?_ ?_ hops hacc hkey hwf hpoint hpoison hdel hrec hleft hquar
    (fun hb _ => hclean hb) fun r hr => absurd hr (hrecovering r)
  · intro j u hu hne hb hk
    exact hne (h.alone hop hu hbusy hb hk)
  · rw [hgate]
    split
    · exact h.gate.release (h.inside hop hbusy)
    · exact h.gate
  · rw [hgate]
    split
    · exact Heap.next_update ..
    · rfl
  · intro j hne
    rw [hgate]
    split
    · rw [get_release, if_neg hne]
    · rfl
  · rw [hgate]
    split
    · rename_i hfin
      rw [get_release, if_pos rfl, ht]
      exact ⟨_, rfl, htk, hent, hfin.symm⟩
    · rename_i hfin
      exact ⟨t, ht, htk, hent, hrel.trans (Bool.not_eq_true _ ▸ hfin).symm⟩

/-- What a receipt has created it does not take back. -/
theorem Inv.deletions_update (h : w.Inv) (hop : w.ops.get i = some op)
    (hcreated : ∀ r, op.receipt = some r → r.created = true →
      ∃ r', (f op).receipt = some r' ∧ r'.created = true) :
    ∀ j ∈ w.rollbackDeletions, ∃ u r, (w.ops.update i f).get j = some u ∧
      u.receipt = some r ∧ r.created = true := by
  intro j hj
  obtain ⟨u, r, hu, hr, hc⟩ := h.deletions j hj
  rw [Heap.get_update]
  split
  · rename_i hji
    subst hji
    obtain rfl := Option.some.inj (hop.symm.trans hu)
    obtain ⟨r', hr', hc'⟩ := hcreated r hr hc
    rw [hop, Option.map_some]
    exact ⟨f op, r', rfl, hr', hc'⟩
  · exact ⟨u, r, hu, hr, hc⟩

/-- The same for a move that leaves the quarantine alone. -/
theorem Inv.move (h : w.Inv) (hop : w.ops.get i = some op) (hbusy : op.busy = true)
    (hgate : w'.operationTails =
      if (f op).finished = true then w.operationTails.release i else w.operationTails)
    (hops : w'.ops = w.ops.update i f)
    (hacc : (f op).accountId = op.accountId) (hkey : (f op).key = op.key)
    (hwf : (f op).WellFormed) (hpoint : (f op).point ≠ .waiting)
    (hpoison : w'.rollbackRecoveryPoisoned = w.rollbackRecoveryPoisoned)
    (hdel : w'.rollbackDeletions = w.rollbackDeletions)
    (hrec : w'.rollbackRecovery = w.rollbackRecovery) (hleft : w'.leftBehind = w.leftBehind)
    (hclean : (f op).busy = true → ∀ r, op.point ≠ .recovering r)
    (hrecovering : ∀ r, (f op).point ≠ .recovering r)
    (hcreated : ∀ r, op.receipt = some r → r.created = true →
      ∃ r', (f op).receipt = some r' ∧ r'.created = true) : w'.Inv := by
  refine h.advance hop hbusy hgate hops hacc hkey hwf hpoint ?_ ?_ ?_ ?_ ?_ ?_ hrecovering
  · exact fun hp => hpoison.trans hp
  · rw [hdel, hops]
    exact h.deletions_update hop hcreated
  · exact fun k _ => by rw [hrec]
  · exact fun a k o _ => by rw [hleft]
  · intro o ho
    rw [hpoison, hrec]
    exact h.quarantined _ _ o (hleft ▸ ho)
  · intro hb
    rw [Clean, hrec, hleft]
    exact h.clean i op hop hbusy (hclean hb)

theorem Inv.goto (h : w.Inv) (hop : w.ops.get i = some op) (hbusy : op.busy = true)
    (hreceipt : op.receipt = none) (hp : ∀ r, op.point ≠ .recovering r) {p : Point}
    (hwait : p ≠ .waiting) (hrecovering : ∀ r, p ≠ .recovering r) (hdone : ∀ r, p ≠ .done r) :
    (w.goto i p).Inv := by
  refine h.move hop hbusy ?_ rfl rfl rfl ⟨?_, ?_⟩ hwait rfl rfl rfl rfl (fun _ => hp) hrecovering ?_
  · have hfin : ({ op with point := p } : Op).finished = false := by
      cases p with
      | done r => exact absurd rfl (hdone r)
      | _ => rfl
    rw [hfin]
    rfl
  · exact fun r hr => absurd (hreceipt.symm.trans hr) nofun
  · exact fun d hd => absurd hd (hdone _)
  · exact fun r hr => absurd (hreceipt.symm.trans hr) nofun

theorem Inv.finish (h : w.Inv) (hop : w.ops.get i = some op) (hbusy : op.busy = true)
    (hreceipt : op.receipt = none) {reply : Reply} (hreply : ∀ d, reply ≠ .recorded d) :
    (w.finish i reply).Inv := by
  have hfin : ({ op with point := .done reply } : Op).finished = true := by
    simp [Op.finished, hreceipt]
  refine h.move hop hbusy ?_ rfl rfl rfl ⟨?_, ?_⟩ nofun rfl rfl rfl rfl ?_ nofun ?_
  · rw [hfin]
    rfl
  · exact fun r hr => absurd (hreceipt.symm.trans hr) nofun
  · exact fun d hd => absurd (Point.done.inj hd) (hreply d)
  · intro hb
    simp [Op.busy, hfin] at hb
  · exact fun r hr => absurd (hreceipt.symm.trans hr) nofun

/-! ### What the hot cache does not matter for -/

theorem deleteHot_eq (w : OutcomeStore) (a k : String) (o : Option IngressOutcome) :
    ∃ hot total, w.deleteHot a k o = { w with hot := hot, totalHotBytes := total } := by
  unfold deleteHot
  split
  · exact ⟨w.hot, w.totalHotBytes, rfl⟩
  · split
    · exact ⟨w.hot, w.totalHotBytes, rfl⟩
    · exact ⟨_, _, rfl⟩

theorem putHot_eq (w : OutcomeStore) (a k : String) (o : IngressOutcome) (d : Durability) :
    ∃ hot total, w.putHot a k o d = { w with hot := hot, totalHotBytes := total } := by
  obtain ⟨hot, total, h⟩ := w.deleteHot_eq a k none
  unfold putHot
  rw [h]
  dsimp only
  split
  · exact ⟨hot, total, rfl⟩
  · exact ⟨_, _, rfl⟩

theorem Inv.cache (h : w.Inv) (hot : OrderedMap String HotEntry) (total : Nat)
    (warnings : List Warning) :
    Inv { w with hot := hot, totalHotBytes := total, warnings := warnings } :=
  ⟨h.gate, h.tickets, h.ticket, h.wellFormed, h.deletions, h.quarantined, h.clean, h.recovering⟩

theorem Inv.warn (h : w.Inv) (a : String) (c : IngressOutcomeFailureCategory) : (w.warn a c).Inv :=
  h.cache w.hot w.totalHotBytes _

theorem Inv.deleteHot (h : w.Inv) (a k : String) (o : Option IngressOutcome) :
    (w.deleteHot a k o).Inv := by
  obtain ⟨hot, total, heq⟩ := w.deleteHot_eq a k o
  rw [heq]
  exact h.cache hot total w.warnings

theorem Inv.putHot (h : w.Inv) (a k : String) (o : IngressOutcome) (d : Durability) :
    (w.putHot a k o d).Inv := by
  obtain ⟨hot, total, heq⟩ := w.putHot_eq a k o d
  rw [heq]
  exact h.cache hot total w.warnings

@[simp] theorem deleteHot_ops (w : OutcomeStore) (a k : String) (o : Option IngressOutcome) :
    (w.deleteHot a k o).ops = w.ops := by
  obtain ⟨hot, total, heq⟩ := w.deleteHot_eq a k o
  rw [heq]

@[simp] theorem putHot_ops (w : OutcomeStore) (a k : String) (o : IngressOutcome)
    (d : Durability) : (w.putHot a k o d).ops = w.ops := by
  obtain ⟨hot, total, heq⟩ := w.putHot_eq a k o d
  rw [heq]

/-- Nothing of a clean key is left behind that a call could delete. -/
theorem Clean.deleted (h : w.Clean op) (o : IngressOutcome) (answer : Answer) :
    w.deleted op.accountId op.key o answer = w := by
  unfold OutcomeStore.deleted
  split
  · have hall : w.leftBehind.filter (· ≠ (op.accountId, op.key, o)) = w.leftBehind := by
      apply List.filter_eq_self.mpr
      intro x hx
      have hne : x ≠ (op.accountId, op.key, o) := fun heq => h.2 o (heq ▸ hx)
      simpa using hne
    rw [hall]
  · rfl

/-! ### Steps -/

theorem Inv.call (h : w.Inv) (a k : String) (kind : Kind) : (w.call a k kind).Inv := by
  have hcases : ∀ {j : Nat} {u : Op}, (w.call a k kind).ops.get j = some u →
      (j = w.ops.next ∧ u = ⟨a, k, kind, .waiting, none⟩) ∨ w.ops.get j = some u :=
    Heap.get_alloc_cases
  refine ⟨h.gate.draw _, ?_, ?_, ?_, ?_, h.quarantined, ?_, ?_⟩
  · simp only [OutcomeStore.call, Gate.draw, Heap.next_alloc, h.tickets]
  · intro j u hu
    rcases hcases hu with ⟨rfl, rfl⟩ | hu
    · rw [← h.tickets]
      exact ⟨_, Heap.get_alloc_next _ _, rfl, rfl, rfl⟩
    · obtain ⟨t, ht, hrest⟩ := h.ticket j u hu
      exact ⟨t, Heap.get_alloc_of_some ht, hrest⟩
  · intro j u hu
    rcases hcases hu with ⟨-, rfl⟩ | hu
    · exact ⟨fun _ hr => (by cases hr), fun _ hr => (by cases hr)⟩
    · exact h.wellFormed j u hu
  · intro j hj
    obtain ⟨u, r, hu, hr⟩ := h.deletions j hj
    exact ⟨u, r, Heap.get_alloc_of_some hu, hr⟩
  · intro j u hu hb
    rcases hcases hu with ⟨-, rfl⟩ | hu
    · cases hb
    · exact h.clean j u hu hb
  · intro j u r hu hp
    rcases hcases hu with ⟨-, rfl⟩ | hu
    · cases hp
    · exact h.recovering j u r hu hp

/-- An operation that is let in is alone on its key. -/
theorem Inv.entering (h : w.Inv) (hop : w.ops.get i = some op) {g : Gate String}
    (hg : w.operationTails.enter i = some g) :
    op.point = .waiting ∧ g.tickets.next = w.operationTails.tickets.next ∧
    (∀ j, j ≠ i → g.tickets.get j = w.operationTails.tickets.get j) ∧
    (∃ t, g.tickets.get i = some t ∧ t.key = op.gateKey ∧ t.entered = true ∧ t.released = false) ∧
    ∀ j u, w.ops.get j = some u → j ≠ i → u.busy = true → u.gateKey ≠ op.gateKey := by
  have hinv := h.gate.enter hg
  obtain ⟨t, ht, htk, hent, hrel⟩ := h.ticket i op hop
  obtain ⟨t', ht', hg⟩ := Option.bind_eq_some_iff.mp hg
  obtain rfl := Option.some.inj (ht.symm.trans ht')
  split at hg
  · rename_i hcan
    obtain rfl := Option.some.inj hg
    have hwait : op.point = .waiting := by
      simpa using hent.symm.trans hcan.1
    have hother : ∀ j, j ≠ i → (w.operationTails.tickets.update i
        ({ · with entered := true })).get j = w.operationTails.tickets.get j :=
      fun j hne => Heap.get_update_of_ne hne
    have hself : (w.operationTails.tickets.update i ({ · with entered := true })).get i =
        some { t with entered := true } := Heap.get_update_self ht
    have hout : t.released = false := by rw [hrel, Op.finished, hwait]
    refine ⟨hwait, Heap.next_update .., hother, ⟨_, hself, htk, rfl, hout⟩, ?_⟩
    intro j u hu hne hb hk
    obtain ⟨v, hv, hvk, -⟩ := h.ticket j u hu
    obtain ⟨v', hv', hin⟩ := h.inside hu hb
    exact hne (hinv.exclusive ((hother j hne).trans hv) hself (by rw [hvk, hk, ← htk])
      ⟨v', (hother j hne).trans hv', hin⟩ ⟨_, hself, rfl, hout⟩)
  · cases hg

theorem Inv.receipt_none (h : w.Inv) (hop : w.ops.get i = some op)
    (hp : ∀ d, op.point ≠ .done (.recorded d)) : op.receipt = none := by
  cases hr : op.receipt with
  | none => rfl
  | some r => exact absurd ((h.wellFormed i op hop).receipt r hr).1 (hp _)

theorem Inv.enter (h : w.Inv) (hop : w.ops.get i = some op) {g : Gate String}
    (hg : w.operationTails.enter i = some g) :
    (OutcomeStore.enter { w with operationTails := g } i op).Inv := by
  have hinv := h.gate.enter hg
  obtain ⟨hwait, hnext, hothers, ⟨t, ht, htk, hent, hrel⟩, hfree⟩ := h.entering hop hg
  have hnone := h.receipt_none hop fun d => by simp [hwait]
  have hreceipt {p : Prop} : ∀ r, op.receipt = some r → p :=
    fun r hr => by cases hnone.symm.trans hr
  have hin : g.Inside i := ⟨t, ht, hent, hrel⟩
  unfold OutcomeStore.enter
  split
  · rename_i hpoison
    have hfin (reply : Reply) : ({ op with point := .done reply } : Op).finished = true := by
      simp [Op.finished, hnone]
    refine h.replace hop hfree (hinv.release hin) (Eq.trans (Heap.next_update ..) hnext) ?_ ?_
      rfl rfl rfl ⟨fun r => hreceipt r, ?_⟩ (fun hd => (by cases hd)) id
      (h.deletions_update hop fun r => hreceipt r) (fun _ _ => rfl) (fun _ _ _ _ => Iff.rfl)
      (h.quarantined _ _) ?_ fun _ hr => by cases hr
    · intro j hne
      exact Eq.trans (Heap.get_update_of_ne hne) (hothers j hne)
    · exact ⟨_, Heap.get_update_self ht, htk, hent, (hfin _).symm⟩
    · intro d hd
      cases hk : op.kind <;> simp [Kind.unknown, hk] at hd
    · intro hb
      rw [Op.busy, hfin] at hb
      simp at hb
  · rename_i hpoison
    split
    · rename_i hget
      refine h.replace hop hfree hinv hnext hothers ?_
        rfl rfl rfl ⟨fun r => hreceipt r, fun _ hd => (by cases hd)⟩ (fun hd => (by cases hd)) id
        (h.deletions_update hop fun r => hreceipt r) (fun _ _ => rfl) (fun _ _ _ _ => Iff.rfl)
        (h.quarantined _ _) ?_ fun _ hr => by cases hr
      · exact ⟨t, ht, htk, hent, hrel⟩
      · intro _ _
        refine ⟨hget, fun o ho => ?_⟩
        rcases h.quarantined _ _ o ho with hp | ⟨e, he, -⟩
        · exact hpoison hp
        · cases hget.symm.trans he
    · rename_i recovery hget
      refine h.replace hop hfree hinv hnext hothers ?_
        rfl rfl rfl ⟨fun r => hreceipt r, fun _ hd => (by cases hd)⟩ (fun hd => (by cases hd)) id
        (h.deletions_update hop fun r => hreceipt r) (fun _ _ => rfl) (fun _ _ _ _ => Iff.rfl)
        (h.quarantined _ _) (fun _ hr => absurd rfl (hr recovery)) ?_
      · exact ⟨t, ht, htk, hent, hrel⟩
      · intro r hr
        obtain rfl := Point.recovering.inj hr
        refine ⟨hget, fun o ho => ?_⟩
        rcases h.quarantined _ _ o ho with hp | ⟨e, he, heo⟩
        · exact absurd hp hpoison
        · rw [Option.some.inj (hget.symm.trans he), heo]

theorem unknown_ne_recorded (error : OutcomeError) (kind : Kind) (d : Durability) :
    Kind.unknown error kind ≠ .recorded d := by
  cases kind <;> exact nofun

theorem Inv.recover (h : w.Inv) (hop : w.ops.get i = some op) {recovery : HotEntry}
    (hp : op.point = .recovering recovery) (answer : Answer) :
    (w.recover i op recovery answer).Inv := by
  have hbusy := busy_of_recovering hp
  have hnone := h.receipt_none hop fun d => by simp [hp]
  have hreceipt {p : Prop} : ∀ r, op.receipt = some r → p :=
    fun r hr => absurd (hnone.symm.trans hr) nofun
  match answer with
  | .threw => exact (h.warn _ _).finish hop hbusy hnone (unknown_ne_recorded _ _)
  | .returned _ true => exact (h.warn _ _).finish hop hbusy hnone (unknown_ne_recorded _ _)
  | .returned value false =>
    obtain ⟨-, honly⟩ := h.recovering i op recovery hop hp
    unfold OutcomeStore.recover
    dsimp only
    obtain ⟨hot, total, heq⟩ := deleteHot_eq { w with
      rollbackRecovery := w.rollbackRecovery.delete (hotKey op.accountId op.key)
      totalRollbackRecoveryBytes := w.totalRollbackRecoveryBytes - recovery.bytes }
      op.accountId op.key (some recovery.outcome)
    rw [heq]
    -- The marker in quarantine was the only one of the key that was left behind.
    have hgone : ∀ o, (op.accountId, op.key, o) ∉
        w.leftBehind.filter (· ≠ (op.accountId, op.key, recovery.outcome)) := by
      intro o ho
      obtain ⟨hmem, hne⟩ := List.mem_filter.mp ho
      simp [honly o hmem] at hne
    refine h.advance hop hbusy rfl rfl rfl rfl ⟨fun r => hreceipt r, nofun⟩ nofun id
      (h.deletions_update hop fun r => hreceipt r) ?_ ?_ ?_ ?_ nofun
    · exact fun k hk => OrderedMap.get_delete_of_ne _ hk
    · intro a k o hk
      refine ⟨fun hmem => (List.mem_filter.mp hmem).1, fun hmem => List.mem_filter.mpr ⟨hmem, ?_⟩⟩
      have hne : (a, k, o) ≠ (op.accountId, op.key, recovery.outcome) := by
        intro heq
        obtain ⟨rfl, rfl, -⟩ : a = _ ∧ k = _ ∧ o = _ := by simpa using heq
        exact hk rfl
      exact decide_eq_true hne
    · exact fun o ho => absurd ho (hgone o)
    · exact fun _ => ⟨OrderedMap.get_delete_self _ _, hgone⟩

theorem Op.busy_of_working (hw : op.point.working = true) : op.busy = true := by
  cases hp : op.point <;> simp_all [Op.busy, Op.finished, Point.working]

theorem Inv.clean_of_working (h : w.Inv) (hop : w.ops.get i = some op)
    (hw : op.point.working = true) : w.Clean op := by
  refine h.clean i op hop (Op.busy_of_working hw) fun r hr => ?_
  rw [hr] at hw
  cases hw

theorem Inv.receipt_none_of_working (h : w.Inv) (hop : w.ops.get i = some op)
    (hw : op.point.working = true) : op.receipt = none := by
  refine h.receipt_none hop fun d hd => ?_
  rw [hd] at hw
  cases hw

theorem Inv.proceed (h : w.Inv) (hop : w.ops.get i = some op) (hw : op.point.working = true)
    {p : Point} (hp : p.working = true) : (w.goto i p).Inv := by
  refine h.goto hop (Op.busy_of_working hw) (h.receipt_none_of_working hop hw) ?_ ?_ ?_ ?_
  · intro r hr
    rw [hr] at hw
    cases hw
  · rintro rfl
    cases hp
  · rintro r rfl
    cases hp
  · rintro r rfl
    cases hp

theorem Inv.complete (h : w.Inv) (hop : w.ops.get i = some op) (hw : op.point.working = true)
    {reply : Reply} (hreply : ∀ d, reply ≠ .recorded d) : (w.finish i reply).Inv :=
  h.finish hop (Op.busy_of_working hw) (h.receipt_none_of_working hop hw) hreply

theorem Inv.foundOverloaded (h : w.Inv) (hop : w.ops.get i = some op) (hw : op.point.working = true) :
    (w.foundOverloaded i op).Inv :=
  (h.putHot _ _ _ _).complete (by rw [putHot_ops, hop]) hw nofun

theorem Inv.foundAccepted (h : w.Inv) (hop : w.ops.get i = some op) (hw : op.point.working = true) :
    (w.foundAccepted i op).Inv :=
  (h.putHot _ _ _ _).complete (by rw [putHot_ops, hop]) hw nofun

theorem Inv.lookupUnknown (h : w.Inv) (hop : w.ops.get i = some op) (hw : op.point.working = true)
    (o : IngressOutcome) (error : OutcomeError) : (w.lookupUnknown i op o error).Inv :=
  (h.warn _ _).complete hop hw nofun

theorem Inv.receive (h : w.Inv) (hop : w.ops.get i = some op) (hw : op.point.working = true)
    (o : IngressOutcome) (fresh diskError : Bool) : (w.receive i op o fresh diskError).Inv := by
  have hnone := h.receipt_none_of_working hop hw
  unfold OutcomeStore.receive
  dsimp only
  refine h.move hop (Op.busy_of_working hw) rfl rfl rfl rfl ⟨?_, ?_⟩ nofun rfl rfl rfl rfl ?_ nofun ?_
  · intro r hr
    obtain rfl := Option.some.inj hr
    exact ⟨rfl, nofun⟩
  · exact fun _ _ => rfl
  · intro _ r hr
    rw [hr] at hw
    cases hw
  · exact fun r hr => absurd (hnone.symm.trans hr) nofun

theorem Inv.recorded (h : w.Inv) (hop : w.ops.get i = some op) (hw : op.point.working = true)
    (o : IngressOutcome) (answer : Answer) : (w.recorded i op o answer).Inv := by
  match answer, o with
  | .threw, _ => exact (h.warn _ _).complete hop hw nofun
  | .returned fresh false, o => exact h.receive hop hw o fresh false
  | .returned _ true, .overloaded => exact (h.warn _ _).proceed hop hw rfl
  | .returned fresh true, .accepted => exact (h.warn _ _).receive hop hw .accepted fresh true

theorem Inv.replaced (h : w.Inv) (hop : w.ops.get i = some op) (hw : op.point.working = true)
    (o : IngressOutcome) (answer : Answer) : (w.replaced i op o answer).Inv := by
  match answer with
  | .threw => exact (h.warn _ _).complete hop hw nofun
  | .returned _ true => exact (h.warn _ _).complete hop hw nofun
  | .returned _ false =>
    exact (h.deleteHot _ _ _).proceed (by rw [deleteHot_ops, hop]) hw rfl

theorem Inv.resume (h : w.Inv) (hop : w.ops.get i = some op) (hw : op.point.working = true) :
    (w.resume i op).Inv := by
  unfold OutcomeStore.resume
  split
  · exact h.proceed hop hw rfl
  · exact h.proceed hop hw rfl
  · exact h.proceed hop hw rfl
  · exact (h.deleteHot _ _ _).proceed (by rw [deleteHot_ops, hop]) hw rfl

theorem Inv.resumeWith (h : w.Inv) (hop : w.ops.get i = some op) {answer : Answer}
    (hs : w.resumeWith i op answer = some w') : w'.Inv := by
  unfold OutcomeStore.resumeWith at hs
  split at hs
  · obtain rfl := Option.some.inj hs
    exact h.recover hop ‹_› answer
  · have hw : op.point.working = true := by simp only [*, Point.working]
    obtain rfl := Option.some.inj hs
    split
    · exact h.lookupUnknown hop hw _ _
    · exact h.proceed hop hw rfl
    · exact h.lookupUnknown hop hw _ _
    · exact h.proceed hop hw rfl
  · have hw : op.point.working = true := by simp only [*, Point.working]
    obtain rfl := Option.some.inj hs
    split
    · have hcache := h.cache w.hot w.totalHotBytes (w.warnings ++ [.dualMarker])
      exact hcache.proceed hop hw rfl
    · exact h.foundOverloaded hop hw
  · have hw : op.point.working = true := by simp only [*, Point.working]
    rw [(h.clean_of_working hop hw).deleted] at hs
    obtain rfl := Option.some.inj hs
    exact h.foundOverloaded hop hw
  · have hw : op.point.working = true := by simp only [*, Point.working]
    obtain rfl := Option.some.inj hs
    split
    · exact h.lookupUnknown hop hw _ _
    · exact h.foundAccepted hop hw
    · exact h.lookupUnknown hop hw _ _
    · exact h.complete hop hw nofun
  · have hw : op.point.working = true := by simp only [*, Point.working]
    rw [(h.clean_of_working hop hw).deleted] at hs
    obtain rfl := Option.some.inj hs
    exact h.replaced hop hw _ answer
  · have hw : op.point.working = true := by simp only [*, Point.working]
    obtain rfl := Option.some.inj hs
    exact h.recorded hop hw _ answer
  · have hw : op.point.working = true := by simp only [*, Point.working]
    rw [(h.clean_of_working hop hw).deleted] at hs
    obtain rfl := Option.some.inj hs
    exact (h.deleteHot _ _ _).complete (by rw [deleteHot_ops, hop]) hw nofun
  · have hw : op.point.working = true := by simp only [*, Point.working]
    rw [(h.clean_of_working hop hw).deleted] at hs
    obtain rfl := Option.some.inj hs
    exact h.complete hop hw nofun
  · cases hs

/-- What settling a receipt looks like for its operation. -/
theorem finished_of_receipt {r : Receipt} (hw : op.WellFormed) (hr : op.receipt = some r) :
    op.finished = !r.pending := by
  simp only [Op.finished, (hw.receipt r hr).1, hr, Option.all_some]

theorem busy_of_receipt {r : Receipt} (hw : op.WellFormed) (hr : op.receipt = some r) :
    op.busy = r.pending := by
  have hp := (hw.receipt r hr).1
  rw [Op.busy, finished_of_receipt hw hr, hp]
  simp

/-- Change the receipt of an operation, and nothing that the quarantine is about. -/
theorem Inv.updateReceipt (h : w.Inv) (hop : w.ops.get i = some op) {r : Receipt}
    (hr : op.receipt = some r) (hpending : r.pending = true) (g : Receipt → Receipt)
    (hdur : (g r).durability = r.durability) (hcre : (g r).created = r.created)
    (hroll : (g r).rollingBack = true → (g r).settled = true ∧ (g r).created = true)
    (hgate : w'.operationTails =
      if (g r).pending = true then w.operationTails else w.operationTails.release i)
    (hops : w'.ops = (w.updateReceipt i g).ops)
    (hpoison : w'.rollbackRecoveryPoisoned = w.rollbackRecoveryPoisoned)
    (hdel : ∀ j ∈ w'.rollbackDeletions, j ∈ w.rollbackDeletions ∨ j = i ∧ r.created = true)
    (hrec : w'.rollbackRecovery = w.rollbackRecovery) (hleft : w'.leftBehind = w.leftBehind) :
    w'.Inv := by
  have hwf := h.wellFormed i op hop
  have hp := (hwf.receipt r hr).1
  have hwf' : Op.WellFormed { op with receipt := op.receipt.map g } := by
    constructor
    · intro r' hr'
      simp only [hr, Option.map_some, Option.some.injEq] at hr'
      subst hr'
      exact ⟨by rw [hdur]; exact hp, hroll⟩
    · simp [hr]
  have hgr : ({ op with receipt := op.receipt.map g } : Op).receipt = some (g r) := by simp [hr]
  have hcreated : ∀ r', op.receipt = some r' → r'.created = true →
      ∃ r'', op.receipt.map g = some r'' ∧ r''.created = true := by
    intro r' hr' hc
    obtain rfl := Option.some.inj (hr.symm.trans hr')
    exact ⟨g r, by rw [hr, Option.map_some], hcre.trans hc⟩
  have hbusy : op.busy = true := (busy_of_receipt hwf hr).trans hpending
  have hclean : w.Clean op := h.clean i op hop hbusy (by simp [hp])
  refine h.advance hop hbusy ?_ hops rfl rfl hwf' (by simp [hp]) (fun hpo => hpoison.trans hpo) ?_
    (fun k _ => by rw [hrec]) (fun a k o _ => by rw [hleft]) ?_ ?_ (by simp [hp])
  · rw [hgate, finished_of_receipt hwf' hgr]
    cases (g r).pending <;> rfl
  · intro j hj
    rw [hops]
    rcases hdel j hj with hj | ⟨rfl, hc⟩
    · exact h.deletions_update hop hcreated j hj
    · exact ⟨_, g r, Heap.get_update_self hop, hgr, hcre.trans hc⟩
  · exact fun o ho => absurd (hleft ▸ ho) (hclean.2 o)
  · intro _
    rw [Clean, hrec, hleft]
    exact hclean

theorem Inv.commit (h : w.Inv) (hop : w.ops.get i = some op) {r : Receipt}
    (hr : op.receipt = some r) : (w.commit i op r).Inv := by
  unfold OutcomeStore.commit
  split
  · exact h
  · rename_i hns
    have hroll : r.rollingBack = false := by
      cases hb : r.rollingBack with
      | false => rfl
      | true => exact absurd (((h.wellFormed i op hop).receipt r hr).2 hb).1 hns
    obtain ⟨hot, total, heq⟩ := (w.updateReceipt i ({ · with settled := true })).putHot_eq
      op.accountId op.key r.outcome r.durability
    dsimp only
    rw [heq]
    refine h.updateReceipt hop hr (by simp [Receipt.pending, hns]) ({ · with settled := true })
      rfl rfl ?_ ?_ rfl rfl (fun _ => .inl) rfl rfl
    · exact fun hb => absurd (hroll.symm.trans hb) nofun
    · simp [Receipt.pending, hroll, OutcomeStore.updateReceipt]

theorem Inv.rollback (h : w.Inv) (hop : w.ops.get i = some op) {r : Receipt}
    (hr : op.receipt = some r) : (w.rollback i r).2.Inv := by
  unfold OutcomeStore.rollback
  split
  · exact h
  · rename_i hns
    have hpending : r.pending = true := by simp [Receipt.pending, hns]
    split
    · rename_i hc
      refine h.updateReceipt hop hr hpending ({ · with settled := true, rollingBack := true })
        rfl rfl (fun _ => ⟨rfl, hc⟩) rfl rfl rfl ?_ rfl rfl
      intro j hj
      rcases List.mem_append.mp hj with hj | hj
      · exact .inl hj
      · exact .inr ⟨List.mem_singleton.mp hj, hc⟩
    · have hroll : r.rollingBack = false := by
        cases hb : r.rollingBack with
        | false => rfl
        | true => exact absurd (((h.wellFormed i op hop).receipt r hr).2 hb).1 hns
      refine h.updateReceipt hop hr hpending ({ · with settled := true })
        rfl rfl ?_ ?_ rfl rfl (fun _ => .inl) rfl rfl
      · exact fun hb => absurd (hroll.symm.trans hb) nofun
      · simp [Receipt.pending, hroll]

/-- A marker that could not be deleted is in quarantine, or the store is poisoned. -/
theorem rememberFailedRollback_eq (w : OutcomeStore) (a k : String) (o : IngressOutcome)
    (d : Durability) (hfree : w.rollbackRecovery.get (hotKey a k) = none) :
    ∃ hot total warnings recovery bytes poisoned,
      w.rememberFailedRollback a k o d = { w with
        hot := hot, totalHotBytes := total, warnings := warnings, rollbackRecovery := recovery,
        totalRollbackRecoveryBytes := bytes, rollbackRecoveryPoisoned := poisoned } ∧
      (∀ k', k' ≠ hotKey a k → recovery.get k' = w.rollbackRecovery.get k') ∧
      (w.rollbackRecoveryPoisoned = true → poisoned = true) ∧
      (poisoned = true ∨ ∃ e, recovery.get (hotKey a k) = some e ∧ e.outcome = o) := by
  obtain ⟨hot, total, heq⟩ := w.deleteHot_eq a k (some o)
  have hhas : w.rollbackRecovery.has (hotKey a k) = false := OrderedMap.has_eq_false_iff.mpr hfree
  unfold rememberFailedRollback
  rw [heq]
  dsimp only
  rw [hhas, Bool.or_false]
  split
  · rename_i hp
    exact ⟨hot, total, w.warnings, w.rollbackRecovery, w.totalRollbackRecoveryBytes,
      w.rollbackRecoveryPoisoned, rfl, fun _ _ => rfl, id, .inl hp⟩
  · split
    · exact ⟨hot, total, _, w.rollbackRecovery, w.totalRollbackRecoveryBytes, true, rfl,
        fun _ _ => rfl, fun _ => rfl, .inl rfl⟩
    · refine ⟨hot, total, _, _, _, w.rollbackRecoveryPoisoned, rfl, ?_, id, ?_⟩
      · exact fun k' hk => OrderedMap.get_set_of_ne _ _ hk
      · exact .inr ⟨_, OrderedMap.get_set_self _ _ _, rfl⟩

/-- The marker of a failed rollback, with what becomes of the quarantine. -/
theorem rolledBack_failed_eq (w : OutcomeStore) (i : Nat) (op : Op) (r : Receipt)
    {answer : Answer} (ha : ∀ v, answer ≠ .returned v false)
    (hfree : w.rollbackRecovery.get op.gateKey = none) :
    ∃ hot total warnings recovery bytes poisoned,
      (w.rolledBack i op r answer).2 = { w with
        hot := hot, totalHotBytes := total, warnings := warnings, rollbackRecovery := recovery,
        totalRollbackRecoveryBytes := bytes, rollbackRecoveryPoisoned := poisoned,
        ops := (w.updateReceipt i ({ · with rollingBack := false })).ops,
        operationTails := w.operationTails.release i,
        leftBehind := w.leftBehind ++ [(op.accountId, op.key, r.outcome)] } ∧
      (∀ k, k ≠ op.gateKey → recovery.get k = w.rollbackRecovery.get k) ∧
      (w.rollbackRecoveryPoisoned = true → poisoned = true) ∧
      (poisoned = true ∨ ∃ e, recovery.get op.gateKey = some e ∧ e.outcome = r.outcome) := by
  obtain ⟨hot, total, warnings, recovery, bytes, poisoned, heq, hrest⟩ :=
    w.rememberFailedRollback_eq op.accountId op.key r.outcome r.durability hfree
  unfold rolledBack
  split
  rename_i removed w₁ hpair
  split at hpair
  · exact absurd rfl (ha _)
  · obtain ⟨-, rfl⟩ := Prod.mk.inj hpair
    rw [heq]
    dsimp only
    split
    · exact ⟨hot, total, warnings, recovery, bytes, poisoned, rfl, hrest⟩
    · obtain ⟨hot', total', heq'⟩ := deleteHot_eq { w with
        hot := hot, totalHotBytes := total, warnings := warnings, rollbackRecovery := recovery,
        totalRollbackRecoveryBytes := bytes, rollbackRecoveryPoisoned := poisoned,
        leftBehind := w.leftBehind ++ [(op.accountId, op.key, r.outcome)] }
        op.accountId op.key (some r.outcome)
      rw [heq']
      exact ⟨hot', total', warnings, recovery, bytes, poisoned, rfl, hrest⟩

theorem Inv.rolledBack (h : w.Inv) (hop : w.ops.get i = some op) {r : Receipt}
    (hr : op.receipt = some r) (hroll : r.rollingBack = true) (answer : Answer) :
    (w.rolledBack i op r answer).2.Inv := by
  have hwf := h.wellFormed i op hop
  obtain ⟨hp, hrb⟩ := hwf.receipt r hr
  obtain ⟨hsettled, hcreated⟩ := hrb hroll
  have hpending : r.pending = true := by simp [Receipt.pending, hroll]
  have hbusy : op.busy = true := (busy_of_receipt hwf hr).trans hpending
  have hclean : w.Clean op := h.clean i op hop hbusy (by simp [hp])
  by_cases ha : ∃ v, answer = .returned v false
  · obtain ⟨v, rfl⟩ := ha
    obtain ⟨hot, total, heq⟩ := w.deleteHot_eq op.accountId op.key (some r.outcome)
    have hhas : w.rollbackRecovery.has (hotKey op.accountId op.key) = false :=
      OrderedMap.has_eq_false_iff.mpr hclean.1
    unfold OutcomeStore.rolledBack
    dsimp only
    rw [hclean.deleted, hhas, heq]
    refine h.updateReceipt hop hr hpending ({ · with rollingBack := false })
      rfl rfl nofun ?_ rfl rfl (fun _ => .inl) rfl rfl
    simp [Receipt.pending, hsettled, OutcomeStore.updateReceipt]
  · obtain ⟨hot, total, warnings, recovery, bytes, poisoned, heq, hrec, hpoison, hquar⟩ :=
      w.rolledBack_failed_eq i op r (fun v hv => ha ⟨v, hv⟩) hclean.1
    rw [heq]
    have hgr : ({ op with receipt := op.receipt.map ({ · with rollingBack := false }) } :
        Op).receipt = some { r with rollingBack := false } := by simp [hr]
    have hwf' : Op.WellFormed
        { op with receipt := op.receipt.map ({ · with rollingBack := false }) } := by
      constructor
      · intro r' hr'
        simp only [hr, Option.map_some, Option.some.injEq] at hr'
        subst hr'
        exact ⟨hp, nofun⟩
      · simp [hr]
    have hfin := finished_of_receipt hwf' hgr
    have hset : (!Receipt.pending { r with rollingBack := false }) = true := by
      simp [Receipt.pending, hsettled]
    refine h.advance hop hbusy ?_ rfl rfl rfl hwf' (by simp [hp]) hpoison ?_ hrec ?_ ?_ ?_
      (by simp [hp])
    · rw [hfin, hset]
      rfl
    · refine h.deletions_update hop ?_
      intro r' hr' hc
      obtain rfl := Option.some.inj (hr.symm.trans hr')
      exact ⟨_, hgr, hc⟩
    · intro a k o hk
      have hne : (a, k, o) ≠ (op.accountId, op.key, r.outcome) := by
        intro heq
        obtain ⟨rfl, rfl, -⟩ : a = _ ∧ k = _ ∧ o = _ := by simpa using heq
        exact hk rfl
      rw [List.mem_append, List.mem_singleton, or_iff_left hne]
    · intro o ho
      rcases List.mem_append.mp ho with ho | ho
      · exact absurd ho (hclean.2 o)
      · obtain rfl : o = r.outcome := by simpa using ho
        exact hquar
    · intro hb
      rw [Op.busy, hfin, hset] at hb
      simp at hb

/-- The tail of a chain settles, or is forgotten. -/
theorem Inv.tails (h : w.Inv) {g : Gate String} (hg : g.Inv)
    (hnext : g.tickets.next = w.operationTails.tickets.next)
    (htickets : ∀ j t, w.operationTails.tickets.get j = some t → ∃ t', g.tickets.get j = some t' ∧
      t'.key = t.key ∧ t'.entered = t.entered ∧ t'.released = t.released) :
    Inv { w with operationTails := g } := by
  refine ⟨hg, hnext.trans h.tickets, ?_, h.wellFormed, h.deletions, h.quarantined, h.clean,
    h.recovering⟩
  intro j u hu
  obtain ⟨t, ht, hk, he, hr⟩ := h.ticket j u hu
  obtain ⟨t', ht', hk', he', hr'⟩ := htickets j t ht
  exact ⟨t', ht', hk'.trans hk, he'.trans he, hr'.trans hr⟩

theorem Inv.step (h : w.Inv) {a : Action} (hs : step w a = some w') : w'.Inv := by
  cases a with
  | call accountId key kind =>
    obtain rfl := Option.some.inj hs
    exact h.call accountId key kind
  | enter i =>
    obtain ⟨op, hop, hs⟩ := Option.bind_eq_some_iff.mp hs
    obtain ⟨g, hg, hs⟩ := Option.bind_eq_some_iff.mp hs
    obtain rfl := Option.some.inj hs
    exact h.enter hop hg
  | resume i =>
    obtain ⟨op, hop, hs⟩ := Option.bind_eq_some_iff.mp hs
    split at hs
    · rename_i hp
      obtain rfl := Option.some.inj hs
      exact h.resume hop (by rw [hp]; rfl)
    · cases hs
  | answer i answer =>
    obtain ⟨op, hop, hs⟩ := Option.bind_eq_some_iff.mp hs
    exact h.resumeWith hop hs
  | commit i =>
    obtain ⟨op, hop, hs⟩ := Option.bind_eq_some_iff.mp hs
    obtain ⟨r, hr, hs⟩ := Option.bind_eq_some_iff.mp hs
    obtain rfl := Option.some.inj hs
    exact h.commit hop hr
  | rollback i =>
    obtain ⟨op, hop, hs⟩ := Option.bind_eq_some_iff.mp hs
    obtain ⟨r, hr, hs⟩ := Option.bind_eq_some_iff.mp hs
    obtain rfl := Option.some.inj hs
    exact h.rollback hop hr
  | rolledBack i answer =>
    obtain ⟨op, hop, hs⟩ := Option.bind_eq_some_iff.mp hs
    obtain ⟨r, hr, hs⟩ := Option.bind_eq_some_iff.mp hs
    split at hs
    · obtain rfl := Option.some.inj hs
      exact h.rolledBack hop hr ‹_› answer
    · cases hs
  | settleTail i =>
    obtain ⟨g, hg, hs⟩ := Option.bind_eq_some_iff.mp hs
    obtain rfl := Option.some.inj hs
    refine h.tails (h.gate.settleTail hg) ?_ ?_
    · exact (Gate.settleTail_tickets hg).1
    · exact (Gate.settleTail_tickets hg).2
  | forgetTail i =>
    obtain ⟨g, hg, hs⟩ := Option.bind_eq_some_iff.mp hs
    obtain rfl := Option.some.inj hs
    have hsame := Gate.forgetTail_tickets hg
    exact h.tails (h.gate.forgetTail hg) (by rw [hsame]) fun j t ht =>
      ⟨t, by rw [hsame, ht], rfl, rfl, rfl⟩

end OutcomeStore

end Webchannel.Outcome
