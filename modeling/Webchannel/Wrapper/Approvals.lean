import Webchannel.Lib.OrderedMap
import Webchannel.Lib.Runs

/-!
# Approval cards in the browser

The approval reducers of the wrapper and `decide`. Every `setState` calls the state listeners and
a publication that fails does too, so a call is run in pieces: what is left of it waits on a
stack while listeners decide other cards. The snapshot reducer goes on with the array that it
read before it sent the lost decisions again.
-/

namespace Webchannel.Wrapper.Approvals

open Webchannel.Runs

inductive ApprovalDecision where
  | allowOnce
  | allowAlways
  | deny
  deriving DecidableEq, Repr

/-- `resolvedDecision`: a decision, or the sentinel for an outcome that nobody told us. -/
inductive Resolution where
  | decided (decision : ApprovalDecision)
  | unknown
  deriving DecidableEq, Repr

inductive ApprovalKind where
  | exec
  | plugin
  deriving DecidableEq, Repr

structure ApprovalOption where
  decision : ApprovalDecision
  label : String
  style : String
  deriving DecidableEq, Repr

structure ApprovalRequest where
  id : String
  kind : ApprovalKind
  title : String
  description : Option String
  prompt : String
  options : List ApprovalOption
  expiresAtMs : Option Nat
  /-- `none` while the card is actionable -/
  resolvedDecision : Option Resolution
  resolutionConfirmed : Bool
  deriving DecidableEq, Repr

/-- The fields of a card as a frame carries them. -/
structure ApprovalPayload where
  id : Option String
  kind : Option ApprovalKind
  title : Option String
  description : Option String
  prompt : Option String
  options : Option (List ApprovalOption)
  expiresAtMs : Option Nat
  deriving DecidableEq, Repr

def ApprovalPayload.request (p : ApprovalPayload) : ApprovalRequest where
  id := p.id.getD ""
  kind := p.kind.getD .exec
  title := p.title.getD ""
  description := p.description
  prompt := p.prompt.getD ""
  options := p.options.getD []
  expiresAtMs := p.expiresAtMs
  resolvedDecision := none
  resolutionConfirmed := false

/-! ## The reducers -/

/-- A card that is delivered again keeps its resolution. -/
def carryResolution (req prev : ApprovalRequest) : ApprovalRequest :=
  if prev.resolvedDecision.isSome then
    { req with
      resolvedDecision := prev.resolvedDecision
      resolutionConfirmed := prev.resolutionConfirmed }
  else req

def upsertRequest (approvals : List ApprovalRequest) (req : ApprovalRequest) : List ApprovalRequest :=
  match approvals.findIdx? (·.id = req.id) with
  | none => approvals ++ [req]
  | some idx => approvals.modify idx (carryResolution req)

def patchApproval (approvals : List ApprovalRequest) (id : String) (update : ApprovalRequest → ApprovalRequest) :
    List ApprovalRequest :=
  approvals.map fun a => if a.id = id then update a else a

/-- `approval_resolved`. -/
def confirm (decision : Option ApprovalDecision) (a : ApprovalRequest) : ApprovalRequest :=
  { a with resolvedDecision := decision.map .decided, resolutionConfirmed := true }

/-- The optimistic update of `decide`. -/
def decideLocally (decision : ApprovalDecision) (a : ApprovalRequest) : ApprovalRequest :=
  if a.resolvedDecision = none then { a with resolvedDecision := some (.decided decision) } else a

structure SnapshotFrame where
  approvals : List ApprovalPayload
  /-- the recently resolved ids with their outcomes -/
  resolved : List (Option String × Option ApprovalDecision)
  deriving DecidableEq, Repr

namespace SnapshotFrame

variable (f : SnapshotFrame)

def snapshotById : OrderedMap String ApprovalRequest :=
  f.approvals.foldl (fun m p => if p.id.getD "" = "" then m else m.set p.request.id p.request) .empty

def resolvedById : OrderedMap String (Option ApprovalDecision) :=
  f.resolved.foldl (fun m r => if r.1.getD "" = "" then m else m.set (r.1.getD "") r.2) .empty

/-- The pending entry of an id; an id that is listed as resolved too is terminal. -/
def snap (id : String) : Option ApprovalRequest :=
  if f.resolvedById.has id then none else f.snapshotById.get id

def outcome (id : String) : Option ApprovalDecision := (f.resolvedById.get id).getD none

end SnapshotFrame

/-- What the loop does with one local card. -/
structure Reconciled where
  card : ApprovalRequest
  changed : Bool
  /-- the lost decision -/
  resend : Option ApprovalDecision
  deriving DecidableEq, Repr

def reconcile (f : SnapshotFrame) (a : ApprovalRequest) : Reconciled :=
  match f.snap a.id, a.resolvedDecision with
  | some _, none => ⟨a, false, none⟩
  | some _, some (.decided decision) =>
    if a.resolutionConfirmed = false then ⟨a, false, some decision⟩ else ⟨a, false, none⟩
  | some _, some .unknown => ⟨a, false, none⟩
  | none, none =>
    ⟨{ a with
        resolvedDecision := some (((f.outcome a.id).map Resolution.decided).getD .unknown)
        resolutionConfirmed := true }, true, none⟩
  | none, some resolution =>
    if a.resolutionConfirmed = false then
      ⟨{ a with
          resolvedDecision := some (((f.outcome a.id).map Resolution.decided).getD resolution)
          resolutionConfirmed := true }, true, none⟩
    else ⟨a, false, none⟩

/-- Pending ids without a local card. -/
def rehydrated (f : SnapshotFrame) (existing : List ApprovalRequest) : List ApprovalRequest :=
  f.snapshotById.values.filter fun p => existing.all (·.id ≠ p.id) && !f.resolvedById.has p.id

def nextApprovals (f : SnapshotFrame) (existing : List ApprovalRequest) : List ApprovalRequest :=
  existing.map (fun a => (reconcile f a).card) ++ rehydrated f existing

def brings (f : SnapshotFrame) (existing : List ApprovalRequest) : Bool :=
  existing.any (fun a => (reconcile f a).changed) || !(rehydrated f existing).isEmpty

def resends (f : SnapshotFrame) (existing : List ApprovalRequest) : List (String × ApprovalDecision) :=
  existing.filterMap fun a => (reconcile f a).resend.map fun decision => (a.id, decision)

/-! ## Calls in pieces -/

/-- What waits on the stack. -/
inductive Pending where
  /-- listeners run; they may call in again -/
  | callout
  /-- `decide` behind its state update -/
  | send (id : String) (decision : ApprovalDecision)
  deriving DecidableEq, Repr

/-- A snapshot in progress: what it has read, and the decisions it still has to send again. -/
structure Reconciliation where
  frame : SnapshotFrame
  existing : List ApprovalRequest
  resends : List (String × ApprovalDecision)
  deriving DecidableEq, Repr

structure World where
  approvals : List ApprovalRequest
  snapshot : Option Reconciliation
  /-- above the snapshot, the innermost call first -/
  stack : List Pending
  deriving DecidableEq, Repr

inductive Action where
  | approvalRequest (p : ApprovalPayload)
  | approvalResolved (id : Option String) (decision : Option ApprovalDecision)
  | approvalSnapshot (f : SnapshotFrame)
  /-- `deferred`: the decision has been queued for the replacement connection -/
  | decide (id : String) (decision : ApprovalDecision) (deferred : Bool)
  /-- a connection event or any other call that notifies the listeners -/
  | other
  /-- the listeners are done -/
  | ret
  /-- the innermost call goes on -/
  | proceed
  deriving DecidableEq, Repr

namespace World

variable (w : World)

/-- Frames are delivered one at a time. -/
def idle : Bool := w.snapshot.isNone && w.stack.isEmpty

/-- A public method may be called: from outside, or by a listener. -/
def callable : Bool := w.idle || w.stack.head? = some .callout

/-- `setState({ approvals })`. -/
def setApprovals (approvals : List ApprovalRequest) : World :=
  { w with approvals := approvals, stack := .callout :: w.stack }

end World

def step (w : World) : Action → Option World
  | .approvalRequest p => if w.idle then some (w.setApprovals (upsertRequest w.approvals p.request)) else none
  | .approvalResolved id decision =>
    if w.idle then some (w.setApprovals (patchApproval w.approvals (id.getD "") (confirm decision))) else none
  | .approvalSnapshot f =>
    if w.idle then some { w with snapshot := some ⟨f, w.approvals, resends f w.approvals⟩ } else none
  | .decide id decision deferred =>
    if w.callable then
      some ({ w with stack := (if deferred then [] else [Pending.send id decision]) ++ w.stack }.setApprovals
        (patchApproval w.approvals id (decideLocally decision)))
    else none
  | .other => if w.callable then some { w with stack := .callout :: w.stack } else none
  | .ret =>
    match w.stack with
    | .callout :: rest => some { w with stack := rest }
    | _ => none
  | .proceed =>
    match w.stack, w.snapshot with
    -- The publication may fail and notify the listeners.
    | .send _ _ :: rest, _ => some { w with stack := .callout :: rest }
    | [], some ⟨f, existing, _ :: rest⟩ =>
      some { w with snapshot := some ⟨f, existing, rest⟩, stack := [.callout] }
    | [], some ⟨f, existing, []⟩ =>
      let done := { w with snapshot := none }
      some (if brings f existing then done.setApprovals (nextApprovals f existing) else done)
    | _, _ => none

def initial : World := ⟨[], none, []⟩

/-! ## What a card keeps -/

/-- A confirmed card shows a resolution. -/
def CardOk (a : ApprovalRequest) : Prop := a.resolutionConfirmed = true → a.resolvedDecision ≠ none

/-- The card `b` is a later state of the card `a`; the server has just resolved the `overridden`
ones. -/
structure Later (overridden : String → Prop) (a b : ApprovalRequest) : Prop where
  id : b.id = a.id
  resolved : a.resolvedDecision ≠ none → b.resolvedDecision ≠ none
  confirmed : ¬ overridden a.id → a.resolutionConfirmed = true →
    b.resolvedDecision = a.resolvedDecision ∧ b.resolutionConfirmed = true
  ok : CardOk b

/-- Every card is still there, and new ones are at the end. -/
def Grown (overridden : String → Prop) (s t : List ApprovalRequest) : Prop :=
  ∃ kept added, List.Forall₂ (Later overridden) s kept ∧ t = kept ++ added ∧ ∀ b ∈ added, CardOk b

variable {overridden : String → Prop} {s t : List ApprovalRequest}

theorem Later.refl {a : ApprovalRequest} (h : CardOk a) : Later overridden a a :=
  ⟨rfl, fun h => h, fun _ h => ⟨rfl, h⟩, h⟩

theorem ids_of_later (h : List.Forall₂ (Later overridden) s t) : t.map (·.id) = s.map (·.id) := by
  induction h with
  | nil => rfl
  | cons hab _ ih => rw [List.map_cons, List.map_cons, hab.id, ih]

theorem forall₂_map {g : ApprovalRequest → ApprovalRequest}
    (h : ∀ a ∈ s, Later overridden a (g a)) : List.Forall₂ (Later overridden) s (s.map g) := by
  induction s with
  | nil => exact .nil
  | cons a s ih => exact .cons (h a (.head _)) (ih fun b hb => h b (.tail _ hb))

theorem forall₂_refl (h : ∀ a ∈ s, CardOk a) : List.Forall₂ (Later overridden) s s :=
  List.forall₂_same.mpr fun a ha => .refl (h a ha)

theorem forall₂_modify {g : ApprovalRequest → ApprovalRequest} {i : Nat} (hok : ∀ a ∈ s, CardOk a)
    (h : ∀ a ∈ s, s[i]? = some a → Later overridden a (g a)) :
    List.Forall₂ (Later overridden) s (s.modify i g) := by
  induction s generalizing i with
  | nil => rw [List.modify_nil]; exact .nil
  | cons a s ih =>
    have hrest (b : ApprovalRequest) (hb : b ∈ s) : CardOk b := hok b (.tail _ hb)
    cases i with
    | zero => exact .cons (h a (.head _) rfl) (forall₂_refl hrest)
    | succ i => exact .cons (.refl (hok a (.head _))) (ih hrest fun b hb => h b (.tail _ hb))

theorem later_decide {a : ApprovalRequest} (h : CardOk a) (decision : ApprovalDecision) :
    Later overridden a (decideLocally decision a) := by
  unfold decideLocally
  split
  · rename_i hnone
    exact ⟨rfl, fun h => absurd hnone h, fun _ hc => absurd hnone (h hc), fun _ => by simp⟩
  · exact .refl h

theorem decideLocally_id (decision : ApprovalDecision) (a : ApprovalRequest) :
    (decideLocally decision a).id = a.id := by
  unfold decideLocally
  split <;> rfl

theorem later_confirm {a : ApprovalRequest} {decision : Option ApprovalDecision}
    (hd : decision.isSome = true) (hover : overridden a.id) : Later overridden a (confirm decision a) := by
  have hsome : (confirm decision a).resolvedDecision ≠ none := by
    obtain ⟨d, rfl⟩ := Option.isSome_iff_exists.mp hd
    simp [confirm]
  exact ⟨rfl, fun _ => hsome, fun h => absurd hover h, fun _ => hsome⟩

/-- A card on the list as the snapshot read it. -/
theorem later_reconcile {a : ApprovalRequest} (h : CardOk a) (f : SnapshotFrame) :
    Later overridden a (reconcile f a).card := by
  unfold reconcile
  split
  · exact .refl h
  · split <;> exact .refl h
  · exact .refl h
  · rename_i hnone
    exact ⟨rfl, fun h => absurd hnone h, fun _ hc => absurd hnone (h hc), fun _ => by simp⟩
  · split
    · rename_i hconfirmed
      refine ⟨rfl, fun _ => by simp, fun _ hc => ?_, fun _ => by simp⟩
      rw [hc] at hconfirmed
      cases hconfirmed
    · exact .refl h

theorem later_carry {prev req : ApprovalRequest} (h : CardOk prev) (hreq : CardOk req)
    (hid : prev.id = req.id) : Later overridden prev (carryResolution req prev) := by
  unfold carryResolution
  split
  · exact ⟨hid.symm, fun h => h, fun _ hc => ⟨rfl, hc⟩, h⟩
  · rename_i hsome
    have hnone : prev.resolvedDecision = none := by simpa using hsome
    exact ⟨hid.symm, fun h => absurd hnone h, fun _ hc => absurd hnone (h hc), hreq⟩

/-! ## Each reducer -/

theorem cardOk_request (p : ApprovalPayload) : CardOk p.request := fun hc => by cases hc

theorem grown_upsert (hok : ∀ a ∈ s, CardOk a) (p : ApprovalPayload) :
    Grown overridden s (upsertRequest s p.request) := by
  unfold upsertRequest
  split
  · refine ⟨s, [p.request], forall₂_refl hok, rfl, fun b hb => ?_⟩
    obtain rfl : b = p.request := by simpa using hb
    exact cardOk_request p
  · rename_i idx hidx
    refine ⟨_, [], ?_, (List.append_nil _).symm, by simp⟩
    refine forall₂_modify hok fun a ha hget => later_carry (hok a ha) (cardOk_request p) ?_
    obtain ⟨hlt, hp, -⟩ := List.findIdx?_eq_some_iff_getElem.mp hidx
    rw [List.getElem?_eq_getElem hlt] at hget
    cases hget
    simpa using hp

theorem grown_patch {id : String} {update : ApprovalRequest → ApprovalRequest} (hok : ∀ a ∈ s, CardOk a)
    (h : ∀ a, CardOk a → a.id = id → Later overridden a (update a)) :
    Grown overridden s (patchApproval s id update) := by
  refine ⟨_, [], ?_, (List.append_nil _).symm, by simp⟩
  refine forall₂_map fun a ha => ?_
  split
  · exact h a (hok a ha) ‹_›
  · exact .refl (hok a ha)

theorem snapshotById_spec (f : SnapshotFrame) (id : String) (p : ApprovalRequest)
    (h : f.snapshotById.get id = some p) : p.id = id ∧ CardOk p := by
  have hfold (l : List ApprovalPayload) (m : OrderedMap String ApprovalRequest)
      (hm : ∀ id p, m.get id = some p → p.id = id ∧ CardOk p) :
      ∀ id p, (l.foldl (fun m p => if p.id.getD "" = "" then m else m.set p.request.id p.request) m).get id =
        some p → p.id = id ∧ CardOk p := by
    induction l generalizing m with
    | nil => exact hm
    | cons x l ih =>
      refine ih _ fun id p hp => ?_
      dsimp only at hp
      split at hp
      · exact hm id p hp
      · rw [OrderedMap.get_set_eq] at hp
        split at hp
        · cases hp
          exact ⟨by simp [*], cardOk_request x⟩
        · exact hm id p hp
  exact hfold f.approvals .empty (fun id p hp => by cases hp) id p h

/-- The ids of the pending cards are the keys of the map. -/
theorem ids_snapshotById (f : SnapshotFrame) : f.snapshotById.values.map (·.id) = f.snapshotById.keys := by
  unfold OrderedMap.values OrderedMap.keys
  rw [List.map_map]
  refine List.map_congr_left fun e he => ?_
  exact (snapshotById_spec f e.1 e.2 (OrderedMap.mem_entries.mp he)).1

theorem cardOk_rehydrated {f : SnapshotFrame} {existing : List ApprovalRequest} {b : ApprovalRequest}
    (h : b ∈ rehydrated f existing) : CardOk b := by
  obtain ⟨id, hid⟩ := OrderedMap.mem_values.mp (List.mem_of_mem_filter h)
  exact (snapshotById_spec f id b hid).2

/-! ## Runs -/

/-- A frame that resolves a card carries the decision. -/
def WellFormed : Action → Prop
  | .approvalResolved _ decision => decision.isSome = true
  | _ => True

/-- While a snapshot that brings a change sends the lost decisions again, no listener decides a card
that is still actionable and that the snapshot lists as pending. -/
def Undisturbed (w : World) (a : Action) : Prop :=
  ∀ id decision deferred r, a = .decide id decision deferred → w.snapshot = some r →
    brings r.frame r.existing = true → (∃ b ∈ w.approvals, b.id = id ∧ b.resolvedDecision = none) →
      r.frame.snap id = none

/-- The cards that a frame of the server resolves. -/
def Action.resolves : Action → String → Prop
  | .approvalResolved id _, target => id.getD "" = target
  | _, _ => False

/-- What has become of a card since the snapshot read it: it may have been decided. -/
def Since (r : Reconciliation) (a b : ApprovalRequest) : Prop :=
  b = a ∨ (a.resolvedDecision = none ∧ b.id = a.id ∧ b.resolutionConfirmed = false ∧
    (brings r.frame r.existing = true → r.frame.snap a.id = none))

structure Inv (w : World) : Prop where
  ids : (w.approvals.map (·.id)).Nodup
  ok : ∀ a ∈ w.approvals, CardOk a
  snapshot : ∀ r, w.snapshot = some r → List.Forall₂ (Since r) r.existing w.approvals

theorem inv_initial : Inv initial := ⟨List.nodup_nil, by simp [initial], fun r h => by cases h⟩

theorem ok_of_later (h : List.Forall₂ (Later overridden) s t) : ∀ b ∈ t, CardOk b := by
  induction h with
  | nil => simp
  | cons hab _ ih => simpa using ⟨hab.ok, ih⟩

theorem Grown.ok (h : Grown overridden s t) : ∀ b ∈ t, CardOk b := by
  obtain ⟨kept, added, hkept, rfl, hadded⟩ := h
  intro b hb
  rcases List.mem_append.mp hb with hb | hb
  · exact ok_of_later hkept b hb
  · exact hadded b hb

theorem Grown.later (h : Grown overridden s t) {a : ApprovalRequest} (ha : a ∈ s) :
    ∃ b ∈ t, Later overridden a b := by
  obtain ⟨kept, added, hkept, rfl, -⟩ := h
  induction hkept with
  | nil => cases ha
  | cons hab _ ih =>
    cases ha with
    | head => exact ⟨_, .head _, hab⟩
    | tail _ ha =>
      obtain ⟨b, hb, hlater⟩ := ih ha
      exact ⟨b, .tail _ hb, hlater⟩

theorem grown_refl (hok : ∀ a ∈ s, CardOk a) : Grown overridden s s :=
  ⟨s, [], forall₂_refl hok, (List.append_nil s).symm, by simp⟩

theorem ids_upsert (hok : ∀ a ∈ s, CardOk a) (h : (s.map (·.id)).Nodup) (p : ApprovalPayload) :
    ((upsertRequest s p.request).map (·.id)).Nodup := by
  unfold upsertRequest
  split
  · rename_i hidx
    rw [List.map_append, List.nodup_append]
    refine ⟨h, by simp, fun id hid id' hid' => ?_⟩
    obtain ⟨a, ha, rfl⟩ := List.mem_map.mp hid
    have hne : a.id ≠ p.request.id := by simpa using List.findIdx?_eq_none_iff.mp hidx a ha
    obtain rfl : id' = p.request.id := by simpa using hid'
    exact hne
  · rename_i idx hidx
    have hmodify : List.Forall₂ (Later fun _ => False) s (s.modify idx (carryResolution p.request)) := by
      refine forall₂_modify hok fun a ha hget => later_carry (hok a ha) (cardOk_request p) ?_
      obtain ⟨hlt, hp, -⟩ := List.findIdx?_eq_some_iff_getElem.mp hidx
      rw [List.getElem?_eq_getElem hlt] at hget
      cases hget
      simpa using hp
    rw [ids_of_later hmodify]
    exact h

theorem ids_patch (id : String) (update : ApprovalRequest → ApprovalRequest)
    (h : ∀ a, (update a).id = a.id) : (patchApproval s id update).map (·.id) = s.map (·.id) := by
  unfold patchApproval
  rw [List.map_map]
  refine List.map_congr_left fun a _ => ?_
  change (if a.id = id then update a else a).id = a.id
  split
  · exact h a
  · rfl

theorem reconcile_id (f : SnapshotFrame) (a : ApprovalRequest) : (reconcile f a).card.id = a.id := by
  unfold reconcile
  split
  · rfl
  · split <;> rfl
  · rfl
  · rfl
  · split <;> rfl

theorem ids_next {f : SnapshotFrame} {existing : List ApprovalRequest}
    (h : (existing.map (·.id)).Nodup) : ((nextApprovals f existing).map (·.id)).Nodup := by
  have hkept : (existing.map fun a => (reconcile f a).card).map (·.id) = existing.map (·.id) := by
    rw [List.map_map]
    exact List.map_congr_left fun a _ => reconcile_id f a
  have hadded : ((rehydrated f existing).map (·.id)).Nodup := by
    refine List.Nodup.sublist (List.filter_sublist.map _) ?_
    rw [ids_snapshotById]
    exact OrderedMap.keys_nodup _
  unfold nextApprovals
  rw [List.map_append, hkept, List.nodup_append]
  refine ⟨h, hadded, fun id hid id' hid' => ?_⟩
  obtain ⟨a, ha, rfl⟩ := List.mem_map.mp hid
  obtain ⟨b, hb, rfl⟩ := List.mem_map.mp hid'
  have hnew := (List.mem_filter.mp hb).2
  simp only [Bool.and_eq_true, List.all_eq_true] at hnew
  simpa using hnew.1 a ha

/-- A card that was decided since, and that the snapshot does not list as pending, is resolved. -/
theorem later_since {r : Reconciliation} {a b : ApprovalRequest} (hbrings : brings r.frame r.existing = true)
    (h : Since r a b) (hok : CardOk b) : Later overridden b (reconcile r.frame a).card := by
  rcases h with rfl | ⟨hnone, hid, hconfirmed, hsnap⟩
  · exact later_reconcile hok _
  · have hcard : (reconcile r.frame a).card.resolvedDecision ≠ none := by
      unfold reconcile
      rw [hsnap hbrings, hnone]
      simp
    refine ⟨(reconcile_id _ a).trans hid.symm, fun _ => hcard, fun _ hc => ?_, fun _ => hcard⟩
    rw [hconfirmed] at hc
    cases hc

/-- The snapshot writes from the list that it has read, and cards have only been decided since. -/
theorem grown_next {r : Reconciliation} (hbrings : brings r.frame r.existing = true)
    (hsince : List.Forall₂ (Since r) r.existing s) (hok : ∀ a ∈ s, CardOk a) :
    Grown overridden s (nextApprovals r.frame r.existing) := by
  have hkept (l s : List ApprovalRequest) (hl : List.Forall₂ (Since r) l s) (hok : ∀ a ∈ s, CardOk a) :
      List.Forall₂ (Later overridden) s (l.map fun a => (reconcile r.frame a).card) := by
    induction hl with
    | nil => exact .nil
    | cons hab _ ih =>
      exact .cons (later_since hbrings hab (hok _ (.head _))) (ih fun a ha => hok a (.tail _ ha))
  exact ⟨_, _, hkept _ s hsince hok, rfl, fun b hb => cardOk_rehydrated hb⟩

theorem ids_of_since {r : Reconciliation} (h : List.Forall₂ (Since r) s t) :
    t.map (·.id) = s.map (·.id) := by
  induction h with
  | nil => rfl
  | cons hab _ ih =>
    rw [List.map_cons, List.map_cons, ih]
    rcases hab with rfl | ⟨-, hid, -⟩
    · rfl
    · rw [hid]

/-- A decision that a listener makes while a snapshot is in progress. -/
theorem since_decide {w : World} (h : Inv w) {id : String} {decision : ApprovalDecision} {deferred : Bool}
    (hquiet : Undisturbed w (.decide id decision deferred)) {r : Reconciliation} (hr : w.snapshot = some r) :
    List.Forall₂ (Since r) r.existing (patchApproval w.approvals id (decideLocally decision)) := by
  have hcard (a b : ApprovalRequest) (hab : Since r a b) (hb : b ∈ w.approvals) :
      Since r a (if b.id = id then decideLocally decision b else b) := by
    unfold decideLocally
    split
    · rename_i hid
      split
      · rename_i hnone
        have hconfirmed : b.resolutionConfirmed = false :=
          Bool.eq_false_iff.mpr fun hc => h.ok b hb hc hnone
        rcases hab with rfl | ⟨ha, hid', -, hsnap⟩
        · refine .inr ⟨hnone, rfl, hconfirmed, fun hbrings => ?_⟩
          rw [hid]
          exact hquiet id decision deferred r rfl hr hbrings ⟨b, hb, hid, hnone⟩
        · exact .inr ⟨ha, hid', hconfirmed, hsnap⟩
      · exact hab
    · exact hab
  have hcards (l s : List ApprovalRequest) (hl : List.Forall₂ (Since r) l s) (hs : ∀ a ∈ s, a ∈ w.approvals) :
      List.Forall₂ (Since r) l (patchApproval s id (decideLocally decision)) := by
    induction hl with
    | nil => exact .nil
    | @cons a b l s hab _ ih =>
      exact .cons (hcard a b hab (hs b (.head _))) (ih fun a ha => hs a (.tail _ ha))
  exact hcards _ _ (h.snapshot r hr) fun a ha => ha

theorem idle_snapshot {w : World} (h : w.idle = true) : w.snapshot = none := by
  have := Bool.and_eq_true_iff.mp h
  simpa using this.1

/-- One step keeps the invariant and every card. -/
theorem step_grown {w t : World} {a : Action} (h : Inv w) (hwf : WellFormed a) (hquiet : Undisturbed w a)
    (hstep : step w a = some t) : Inv t ∧ Grown a.resolves w.approvals t.approvals := by
  -- A step that does not touch the cards.
  have hsame {t : World} (happrovals : t.approvals = w.approvals)
      (hsnapshot : ∀ r, t.snapshot = some r → List.Forall₂ (Since r) r.existing w.approvals) :
      Inv t ∧ Grown a.resolves w.approvals t.approvals := by
    rw [happrovals]
    refine ⟨⟨?_, ?_, ?_⟩, grown_refl h.ok⟩
    · rw [happrovals]
      exact h.ids
    · rw [happrovals]
      exact h.ok
    · rw [happrovals]
      exact hsnapshot
  -- A frame is delivered when no snapshot is in progress.
  have hframe {t : World} (hidle : w.idle = true) (hsnapshot : t.snapshot = w.snapshot)
      (hids : (t.approvals.map (·.id)).Nodup) (hgrown : Grown a.resolves w.approvals t.approvals) :
      Inv t ∧ Grown a.resolves w.approvals t.approvals := by
    refine ⟨⟨hids, hgrown.ok, fun r hr => ?_⟩, hgrown⟩
    rw [hsnapshot, idle_snapshot hidle] at hr
    cases hr
  cases a with
  | approvalRequest p =>
    obtain ⟨hidle, rfl⟩ := Option.ite_none_right_eq_some.mp hstep |>.imp_right Option.some.inj
    have hgrown : Grown (fun _ => False) w.approvals (upsertRequest w.approvals p.request) :=
      grown_upsert h.ok p
    exact hframe hidle rfl (ids_upsert h.ok h.ids p) hgrown
  | approvalResolved id decision =>
    obtain ⟨hidle, rfl⟩ := Option.ite_none_right_eq_some.mp hstep |>.imp_right Option.some.inj
    have hgrown : Grown (id.getD "" = ·) w.approvals
        (patchApproval w.approvals (id.getD "") (confirm decision)) :=
      grown_patch h.ok fun a _ ha => later_confirm hwf ha.symm
    have hids : ((patchApproval w.approvals (id.getD "") (confirm decision)).map (·.id)).Nodup := by
      rw [ids_patch _ (confirm decision) fun _ => rfl]
      exact h.ids
    exact hframe hidle rfl hids hgrown
  | approvalSnapshot f =>
    obtain ⟨hidle, rfl⟩ := Option.ite_none_right_eq_some.mp hstep |>.imp_right Option.some.inj
    refine hsame rfl ?_
    rintro r ⟨⟩
    exact List.forall₂_same.mpr fun a _ => .inl rfl
  | decide id decision deferred =>
    obtain ⟨hcallable, rfl⟩ := Option.ite_none_right_eq_some.mp hstep |>.imp_right Option.some.inj
    have hgrown : Grown (fun _ => False) w.approvals
        (patchApproval w.approvals id (decideLocally decision)) :=
      grown_patch h.ok fun a ha _ => later_decide ha decision
    have hids : ((patchApproval w.approvals id (decideLocally decision)).map (·.id)).Nodup := by
      rw [ids_patch _ (decideLocally decision) fun a => decideLocally_id decision a]
      exact h.ids
    have hsince (r : Reconciliation) (hr : w.snapshot = some r) :
        List.Forall₂ (Since r) r.existing (patchApproval w.approvals id (decideLocally decision)) :=
      since_decide h hquiet hr
    exact ⟨⟨hids, hgrown.ok, hsince⟩, hgrown⟩
  | other =>
    obtain ⟨_, rfl⟩ := Option.ite_none_right_eq_some.mp hstep |>.imp_right Option.some.inj
    exact hsame rfl h.snapshot
  | ret =>
    simp only [step] at hstep
    split at hstep
    · cases hstep
      exact hsame rfl h.snapshot
    · cases hstep
  | proceed =>
    simp only [step] at hstep
    split at hstep
    · cases hstep
      exact hsame rfl h.snapshot
    · rename_i hr
      cases hstep
      have hsince := h.snapshot _ hr
      refine hsame rfl ?_
      rintro r ⟨⟩
      exact hsince
    · rename_i f existing _ hr
      have hsince := h.snapshot _ hr
      cases hstep
      split
      · rename_i hbrings
        have hgrown : Grown (fun _ => False) w.approvals (nextApprovals f existing) :=
          grown_next (r := ⟨f, existing, []⟩) hbrings hsince h.ok
        refine ⟨⟨ids_next ?_, hgrown.ok, fun r hr => by cases hr⟩, hgrown⟩
        rw [← ids_of_since hsince]
        exact h.ids
      · exact hsame rfl fun r hr => by cases hr
    · cases hstep

def Calm (w : World) (a : Action) : Prop := WellFormed a ∧ Undisturbed w a

theorem calm_of_snapshot_none {w : World} {a : Action} (ha : WellFormed a) (h : w.snapshot = none) : Calm w a :=
  ⟨ha, fun _ _ _ r _ hr => by rw [h] at hr; cases hr⟩

theorem inv_reached {w : World} (h : ReachedBy step Calm initial w) : Inv w :=
  h.invariant inv_initial fun _ _ _ hs hcalm hstep => (step_grown hs hcalm.1 hcalm.2 hstep).1

/-- What the cards of `s` have become in `t`, where `ok` says which steps lie in between. -/
structure Retained (ok : World → Action → Prop) (s t : World) : Prop where
  ids : (t.approvals.map (·.id)).Nodup
  /-- a card that was resolved is not actionable again -/
  resolved : ∀ a ∈ s.approvals, a.resolvedDecision ≠ none →
    ∃ b ∈ t.approvals, b.id = a.id ∧ b.resolvedDecision ≠ none
  /-- a confirmed decision changes only by a frame that resolves the card -/
  confirmed : ∀ a ∈ s.approvals, a.resolutionConfirmed = true →
    ReachedBy step (fun w x => ok w x ∧ ¬ x.resolves a.id) s t →
    ∃ b ∈ t.approvals, b.id = a.id ∧ b.resolvedDecision = a.resolvedDecision ∧ b.resolutionConfirmed = true

/-- From any reachable state on, resolutions are kept. -/
theorem resolution_retained {s t : World} (hs : ReachedBy step Calm initial s)
    (ht : ReachedBy step Calm s t) : Retained Calm s t := by
  refine ⟨(inv_reached (hs.trans ht)).ids, fun a ha hresolved => ?_, fun a ha hconfirmed hrun => ?_⟩
  · have hcard : Inv t ∧ ∃ b ∈ t.approvals, b.id = a.id ∧ b.resolvedDecision ≠ none := by
      refine ht.invariant (I := fun t => Inv t ∧ ∃ b ∈ t.approvals, b.id = a.id ∧ b.resolvedDecision ≠ none)
        ⟨inv_reached hs, a, ha, rfl, hresolved⟩ ?_
      rintro u x v ⟨hinv, b, hb, hid, hb'⟩ hcalm hstep
      obtain ⟨hinv', hgrown⟩ := step_grown hinv hcalm.1 hcalm.2 hstep
      obtain ⟨b', hmem, hlater⟩ := hgrown.later hb
      exact ⟨hinv', b', hmem, hlater.id.trans hid, hlater.resolved hb'⟩
    exact hcard.2
  · have hcard : Inv t ∧ ∃ b ∈ t.approvals, b.id = a.id ∧ b.resolvedDecision = a.resolvedDecision ∧
        b.resolutionConfirmed = true := by
      refine hrun.invariant (I := fun t => Inv t ∧ ∃ b ∈ t.approvals, b.id = a.id ∧
        b.resolvedDecision = a.resolvedDecision ∧ b.resolutionConfirmed = true)
        ⟨inv_reached hs, a, ha, rfl, rfl, hconfirmed⟩ ?_
      rintro u x v ⟨hinv, b, hb, hid, hdecision, hconfirmed⟩ ⟨hcalm, hother⟩ hstep
      obtain ⟨hinv', hgrown⟩ := step_grown hinv hcalm.1 hcalm.2 hstep
      obtain ⟨b', hmem, hlater⟩ := hgrown.later hb
      obtain ⟨hdecision', hconfirmed'⟩ := hlater.confirmed (by rw [hid]; exact hother) hconfirmed
      exact ⟨hinv', b', hmem, hlater.id.trans hid, hdecision'.trans hdecision, hconfirmed'⟩
    exact hcard.2

/-- A frame that asks for the approval `id`. -/
def card (id : String) : ApprovalPayload := ⟨some id, none, none, none, none, none, none⟩

/-- Two cards, and a decision on the first that the server has not confirmed. -/
def halfDecided : World :=
  ⟨[{ (card "a").request with resolvedDecision := some (.decided .deny) }, (card "b").request], none, []⟩

theorem halfDecided_reached : ReachedBy step Calm initial halfDecided := by
  have hfirst := (ReachedBy.start : ReachedBy step Calm initial initial).step
    (a := Action.approvalRequest (card "a")) (calm_of_snapshot_none trivial rfl) rfl
  have hsecond := (hfirst.step (a := Action.ret) (calm_of_snapshot_none trivial rfl) rfl).step
    (a := Action.approvalRequest (card "b")) (calm_of_snapshot_none trivial rfl) rfl
  have hdecided := (hsecond.step (a := Action.ret) (calm_of_snapshot_none trivial rfl) rfl).step
    (a := Action.decide "a" .deny false) (calm_of_snapshot_none trivial rfl) rfl
  have hsent := (hdecided.step (a := Action.ret) (calm_of_snapshot_none trivial rfl) rfl).step
    (a := Action.proceed) (calm_of_snapshot_none trivial rfl) rfl
  exact hsent.step (a := Action.ret) (calm_of_snapshot_none trivial rfl) rfl

/-- The snapshot lists both cards and a third one. -/
def snapshotOfThree : SnapshotFrame := ⟨[card "a", card "b", card "c"], []⟩

/-- Nobody disturbs the snapshot: the lost decision is sent again and the card stays resolved. -/
theorem resolution_retained_snapshot :
    ∃ t, ReachedBy step Calm halfDecided t ∧ t.approvals.map (·.id) = ["a", "b", "c"] ∧
      Retained Calm halfDecided t := by
  have hread := (ReachedBy.start : ReachedBy step Calm halfDecided halfDecided).step
    (a := Action.approvalSnapshot snapshotOfThree) ⟨trivial, fun _ _ _ _ h => by cases h⟩ rfl
  have hsent := hread.step (a := Action.proceed) ⟨trivial, fun _ _ _ _ h => by cases h⟩ rfl
  have hdone := (hsent.step (a := Action.ret) ⟨trivial, fun _ _ _ _ h => by cases h⟩ rfl).step
    (a := Action.proceed) ⟨trivial, fun _ _ _ _ h => by cases h⟩ rfl
  exact ⟨_, hdone, by decide, resolution_retained halfDecided_reached hdone⟩

/-- A listener decides the second card while the decision on the first is sent again; the snapshot
makes it actionable again. -/
theorem snapshot_revives_decided_card :
    ¬ ∀ s t, ReachedBy step (fun _ a => WellFormed a) initial s →
      ReachedBy step (fun _ a => WellFormed a) s t → Retained (fun _ a => WellFormed a) s t := by
  intro h
  have hstart : ReachedBy step (fun _ a => WellFormed a) initial halfDecided :=
    halfDecided_reached.mono fun _ _ hcalm => hcalm.1
  have hsent := (hstart.step (a := Action.approvalSnapshot snapshotOfThree) trivial rfl).step
    (a := Action.proceed) trivial rfl
  have hdecided := hsent.step (a := Action.decide "b" .deny false) trivial rfl
  have hback := (((hdecided.step (a := Action.ret) trivial rfl).step (a := Action.proceed) trivial rfl).step
    (a := Action.ret) trivial rfl).step (a := Action.ret) trivial rfl
  have hlost := (h _ _ hback (ReachedBy.start.step (a := Action.proceed) trivial rfl)).resolved
    { (card "b").request with resolvedDecision := some (.decided .deny) } (by decide) (by decide)
  revert hlost
  decide

end Webchannel.Wrapper.Approvals
