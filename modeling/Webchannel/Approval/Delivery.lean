import Webchannel.Lib.OrderedMap
import Webchannel.Lib.Runs

/-!
# Delivered approvals

The three stores of `approvals.ts`. A delivery writes the binding of an approval to its
account and the pending record that a snapshot shows again; a finalisation erases both and
records the outcome. The pending record belongs to an account and an approval, the binding
to an approval alone.
-/

namespace Webchannel.Approval

open Webchannel.Runs

inductive ApprovalDecision where
  | allowOnce
  | allowAlways
  | deny
  deriving DecidableEq, Repr

/-- The parts of an approval card that the stores read. -/
structure ApprovalRequestPayload where
  id : String
  expiresAtMs : Option Int
  deriving DecidableEq, Repr

structure PendingApprovalEntry where
  payload : ApprovalRequestPayload
  sessionKey : String
  accountKey : String
  deliveredAtMs : Int
  deriving DecidableEq, Repr

structure ResolvedApprovalEntry where
  id : String
  decision : ApprovalDecision
  sessionKey : String
  accountKey : String
  resolvedAtMs : Int
  deriving DecidableEq, Repr

/-- What `deliverPending` returns and `updateEntry` gets back. -/
structure DeliveredEntry where
  approvalId : String
  sessionKey : String
  accountId : Option String
  deriving DecidableEq, Repr

def approvalAccountBindingCap : Nat := 4096

def pendingApprovalCap : Nat := 512

def pendingApprovalMaxAgeMs : Int := 60 * 60 * 1000

def resolvedApprovalCap : Nat := 512

def resolvedApprovalMaxAgeMs : Int := 60 * 60 * 1000

def defaultWebchannelAccountId : String := "default"

def bindingAccountKey (accountId : Option String) : String :=
  accountId.getD defaultWebchannelAccountId

def pendingApprovalKey (accountId : Option String) (approvalId : String) : String :=
  bindingAccountKey accountId ++ "\u0000" ++ approvalId

structure Store where
  deliveredApprovalAccounts : OrderedMap String String
  pendingApprovals : OrderedMap String PendingApprovalEntry
  resolvedApprovals : OrderedMap String ResolvedApprovalEntry

/-- Why a decision does not reach the gateway. -/
inductive Refusal where
  | bindingMissing
  | crossAccount (boundAccount : String)
  | notApprover
  deriving DecidableEq, Repr

namespace Store

def init : Store := ⟨.empty, .empty, .empty⟩

def recordApprovalAccount (s : Store) (approvalId : String) (accountId : Option String) : Store :=
  { s with
    deliveredApprovalAccounts :=
      ((s.deliveredApprovalAccounts.delete approvalId).evict approvalAccountBindingCap).set approvalId
        (bindingAccountKey accountId) }

def recordPendingApproval (s : Store) (accountId : Option String) (payload : ApprovalRequestPayload)
    (sessionKey : String) (deliveredAtMs : Int) : Store :=
  let key := pendingApprovalKey accountId payload.id
  { s with
    pendingApprovals := ((s.pendingApprovals.delete key).evict pendingApprovalCap).set key
      ⟨payload, sessionKey, bindingAccountKey accountId, deliveredAtMs⟩ }

def deletePendingApproval (s : Store) (accountId : Option String) (approvalId : String) : Store :=
  { s with pendingApprovals := s.pendingApprovals.delete (pendingApprovalKey accountId approvalId) }

def recordResolvedApproval (s : Store) (accountId : Option String) (approvalId : String)
    (decision : ApprovalDecision) (sessionKey : String) (resolvedAtMs : Int) : Store :=
  let key := pendingApprovalKey accountId approvalId
  { s with
    resolvedApprovals := ((s.resolvedApprovals.delete key).evict resolvedApprovalCap).set key
      ⟨approvalId, decision, sessionKey, bindingAccountKey accountId, resolvedAtMs⟩ }

def deliverPending (s : Store) (accountId : Option String) (sessionKey : String)
    (pendingPayload : ApprovalRequestPayload) (now : Int) : DeliveredEntry × Store :=
  (⟨pendingPayload.id, sessionKey, accountId⟩,
    (s.recordApprovalAccount pendingPayload.id accountId).recordPendingApproval accountId pendingPayload
      sessionKey now)

def updateEntry (s : Store) (entry : DeliveredEntry) (decision : ApprovalDecision)
    (accountId : Option String) (now : Int) : Store :=
  let account := accountId <|> entry.accountId
  let s := { s with
    deliveredApprovalAccounts := s.deliveredApprovalAccounts.delete entry.approvalId }
  (s.deletePendingApproval account entry.approvalId).recordResolvedApproval account entry.approvalId
    decision entry.sessionKey now

end Store

/-- An entry that a read prunes: past its expiry, or without one and too old. -/
def PendingApprovalEntry.stale (entry : PendingApprovalEntry) (now : Int) : Bool :=
  match entry.payload.expiresAtMs with
  | some expiresAtMs => decide (expiresAtMs ≤ now)
  | none => decide (pendingApprovalMaxAgeMs < now - entry.deliveredAtMs)

namespace Store

def listPendingApprovalsForPeer (s : Store) (accountId : Option String) (sessionKey : String) (now : Int) :
    List ApprovalRequestPayload × Store :=
  let pendingApprovals := s.pendingApprovals.filter fun entry => !entry.stale now
  ((pendingApprovals.values.filter fun entry =>
      entry.accountKey = bindingAccountKey accountId ∧ entry.sessionKey = sessionKey).map (·.payload),
    { s with pendingApprovals })

def listResolvedApprovalsForPeer (s : Store) (accountId : Option String) (sessionKey : String) (now : Int) :
    List (String × ApprovalDecision) × Store :=
  let resolvedApprovals := s.resolvedApprovals.filter fun entry =>
    now - entry.resolvedAtMs ≤ resolvedApprovalMaxAgeMs
  ((resolvedApprovals.values.filter fun entry =>
      entry.accountKey = bindingAccountKey accountId ∧ entry.sessionKey = sessionKey).map
        fun entry => (entry.id, entry.decision),
    { s with resolvedApprovals })

/-- The checks of `handleApprovalDecision`; past them the decision goes to the gateway. -/
def handleApprovalDecision (s : Store) (isApprover : String → Option String → Bool)
    (approvalId senderId : String) (accountId : Option String) : Except Refusal Unit :=
  match s.deliveredApprovalAccounts.get approvalId with
  | none => .error .bindingMissing
  | some boundAccount =>
    if boundAccount ≠ bindingAccountKey accountId then .error (.crossAccount boundAccount)
    else if !isApprover senderId accountId then .error .notApprover
    else .ok ()

end Store

inductive DeliveryAction where
  | deliverPending (accountId : Option String) (sessionKey : String) (payload : ApprovalRequestPayload)
      (now : Int)
  | updateEntry (entry : DeliveredEntry) (decision : ApprovalDecision) (accountId : Option String)
      (now : Int)
  | listPending (accountId : Option String) (sessionKey : String) (now : Int)
  | listResolved (accountId : Option String) (sessionKey : String) (now : Int)
  deriving DecidableEq, Repr

def Store.step (s : Store) : DeliveryAction → Option Store
  | .deliverPending accountId sessionKey payload now =>
    some (s.deliverPending accountId sessionKey payload now).2
  | .updateEntry entry decision accountId now => some (s.updateEntry entry decision accountId now)
  | .listPending accountId sessionKey now => some (s.listPendingApprovalsForPeer accountId sessionKey now).2
  | .listResolved accountId sessionKey now =>
    some (s.listResolvedApprovalsForPeer accountId sessionKey now).2

/-! ## Agreement of the two maps -/

variable {s t : Store} {a : DeliveryAction}

/-- The binding map is below its cap when a delivery writes into it. -/
def Roomy (s : Store) : DeliveryAction → Prop
  | .deliverPending _ _ payload _ =>
    (s.deliveredApprovalAccounts.delete payload.id).size < approvalAccountBindingCap
  | _ => True

/-- The approval is pending on no account but this one. -/
def PendingOnlyOn (s : Store) (accountId : Option String) (approvalId : String) : Prop :=
  ∀ key entry, s.pendingApprovals.get key = some entry → entry.payload.id = approvalId →
    entry.accountKey = bindingAccountKey accountId

/-- An approval is delivered and finalised on an account only while no other account has it
pending. -/
def Lone (s : Store) : DeliveryAction → Prop
  | .deliverPending accountId _ payload _ => PendingOnlyOn s accountId payload.id
  | .updateEntry entry _ accountId _ => PendingOnlyOn s (accountId <|> entry.accountId) entry.approvalId
  | _ => True

structure Store.Bound (s : Store) : Prop where
  keyed : ∀ key entry, s.pendingApprovals.get key = some entry →
    key = pendingApprovalKey (some entry.accountKey) entry.payload.id
  bound : ∀ key entry, s.pendingApprovals.get key = some entry →
    s.deliveredApprovalAccounts.get entry.payload.id = some entry.accountKey

theorem pendingApprovalKey_binding (accountId : Option String) (approvalId : String) :
    pendingApprovalKey (some (bindingAccountKey accountId)) approvalId =
      pendingApprovalKey accountId approvalId := rfl

section Fields

variable (s) (accountId : Option String) (sessionKey : String) (payload : ApprovalRequestPayload)
  (now : Int) (entry : DeliveredEntry) (decision : ApprovalDecision)

theorem deliverPending_pending :
    (s.deliverPending accountId sessionKey payload now).2.pendingApprovals =
      ((s.pendingApprovals.delete (pendingApprovalKey accountId payload.id)).evict
        pendingApprovalCap).set (pendingApprovalKey accountId payload.id)
          ⟨payload, sessionKey, bindingAccountKey accountId, now⟩ := rfl

theorem deliverPending_bindings :
    (s.deliverPending accountId sessionKey payload now).2.deliveredApprovalAccounts =
      ((s.deliveredApprovalAccounts.delete payload.id).evict approvalAccountBindingCap).set payload.id
        (bindingAccountKey accountId) := rfl

theorem updateEntry_pending :
    (s.updateEntry entry decision accountId now).pendingApprovals =
      s.pendingApprovals.delete
        (pendingApprovalKey (accountId <|> entry.accountId) entry.approvalId) := rfl

theorem updateEntry_bindings :
    (s.updateEntry entry decision accountId now).deliveredApprovalAccounts =
      s.deliveredApprovalAccounts.delete entry.approvalId := rfl

end Fields

theorem Store.Bound.deliverPending (h : s.Bound) {accountId : Option String} {sessionKey : String}
    {payload : ApprovalRequestPayload} {now : Int}
    (hroom : (s.deliveredApprovalAccounts.delete payload.id).size < approvalAccountBindingCap)
    (hlone : PendingOnlyOn s accountId payload.id) :
    (s.deliverPending accountId sessionKey payload now).2.Bound := by
  -- A record is the new one, or an old one that the eviction has left.
  have hcases {key : String} {entry : PendingApprovalEntry}
      (hget : (s.deliverPending accountId sessionKey payload now).2.pendingApprovals.get key = some entry) :
      (key = pendingApprovalKey accountId payload.id ∧
        entry = ⟨payload, sessionKey, bindingAccountKey accountId, now⟩) ∨
      s.pendingApprovals.get key = some entry := by
    rw [deliverPending_pending, OrderedMap.get_set_eq] at hget
    split at hget
    · rename_i hkey
      exact .inl ⟨hkey, (Option.some.inj hget).symm⟩
    · rename_i hkey
      have hold := OrderedMap.get_of_get_evict hget
      rw [OrderedMap.get_delete_of_ne _ hkey] at hold
      exact .inr hold
  refine ⟨fun key entry hget => ?_, fun key entry hget => ?_⟩
  · rcases hcases hget with ⟨rfl, rfl⟩ | hold
    · rfl
    · exact h.keyed key entry hold
  · rw [deliverPending_bindings, OrderedMap.evict_eq_self hroom, OrderedMap.get_set_eq]
    split
    · rename_i hid
      rcases hcases hget with ⟨-, rfl⟩ | hold
      · rfl
      · rw [hlone key entry hold hid]
    · rename_i hid
      rcases hcases hget with ⟨-, rfl⟩ | hold
      · exact absurd rfl hid
      · rw [OrderedMap.get_delete_of_ne _ hid]
        exact h.bound key entry hold

theorem Store.Bound.updateEntry (h : s.Bound) {entry : DeliveredEntry} {decision : ApprovalDecision}
    {accountId : Option String} {now : Int}
    (hlone : PendingOnlyOn s (accountId <|> entry.accountId) entry.approvalId) :
    (s.updateEntry entry decision accountId now).Bound := by
  have hold {key : String} {e : PendingApprovalEntry}
      (hget : (s.updateEntry entry decision accountId now).pendingApprovals.get key = some e) :
      key ≠ pendingApprovalKey (accountId <|> entry.accountId) entry.approvalId ∧
        s.pendingApprovals.get key = some e := by
    rw [updateEntry_pending, OrderedMap.get_delete_eq] at hget
    split at hget
    · cases hget
    · exact ⟨‹_›, hget⟩
  refine ⟨fun key e hget => h.keyed key e (hold hget).2, fun key e hget => ?_⟩
  obtain ⟨hne, hget⟩ := hold hget
  have hid : e.payload.id ≠ entry.approvalId := by
    intro heq
    -- The approval is pending on this account only, and that record has been erased.
    apply hne
    rw [h.keyed key e hget, hlone key e hget heq, heq, pendingApprovalKey_binding]
  rw [updateEntry_bindings, OrderedMap.get_delete_of_ne _ hid]
  exact h.bound key e hget

theorem Store.Bound.prune (h : s.Bound) (p : PendingApprovalEntry → Bool) :
    Store.Bound { s with pendingApprovals := s.pendingApprovals.filter p } :=
  ⟨fun key entry hget => h.keyed key entry (OrderedMap.get_of_get_filter hget),
    fun key entry hget => h.bound key entry (OrderedMap.get_of_get_filter hget)⟩

theorem Store.Bound.step (h : s.Bound) (hroom : Roomy s a) (hlone : Lone s a)
    (hstep : s.step a = some t) : t.Bound := by
  cases a with
  | deliverPending accountId sessionKey payload now =>
    obtain rfl := Option.some.inj hstep
    exact h.deliverPending hroom hlone
  | updateEntry entry decision accountId now =>
    obtain rfl := Option.some.inj hstep
    exact h.updateEntry hlone
  | listPending accountId sessionKey now =>
    obtain rfl := Option.some.inj hstep
    exact h.prune _
  | listResolved accountId sessionKey now =>
    obtain rfl := Option.some.inj hstep
    exact ⟨h.keyed, h.bound⟩

theorem bound_of_reached
    (h : ReachedBy Store.step (fun s a => Roomy s a ∧ Lone s a) Store.init s) : s.Bound := by
  refine ReachedBy.invariant h ⟨?_, ?_⟩ fun _ _ _ hinv hok hstep => hinv.step hok.1 hok.2 hstep
  · intro key entry hget
    cases hget
  · intro key entry hget
    cases hget

/-- The action delivers this approval on this account. -/
def Delivers (approvalId : String) (accountId : Option String) : DeliveryAction → Prop
  | .deliverPending accountId' _ payload _ =>
    payload.id = approvalId ∧ bindingAccountKey accountId' = bindingAccountKey accountId
  | _ => False

theorem step_not_bound {approvalId : String} {accountId : Option String}
    (h : s.deliveredApprovalAccounts.get approvalId ≠ some (bindingAccountKey accountId))
    (hnot : ¬ Delivers approvalId accountId a) (hstep : s.step a = some t) :
    t.deliveredApprovalAccounts.get approvalId ≠ some (bindingAccountKey accountId) := by
  cases a with
  | deliverPending accountId' sessionKey payload now =>
    obtain rfl := Option.some.inj hstep
    rw [deliverPending_bindings, OrderedMap.get_set_eq]
    split
    · rename_i hid
      intro heq
      exact hnot ⟨hid.symm, Option.some.inj heq⟩
    · rename_i hid
      intro heq
      have hold := OrderedMap.get_of_get_evict heq
      rw [OrderedMap.get_delete_of_ne _ hid] at hold
      exact h hold
  | updateEntry entry decision accountId' now =>
    obtain rfl := Option.some.inj hstep
    rw [updateEntry_bindings, OrderedMap.get_delete_eq]
    split
    · simp
    · exact h
  | listPending accountId' sessionKey now =>
    obtain rfl := Option.some.inj hstep
    exact h
  | listResolved accountId' sessionKey now =>
    obtain rfl := Option.some.inj hstep
    exact h

/-- A decision passes the first two checks exactly when the binding names its account. -/
theorem handleApprovalDecision_bound {isApprover : String → Option String → Bool}
    {approvalId senderId : String} {accountId : Option String}
    (h : s.deliveredApprovalAccounts.get approvalId = some (bindingAccountKey accountId)) :
    s.handleApprovalDecision isApprover approvalId senderId accountId =
      if isApprover senderId accountId then .ok () else .error .notApprover := by
  simp only [Store.handleApprovalDecision, h, ne_eq, not_true_eq_false, if_false]
  cases isApprover senderId accountId <;> rfl

theorem handleApprovalDecision_unbound {isApprover : String → Option String → Bool}
    {approvalId senderId : String} {accountId : Option String}
    (h : s.deliveredApprovalAccounts.get approvalId ≠ some (bindingAccountKey accountId)) :
    s.handleApprovalDecision isApprover approvalId senderId accountId ≠ .ok () := by
  unfold Store.handleApprovalDecision
  split
  · simp
  · rename_i boundAccount hget
    rw [if_pos]
    · simp
    · rintro rfl
      exact h hget

/-- The approvals a peer is shown on an account are the ones its decisions can reach. -/
def ShownDecidable (s : Store) : Prop :=
  ∀ accountId sessionKey now payload,
    payload ∈ (s.listPendingApprovalsForPeer accountId sessionKey now).1 →
    s.deliveredApprovalAccounts.get payload.id = some (bindingAccountKey accountId) ∧
      ∀ isApprover senderId,
        s.handleApprovalDecision isApprover payload.id senderId accountId ≠ .error .bindingMissing ∧
        ∀ boundAccount, s.handleApprovalDecision isApprover payload.id senderId accountId ≠
          .error (.crossAccount boundAccount)

/-- An approval finalised on an account stays undecidable there until it is delivered there
again. -/
def FinalisedClosed (s : Store) : Prop :=
  ∀ entry decision accountId now t,
    ReachedBy Store.step
      (fun _ a => ¬ Delivers entry.approvalId (accountId <|> entry.accountId) a)
      (s.updateEntry entry decision accountId now) t →
    ∀ isApprover senderId, t.handleApprovalDecision isApprover entry.approvalId senderId
      (accountId <|> entry.accountId) ≠ .ok ()

theorem Store.Bound.shownDecidable (h : s.Bound) : ShownDecidable s := by
  intro accountId sessionKey now payload hmem
  obtain ⟨entry, hentry, rfl⟩ := List.mem_map.mp hmem
  obtain ⟨hvalue, hmatch⟩ := List.mem_filter.mp hentry
  obtain ⟨key, hget⟩ := OrderedMap.mem_values.mp hvalue
  have hbound := h.bound key entry (OrderedMap.get_of_get_filter hget)
  rw [(of_decide_eq_true hmatch).1] at hbound
  refine ⟨hbound, fun isApprover senderId => ?_⟩
  rw [handleApprovalDecision_bound hbound]
  cases isApprover senderId accountId <;> simp

theorem finalisedClosed (s : Store) : FinalisedClosed s := by
  intro entry decision accountId now t hrun isApprover senderId
  apply handleApprovalDecision_unbound
  refine ReachedBy.invariant (I := fun s => s.deliveredApprovalAccounts.get entry.approvalId ≠
    some (bindingAccountKey (accountId <|> entry.accountId))) hrun ?_
    fun _ _ _ h hnot hstep => step_not_bound h hnot hstep
  rw [updateEntry_bindings, OrderedMap.get_delete_self]
  simp

/-- As long as no approval is pending on two accounts, every card that is shown can be
decided, and a finalised one cannot. -/
theorem shown_decidable_of_lone
    (h : ReachedBy Store.step (fun s a => Roomy s a ∧ Lone s a) Store.init s) :
    ShownDecidable s ∧ FinalisedClosed s :=
  ⟨(bound_of_reached h).shownDecidable, finalisedClosed s⟩

/-- One approval, delivered on one account. -/
def deliveredOnce : Store := (Store.init.deliverPending (some "a") "alice" ⟨"exec-shared", none⟩ 0).2

theorem shown_decidable_of_lone_once :
    (deliveredOnce.listPendingApprovalsForPeer (some "a") "alice" 0).1 = [⟨"exec-shared", none⟩] ∧
      ShownDecidable deliveredOnce ∧ FinalisedClosed deliveredOnce := by
  refine ⟨by decide, shown_decidable_of_lone
    (.step (a := .deliverPending (some "a") "alice" ⟨"exec-shared", none⟩ 0) .start ⟨?_, ?_⟩ rfl)⟩
  · change 0 < approvalAccountBindingCap
    decide
  · intro key entry hget
    cases hget

/-- The same approval on a second account takes the binding away from the first, which goes
on showing the card. -/
theorem second_delivery_unbinds_first :
    ¬ ∀ s, ReachedBy Store.step
        (fun s a => Roomy s a ∧ s.pendingApprovals.size < pendingApprovalCap) Store.init s →
      ShownDecidable s := by
  intro h
  have hfirst : ReachedBy Store.step
      (fun s a => Roomy s a ∧ s.pendingApprovals.size < pendingApprovalCap) Store.init deliveredOnce :=
    .step (a := .deliverPending (some "a") "alice" ⟨"exec-shared", none⟩ 0) .start
      ⟨by change 0 < approvalAccountBindingCap; decide, by decide⟩ rfl
  have hsecond := ReachedBy.step hfirst (a := .deliverPending (some "b") "alice" ⟨"exec-shared", none⟩ 0)
    ⟨by change 0 < approvalAccountBindingCap; decide, by decide⟩ rfl
  have hshown := h _ hsecond (some "a") "alice" 0 ⟨"exec-shared", none⟩ (by decide)
  exact absurd hshown.1 (by decide)

end Webchannel.Approval
