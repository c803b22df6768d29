import Webchannel.Lib.JsObject

/-!
# The approval snapshot

`case "approval_snapshot"` of `nats-client-wrapper.ts` on any frame that JSON can say, while no listener
calls back: what becomes of each local card, which cards are new, and which decisions are sent again.
-/

namespace Webchannel.Wrapper.Snapshot

variable {ν : Type} [DecidableEq ν]

/-- A card. `kind` to `expiresAtMs` are what the frame had; `resolvedDecision` is `none` while the card is
actionable. -/
structure ApprovalRequest (ν : Type) where
  id : JsString
  kind : Json ν
  title : Json ν
  description : Option (Json ν)
  prompt : Json ν
  options : Json ν
  expiresAtMs : Option (Json ν)
  resolvedDecision : Option (Json ν)
  resolutionConfirmed : Bool

structure State (ν : Type) where
  approvals : List (ApprovalRequest ν)
  isTyping : Bool

/-- The wrapper with the operations that it has handed over: they are sent, or wait in the queue of a
replacement connection. -/
structure Client (ν : Type) where
  state : State ν
  operations : List (JsString × Json ν)

def unknown : Json ν := .str (js "unknown")

omit [DecidableEq ν] in
/-- `v ?? fallback` -/
def orElse (v : Option (Json ν)) (fallback : Json ν) : Json ν :=
  match v with
  | none => fallback
  | some .null => fallback
  | some v => v

/-- `===`; a value from a frame is an object of its own. -/
def strictEquals : Json ν → Json ν → Bool
  | .null, .null => true
  | .bool a, .bool b => a == b
  | .num a, .num b => decide (a = b)
  | .str a, .str b => decide (a = b)
  | _, _ => false

section Frame

variable (msg : Json ν)

/-- `Array.isArray(msg.name) ? msg.name : []` -/
def listMember (name : String) : List (Json ν) :=
  match msg.member name with
  | some (.arr l) => l
  | _ => []

/-- The id of an entry that is not passed over. -/
def entryId (p : Json ν) : Option JsString :=
  match p.member "id" with
  | some (.str id) => if id = [] then none else some id
  | _ => none

def wellFormed (name : String) : List (JsString × Json ν) :=
  (listMember msg name).filterMap fun p => (entryId p).map fun id => (id, p)

def request (id : JsString) (p : Json ν) : ApprovalRequest ν where
  id := id
  kind := orElse (p.member "kind") (.str (js "exec"))
  title := orElse (p.member "title") (.str [])
  description := p.member "description"
  prompt := orElse (p.member "prompt") (.str [])
  options := orElse (p.member "options") (.arr [])
  expiresAtMs := p.member "expiresAtMs"
  resolvedDecision := none
  resolutionConfirmed := false

def snapshotById : OrderedMap JsString (ApprovalRequest ν) :=
  .ofList ((wellFormed msg "approvals").map fun e => (e.1, request e.1 e.2))

def resolvedById : OrderedMap JsString (Option (Json ν)) :=
  .ofList ((wellFormed msg "resolved").map fun e => (e.1, e.2.member "decision"))

/-- `resolvedById.get(id)` -/
def outcome (id : JsString) : Option (Json ν) := ((resolvedById msg).get id).join

/-- What the loop does with one local card. -/
structure Reconciled (ν : Type) where
  card : ApprovalRequest ν
  changed : Bool
  resend : Option (Json ν)

def reconcile (a : ApprovalRequest ν) : Reconciled ν :=
  let snap := if (resolvedById msg).has a.id then none else (snapshotById msg).get a.id
  match snap, a.resolvedDecision with
  | some _, none => ⟨a, false, none⟩
  | some _, some decision =>
    if !a.resolutionConfirmed && !strictEquals decision unknown then ⟨a, false, some decision⟩ else ⟨a, false, none⟩
  | none, none =>
    ⟨{ a with
        resolvedDecision := some (orElse (outcome msg a.id) unknown)
        resolutionConfirmed := true }, true, none⟩
  | none, some decision =>
    if !a.resolutionConfirmed then
      match outcome msg a.id with
      | some outcome =>
        if strictEquals outcome decision then ⟨{ a with resolutionConfirmed := true }, true, none⟩
        else ⟨{ a with resolvedDecision := some outcome, resolutionConfirmed := true }, true, none⟩
      | none => ⟨{ a with resolutionConfirmed := true }, true, none⟩
    else ⟨a, false, none⟩

/-- The cards that no local card stands for. -/
def rehydrated (existing : List (ApprovalRequest ν)) : List (ApprovalRequest ν) :=
  ((snapshotById msg).entries.filter fun e => !existing.any (·.id = e.1) && !(resolvedById msg).has e.1).map Prod.snd

def handleApprovalSnapshot (w : Client ν) : Client ν :=
  let existing := w.state.approvals
  let added := rehydrated msg existing
  let changed := existing.any (fun a => (reconcile msg a).changed) || !added.isEmpty
  { state :=
      if changed then
        { approvals := existing.map (fun a => (reconcile msg a).card) ++ added
          isTyping := if added.isEmpty then w.state.isTyping else false }
      else w.state
    operations := w.operations ++
      existing.filterMap fun a => (reconcile msg a).resend.map fun decision => (a.id, decision) }

/-! ## The frame's meaning -/

def pendingIds : List JsString := (wellFormed msg "approvals").map Prod.fst

def resolvedIds : List JsString := (wellFormed msg "resolved").map Prod.fst

def StillPending (id : JsString) : Prop := id ∈ pendingIds msg ∧ id ∉ resolvedIds msg

instance (id : JsString) : Decidable (StillPending msg id) := inferInstanceAs (Decidable (_ ∧ _))

/-- The decision of an id in the list of the resolved ones, where its last entry has one. -/
def resolvedOutcome (id : JsString) : Option (Json ν) :=
  ((wellFormed msg "resolved").reverse.find? (·.1 = id)).bind (·.2.member "decision")

/-- A card that is over: the server's decision, else its own, else nobody knows. -/
def settled (a : ApprovalRequest ν) : ApprovalRequest ν :=
  { a with
    resolvedDecision := some (((resolvedOutcome msg a.id).or a.resolvedDecision).getD unknown)
    resolutionConfirmed := true }

/-- What becomes of a local card. -/
def after (a : ApprovalRequest ν) : ApprovalRequest ν :=
  if StillPending msg a.id ∨ (a.resolvedDecision ≠ none ∧ a.resolutionConfirmed = true) then a else settled msg a

/-- A decision that is not confirmed and is not the sentinel. -/
def lostDecision (a : ApprovalRequest ν) : Option (Json ν) :=
  if a.resolutionConfirmed then none
  else a.resolvedDecision.filter fun decision => !strictEquals decision unknown

/-- Every decision in the list of the resolved ones is a string. -/
def StringDecisions : Prop :=
  ∀ e ∈ wellFormed msg "resolved", ∀ decision, e.2.member "decision" = some decision → ∃ text, decision = .str text

end Frame

variable {msg : Json ν}

/-! ## One card -/

omit [DecidableEq ν] in
theorem has_ofList_iff {α β : Type} (l : List (JsString × α)) (read : JsString × α → β) (id : JsString) :
    (OrderedMap.ofList (l.map fun e => (e.1, read e))).has id = true ↔ id ∈ l.map Prod.fst := by
  rw [OrderedMap.has, OrderedMap.get_ofList, Option.isSome_map, List.find?_isSome]
  simp

omit [DecidableEq ν] in
theorem get_ofList_map {α β : Type} (l : List (JsString × α)) (read : JsString × α → β) (id : JsString) :
    (OrderedMap.ofList (l.map fun e => (e.1, read e))).get id = (l.reverse.find? (·.1 = id)).map read := by
  rw [OrderedMap.get_ofList, ← List.map_reverse, List.find?_map, Option.map_map]
  rfl

omit [DecidableEq ν] in
theorem resolvedById_has {id : JsString} : (resolvedById msg).has id = true ↔ id ∈ resolvedIds msg :=
  has_ofList_iff _ _ id

omit [DecidableEq ν] in
theorem snapshotById_has {id : JsString} : (snapshotById msg).has id = true ↔ id ∈ pendingIds msg :=
  has_ofList_iff _ _ id

omit [DecidableEq ν] in
theorem outcome_eq (id : JsString) : outcome msg id = resolvedOutcome msg id := by
  rw [outcome, resolvedById, get_ofList_map, resolvedOutcome]
  cases (wellFormed msg "resolved").reverse.find? (·.1 = id) <;> rfl

omit [DecidableEq ν] in
/-- The pending entry of an id, which an entry in the list of the resolved ones hides. -/
theorem snap_isSome (id : JsString) :
    (if (resolvedById msg).has id then none else (snapshotById msg).get id).isSome ↔ StillPending msg id := by
  rw [StillPending, ← snapshotById_has, ← resolvedById_has]
  by_cases hresolved : (resolvedById msg).has id = true
  · simp [hresolved]
  · rw [if_neg hresolved]
    exact (and_iff_left hresolved).symm

omit [DecidableEq ν] in
theorem outcome_string (h : StringDecisions msg) {id : JsString} {decision : Json ν}
    (hdecision : resolvedOutcome msg id = some decision) : ∃ text, decision = .str text := by
  obtain ⟨e, he, hmember⟩ := Option.bind_eq_some_iff.mp hdecision
  exact h e (List.mem_reverse.mp (List.mem_of_find?_eq_some he)) decision hmember

theorem strictEquals_str {text : JsString} {v : Json ν} (h : strictEquals (.str text) v = true) : .str text = v := by
  cases v with
  | str text' => rw [of_decide_eq_true h]
  | null => cases h
  | bool b => cases h
  | num n => cases h
  | arr l => cases h
  | obj l => cases h

/-- The three things that the loop finds out about a card. -/
theorem reconcile_eq (hstrings : StringDecisions msg) (a : ApprovalRequest ν) :
    reconcile msg a =
      ⟨after msg a, !decide (StillPending msg a.id ∨ (a.resolvedDecision ≠ none ∧ a.resolutionConfirmed = true)),
        if StillPending msg a.id then lostDecision a else none⟩ := by
  have hsnap : (if (resolvedById msg).has a.id then none else (snapshotById msg).get a.id).isSome ↔
      StillPending msg a.id := snap_isSome a.id
  unfold reconcile after lostDecision
  cases hentry : (if (resolvedById msg).has a.id then none else (snapshotById msg).get a.id) with
  | some snap =>
    have hpending : StillPending msg a.id := by
      rw [← hsnap, hentry]
      rfl
    cases hdecision : a.resolvedDecision with
    | none => simp [hpending]
    | some decision =>
      cases hconfirmed : a.resolutionConfirmed with
      | true => simp [hpending]
      | false =>
        cases hunknown : strictEquals decision unknown with
        | true => simp [hpending, hunknown, Option.filter]
        | false => simp [hpending, hunknown, Option.filter]
  | none =>
    have hpending : ¬ StillPending msg a.id := fun h => by
      have hsome := hsnap.mpr h
      rw [hentry] at hsome
      cases hsome
    cases hdecision : a.resolvedDecision with
    | none =>
      have hfallback : orElse (outcome msg a.id) unknown = (resolvedOutcome msg a.id).getD unknown := by
        rw [outcome_eq]
        cases hout : resolvedOutcome msg a.id with
        | none => rfl
        | some decision =>
          obtain ⟨text, rfl⟩ := outcome_string hstrings hout
          rfl
      simp [hpending, hfallback, settled, hdecision]
    | some decision =>
      cases hconfirmed : a.resolutionConfirmed with
      | true => simp [hpending]
      | false =>
        rw [outcome_eq]
        cases hout : resolvedOutcome msg a.id with
        | none => simp [hpending, settled, hdecision, hout]
        | some server =>
          obtain ⟨text, rfl⟩ := outcome_string hstrings hout
          cases hequal : strictEquals (.str text) decision with
          | true => simp [hpending, settled, hdecision, hout, strictEquals_str hequal, ← hequal]
          | false => simp [hpending, settled, hdecision, hout, hequal]

/-! ## The new cards -/

omit [DecidableEq ν] in
theorem mem_snapshotById {id : JsString} {c : ApprovalRequest ν} (h : (id, c) ∈ (snapshotById msg).entries) :
    c.id = id ∧ c.resolvedDecision = none ∧ id ∈ pendingIds msg := by
  have hget := OrderedMap.mem_entries.mp h
  have hhas : (snapshotById msg).has id = true := by
    rw [OrderedMap.has, hget]
    rfl
  rw [snapshotById, get_ofList_map _ fun e : JsString × Json ν => request e.1 e.2] at hget
  obtain ⟨e, he, rfl⟩ := Option.map_eq_some_iff.mp hget
  have hkey := List.find?_some he
  exact ⟨of_decide_eq_true hkey, rfl, snapshotById_has.mp hhas⟩

omit [DecidableEq ν] in
theorem mem_rehydrated {existing : List (ApprovalRequest ν)} {c : ApprovalRequest ν} (h : c ∈ rehydrated msg existing) :
    StillPending msg c.id ∧ c.resolvedDecision = none ∧ ∀ a ∈ existing, a.id ≠ c.id := by
  obtain ⟨⟨id, card⟩, he, rfl⟩ := List.mem_map.mp h
  obtain ⟨hentry, hnew⟩ := List.mem_filter.mp he
  obtain ⟨rfl, hnone, hpending⟩ := mem_snapshotById hentry
  rw [Bool.and_eq_true, Bool.not_eq_true', Bool.not_eq_true', List.any_eq_false] at hnew
  refine ⟨⟨hpending, fun hres => ?_⟩, hnone, fun a ha heq => hnew.1 a ha (decide_eq_true heq)⟩
  rw [resolvedById_has.mpr hres] at hnew
  exact Bool.noConfusion hnew.2

omit [DecidableEq ν] in
theorem exists_rehydrated {existing : List (ApprovalRequest ν)} {id : JsString} (hpending : StillPending msg id)
    (hnew : ∀ a ∈ existing, a.id ≠ id) : ∃ c ∈ rehydrated msg existing, c.id = id := by
  obtain ⟨c, hget⟩ := Option.isSome_iff_exists.mp (snapshotById_has.mpr hpending.1)
  have hentry := OrderedMap.mem_entries.mpr hget
  have hresolved : (resolvedById msg).has id = false := by
    rw [Bool.eq_false_iff]
    exact fun hhas => hpending.2 (resolvedById_has.mp hhas)
  refine ⟨c, List.mem_map.mpr ⟨(id, c), List.mem_filter.mpr ⟨hentry, ?_⟩, rfl⟩, (mem_snapshotById hentry).1⟩
  rw [Bool.and_eq_true, Bool.not_eq_true', Bool.not_eq_true', List.any_eq_false]
  exact ⟨fun a ha heq => hnew a ha (of_decide_eq_true heq), hresolved⟩

/-! ## The whole frame -/

omit [DecidableEq ν] in
theorem after_id (a : ApprovalRequest ν) : (after msg a).id = a.id := by
  unfold after
  split <;> rfl

omit [DecidableEq ν] in
theorem after_eq_self {a : ApprovalRequest ν}
    (h : StillPending msg a.id ∨ (a.resolvedDecision ≠ none ∧ a.resolutionConfirmed = true)) : after msg a = a :=
  if_pos h

omit [DecidableEq ν] in
/-- A card that the snapshot is done with stays as it is. -/
theorem after_settled (a : ApprovalRequest ν) :
    StillPending msg (after msg a).id ∨
      ((after msg a).resolvedDecision ≠ none ∧ (after msg a).resolutionConfirmed = true) := by
  rw [after_id]
  unfold after
  split
  · next h => exact h
  · exact .inr ⟨by simp [settled], rfl⟩

theorem changed_eq_false (hstrings : StringDecisions msg) {a : ApprovalRequest ν} :
    (reconcile msg a).changed = false ↔
      StillPending msg a.id ∨ (a.resolvedDecision ≠ none ∧ a.resolutionConfirmed = true) := by
  rw [reconcile_eq hstrings, Bool.not_eq_false', decide_eq_true_iff]

theorem approvals_eq (hstrings : StringDecisions msg) (w : Client ν) :
    (handleApprovalSnapshot msg w).state.approvals =
      w.state.approvals.map (after msg) ++ rehydrated msg w.state.approvals := by
  have hcards : w.state.approvals.map (fun a => (reconcile msg a).card) = w.state.approvals.map (after msg) :=
    List.map_congr_left fun a _ => by rw [reconcile_eq hstrings]
  unfold handleApprovalSnapshot
  dsimp only
  split
  · exact congrArg (· ++ _) hcards
  · next hsame =>
    rw [Bool.not_eq_true, Bool.or_eq_false_iff, Bool.not_eq_false', List.isEmpty_iff, List.any_eq_false] at hsame
    have hkept : w.state.approvals.map (after msg) = w.state.approvals := by
      have hid : w.state.approvals.map (after msg) = w.state.approvals.map id := by
        refine List.map_congr_left fun a ha => ?_
        exact after_eq_self ((changed_eq_false hstrings).mp (Bool.eq_false_iff.mpr (hsame.1 a ha)))
      rw [hid, List.map_id]
    rw [hsame.2, List.append_nil, hkept]

/-- The frame has nothing more to say about the cards that it leaves. -/
theorem state_eq_of_reconciled (hstrings : StringDecisions msg) {w : Client ν}
    (hdone : ∀ a ∈ w.state.approvals,
      StillPending msg a.id ∨ (a.resolvedDecision ≠ none ∧ a.resolutionConfirmed = true))
    (hadded : ∀ id, StillPending msg id → ∃ a ∈ w.state.approvals, a.id = id) :
    (handleApprovalSnapshot msg w).state = w.state := by
  have hnone : rehydrated msg w.state.approvals = [] := by
    refine List.eq_nil_iff_forall_not_mem.mpr fun c hc => ?_
    obtain ⟨hpending, -, hnew⟩ := mem_rehydrated hc
    obtain ⟨a, ha, hid⟩ := hadded c.id hpending
    exact hnew a ha hid
  have hsame : w.state.approvals.any (fun a => (reconcile msg a).changed) = false := by
    rw [List.any_eq_false]
    intro a ha
    exact Bool.eq_false_iff.mp ((changed_eq_false hstrings).mpr (hdone a ha))
  unfold handleApprovalSnapshot
  simp only [hnone, hsame, List.isEmpty_nil, Bool.not_true, Bool.or_self, Bool.false_eq_true, if_false]

/-- A snapshot of arbitrary entries: the ids that are pending and not resolved are the actionable ones
unless they were decided here; the cards keep their order; the lost decisions go out once more; and the
same frame again changes nothing. -/
theorem snapshot_reconciles (w : Client ν) (hids : (w.state.approvals.map (·.id)).Nodup)
    (hstrings : StringDecisions msg) :
    let t := handleApprovalSnapshot msg w
    (∀ id, (∃ a ∈ t.state.approvals, a.id = id ∧ a.resolvedDecision = none) ↔
      StillPending msg id ∧ ∀ a ∈ w.state.approvals, a.id = id → a.resolvedDecision = none) ∧
    (∃ created, t.state.approvals = w.state.approvals.map (after msg) ++ created ∧
      ∀ c ∈ created, c.id ∉ resolvedIds msg ∧ ∀ a ∈ w.state.approvals, a.id ≠ c.id) ∧
    t.operations = w.operations ++ w.state.approvals.filterMap (fun a =>
      (if StillPending msg a.id then lostDecision a else none).map fun decision => (a.id, decision)) ∧
    (handleApprovalSnapshot msg t).state = t.state := by
  have happrovals := approvals_eq hstrings w
  refine ⟨fun id => ?_, ⟨_, happrovals, fun c hc => ?_⟩, ?_, ?_⟩
  · rw [happrovals]
    constructor
    · rintro ⟨c, hc, rfl, hnone⟩
      rcases List.mem_append.mp hc with hc | hc
      · obtain ⟨a, ha, rfl⟩ := List.mem_map.mp hc
        have hafter : StillPending msg (after msg a).id ∨
            ((after msg a).resolvedDecision ≠ none ∧ (after msg a).resolutionConfirmed = true) := after_settled a
        rcases hafter with hpending | ⟨hsome, -⟩
        · rw [after_id] at hpending ⊢
          rw [after_eq_self (.inl hpending)] at hnone
          refine ⟨hpending, fun b hb hid => ?_⟩
          rw [List.inj_on_of_nodup_map hids hb ha hid, hnone]
        · exact absurd hnone hsome
      · obtain ⟨hpending, -, hnew⟩ := mem_rehydrated hc
        exact ⟨hpending, fun a ha hid => absurd hid (hnew a ha)⟩
    · rintro ⟨hpending, hundecided⟩
      by_cases hlocal : ∃ a ∈ w.state.approvals, a.id = id
      · obtain ⟨a, ha, rfl⟩ := hlocal
        have hkept : after msg a = a := after_eq_self (.inl hpending)
        refine ⟨a, List.mem_append_left _ (List.mem_map.mpr ⟨a, ha, hkept⟩), rfl, hundecided a ha rfl⟩
      · obtain ⟨c, hc, hid⟩ := exists_rehydrated hpending fun a ha heq => hlocal ⟨a, ha, heq⟩
        exact ⟨c, List.mem_append_right _ hc, hid, (mem_rehydrated hc).2.1⟩
  · obtain ⟨hpending, -, hnew⟩ := mem_rehydrated hc
    exact ⟨hpending.2, hnew⟩
  · refine congrArg (w.operations ++ ·) (List.filterMap_congr fun a _ => ?_)
    rw [reconcile_eq hstrings]
  · refine state_eq_of_reconciled hstrings ?_ ?_
    · rw [happrovals]
      intro c hc
      rcases List.mem_append.mp hc with hc | hc
      · obtain ⟨a, -, rfl⟩ := List.mem_map.mp hc
        exact after_settled a
      · exact .inl (mem_rehydrated hc).1
    · intro id hpending
      rw [happrovals]
      by_cases hlocal : ∃ a ∈ w.state.approvals, a.id = id
      · obtain ⟨a, ha, rfl⟩ := hlocal
        exact ⟨after msg a, List.mem_append_left _ (List.mem_map_of_mem ha), after_id a⟩
      · obtain ⟨c, hc, hid⟩ := exists_rehydrated hpending fun a ha heq => hlocal ⟨a, ha, heq⟩
        exact ⟨c, List.mem_append_right _ hc, hid⟩

/-- A frame with repeated and malformed entries; `b` is in both of its lists. -/
def mixedFrame : Json Nat :=
  let entry (id : String) : Json Nat := .obj [(js "id", .str (js id))]
  .obj [(js "approvals", .arr [entry "a", .null, entry "b", .obj [(js "id", .num 7)], entry "c", entry "a"]),
    (js "resolved", .arr [.obj [(js "id", .str (js "b")), (js "decision", .str (js "deny"))]])]

/-- `a` is decided and not confirmed, `b` is open. -/
def halfDecided : Client Nat :=
  let card (id : String) (decision : Option (Json Nat)) : ApprovalRequest Nat :=
    { request (js id) .null with resolvedDecision := decision }
  ⟨⟨[card "a" (some (.str (js "deny"))), card "b" none], true⟩, []⟩

/-- The decision on `a` goes out again, and the frame has nothing to say the second time. -/
theorem lost_decision_resent :
    (handleApprovalSnapshot mixedFrame halfDecided).operations = [(js "a", .str (js "deny"))] ∧
      (handleApprovalSnapshot mixedFrame (handleApprovalSnapshot mixedFrame halfDecided)).state =
        (handleApprovalSnapshot mixedFrame halfDecided).state := by
  have hstrings : StringDecisions mixedFrame := by
    have hentries : wellFormed mixedFrame "resolved" =
        [(js "b", .obj [(js "id", .str (js "b")), (js "decision", .str (js "deny"))])] := by rfl
    intro e he decision hdecision
    rw [hentries] at he
    obtain rfl := List.mem_singleton.mp he
    obtain rfl := Option.some.inj hdecision
    exact ⟨_, rfl⟩
  obtain ⟨-, -, hoperations, hagain⟩ := snapshot_reconciles halfDecided (by decide +kernel) hstrings
  exact ⟨hoperations.trans (by rfl), hagain⟩

end Webchannel.Wrapper.Snapshot
