import Mathlib.Data.List.Chain
import Webchannel.Lib.Runs
import Webchannel.Enrollment.Repository

/-!
# The agent-key registry over every sequence of operations

The history of a slot lists its activations, the newest one first. Only the first can be
active. An operation changes at most one slot, and there it either ends the active record
or puts a new one on top, which names itself in the record it supersedes.
-/

namespace Webchannel.Enrollment

open Webchannel.Runs

theorem agentKeyRegistryKey_eq (tenant accountId : String) : agentKeyRegistryKey tenant accountId =
    lengthPrefixed tenant ("/" ++ lengthPrefixed accountId "") := by
  simp only [agentKeyRegistryKey, lengthPrefixed, String.append_assoc, String.append_empty]

theorem agentKeyRegistryKey_inj {t t' a a' : String}
    (h : agentKeyRegistryKey t a = agentKeyRegistryKey t' a') : t = t' ∧ a = a' := by
  rw [agentKeyRegistryKey_eq, agentKeyRegistryKey_eq] at h
  obtain ⟨ht, hrest⟩ := lengthPrefixed_inj h
  have hlist := congrArg String.toList hrest
  rw [String.toList_append, String.toList_append] at hlist
  have hacc := String.toList_injective (List.append_cancel_left hlist)
  exact ⟨ht, (lengthPrefixed_inj hacc).1⟩

/-- An operation of the repository with the clock reads and the random id it meets. -/
inductive Op where
  | createEnrollment (enrollment : EnrollmentRecord)
  | claimApproval (now : Int) (userCode opId : String) (leaseMs : Int)
  | commitApproval (now later : Int) (activationId opId : String) (commit : CommitApprovalPayload)
  | releaseClaim (opId : String)
  | tryDeny (now : Int) (userCode : String)
  | tryExpire (now : Int) (deviceCode : String)
  | reconcileApprovedRegistration (now : Int) (activationId deviceCode : String)
  | register (now : Int) (activationId tenant accountId publicKey : String) (expect : Option String)
  | revokeActive (now : Int) (tenant accountId : String)
  | sweep (now : Int)
  deriving DecidableEq, Repr

/-- The state an operation leaves. One that throws has changed nothing. -/
def Op.run (hash : Hashing) (r : Repository) : Op → Repository
  | .createEnrollment enrollment => (r.createEnrollment enrollment).toOption.getD r
  | .claimApproval now userCode opId leaseMs =>
    ((r.claimApproval now userCode opId leaseMs).toOption.map Prod.snd).getD r
  | .commitApproval now later activationId opId commit =>
    ((r.commitApproval hash now later activationId opId commit).toOption.map Prod.snd).getD r
  | .releaseClaim opId => (r.releaseClaim opId).2
  | .tryDeny now userCode => (r.tryDeny now userCode).2
  | .tryExpire now deviceCode => (r.tryExpire now deviceCode).2
  | .reconcileApprovedRegistration now activationId deviceCode =>
    ((r.reconcileApprovedRegistration hash now activationId deviceCode).toOption.map Prod.snd).getD r
  | .register now activationId tenant accountId publicKey expect =>
    (r.registerSync hash now activationId tenant accountId publicKey expect).2
  | .revokeActive now tenant accountId => (r.revokeActive now tenant accountId).2
  | .sweep now => (r.sweep now).2

/-- The expectation about the active record that an activating operation is given. -/
def Op.expect : Op → Option (Option String)
  | .commitApproval _ _ _ _ commit => some commit.expect
  | .reconcileApprovedRegistration .. => some none
  | .register _ _ _ _ _ expect => some expect
  | _ => none

/-- The slot an operation is about, when it is about one. -/
def Op.slot (r : Repository) : Op → Option (String × String)
  | .commitApproval _ _ _ opId _ => (r.byOperation opId).map fun e => (e.tenant, e.accountId)
  | .reconcileApprovedRegistration _ _ deviceCode =>
    (r.enrollments.get deviceCode).map fun e => (e.tenant, e.accountId)
  | .register _ _ tenant accountId _ _ => some (tenant, accountId)
  | .revokeActive _ tenant accountId => some (tenant, accountId)
  | _ => none

/-- The repository as a transition system over its operations. -/
def Op.step (hash : Hashing) (r : Repository) (op : Op) : Option Repository := some (op.run hash r)

/-- What holds of the history of a slot. -/
structure History (hash : Hashing) (h : List AgentKeyRecord) : Prop where
  keyed : ∀ x ∈ h, x.keyId = hash.keyId x.publicKey
  older : ∀ x ∈ h.tail, x.status ≠ .active
  unrevoked : ∀ x ∈ h, ∀ y ∈ h, x.status = .active → y.status = .revoked → x.keyId ≠ y.keyId
  newest : ∀ x ∈ h.head?, x.status ≠ .superseded
  chain : h.IsChain fun newer older =>
    older.status = .superseded → older.supersededBy = some newer.activationId

/-- A record that may be put on top of a history. -/
structure Admitted (hash : Hashing) (h : List AgentKeyRecord) (record : AgentKeyRecord) : Prop where
  active : record.status = .active
  keyed : record.keyId = hash.keyId record.publicKey
  unrevoked : ∀ x ∈ h, x.status = .revoked → x.keyId ≠ record.keyId
  other : ∀ x ∈ h, x.status = .active → x.publicKey ≠ record.publicKey

/-- What an operation with an expectation can do to the history of a slot. -/
inductive Turn (hash : Hashing) (expect : Option (Option String)) :
    List AgentKeyRecord → List AgentKeyRecord → Prop where
  | first {h : List AgentKeyRecord} {record : AgentKeyRecord} : Admitted hash h record →
      (∀ x ∈ h, x.status ≠ .active) → expect = some none → Turn hash expect h (record :: h)
  | replace {h : List AgentKeyRecord} {x record : AgentKeyRecord} (now : Int) :
      Admitted hash (x :: h) record → x.status = .active → expect = some (some x.activationId) →
      Turn hash expect (x :: h) (record :: Repository.supersede x now record.activationId :: h)
  | revoke {h : List AgentKeyRecord} {x : AgentKeyRecord} (now : Int) :
      x.status = .active → Turn hash expect (x :: h) (Repository.revoke x now :: h)

variable {hash : Hashing} {expect : Option (Option String)} {h h' : List AgentKeyRecord}

theorem Admitted.fresh {record : AgentKeyRecord} (ha : Admitted hash h record) : record ∉ h :=
  fun hmem => ha.other record hmem ha.active rfl

theorem History.nil : History hash [] := by
  constructor <;> simp

theorem Turn.history (ht : Turn hash expect h h') (hh : History hash h) : History hash h' := by
  cases ht with
  | @first h record ha hnone _ =>
    refine ⟨?_, hnone, ?_, ?_, ?_⟩
    · simpa using ⟨ha.keyed, hh.keyed⟩
    · rintro x hx y hy hxa hyr
      have hy' : y ∈ h := by
        rcases List.mem_cons.mp hy with rfl | hy
        · rw [ha.active] at hyr
          cases hyr
        · exact hy
      rcases List.mem_cons.mp hx with rfl | hx
      · exact (ha.unrevoked y hy' hyr).symm
      · exact absurd hxa (hnone x hx)
    · simp [ha.active]
    · rw [List.isChain_cons]
      refine ⟨?_, hh.chain⟩
      intro y hy hs
      exact absurd hs (hh.newest y hy)
  | @replace h x record now ha hx _ =>
    have hrest (y) (hy : y ∈ h) : y.status ≠ .active := hh.older y hy
    refine ⟨?_, ?_, ?_, ?_, ?_⟩
    · have hk := hh.keyed
      simp only [List.mem_cons, forall_eq_or_imp] at hk ⊢
      exact ⟨ha.keyed, hk.1, hk.2⟩
    · simpa [Repository.supersede] using hrest
    · rintro y hy z hz hya hzr
      have hyrec : y = record := by
        rcases List.mem_cons.mp hy with rfl | hy
        · rfl
        · rcases List.mem_cons.mp hy with rfl | hy
          · cases hya
          · exact absurd hya (hrest y hy)
      have hz' : z ∈ h := by
        rcases List.mem_cons.mp hz with rfl | hz
        · rw [ha.active] at hzr
          cases hzr
        · rcases List.mem_cons.mp hz with rfl | hz
          · cases hzr
          · exact hz
      rw [hyrec]
      exact (ha.unrevoked z (.tail _ hz') hzr).symm
    · simp [ha.active]
    · have hc := hh.chain
      simp only [List.isChain_cons, List.head?_cons, Option.mem_some_iff, forall_eq'] at hc ⊢
      exact ⟨fun _ => rfl, hc.1, hc.2⟩
  | @revoke h x now hx =>
    have hrest (y) (hy : y ∈ h) : y.status ≠ .active := hh.older y hy
    refine ⟨?_, ?_, ?_, ?_, ?_⟩
    · have hk := hh.keyed
      simp only [List.mem_cons, forall_eq_or_imp] at hk ⊢
      exact ⟨hk.1, hk.2⟩
    · simpa using hrest
    · rintro y hy z hz hya hzr
      rcases List.mem_cons.mp hy with rfl | hy
      · cases hya
      · exact absurd hya (hrest y hy)
    · simp [Repository.revoke]
    · have hc := hh.chain
      simp only [List.isChain_cons] at hc ⊢
      exact hc

/-- Only the newest record can be active. -/
theorem History.find?_active (hh : History hash h) :
    (∃ x t, h = x :: t ∧ x.status = .active ∧ h.find? (·.status = .active) = some x) ∨
    ((∀ x ∈ h, x.status ≠ .active) ∧ h.find? (·.status = .active) = none) := by
  cases h with
  | nil => exact .inr ⟨by simp, rfl⟩
  | cons x t =>
    by_cases hx : x.status = .active
    · exact .inl ⟨x, t, rfl, hx, by simp [hx]⟩
    · have hnone : ∀ y ∈ x :: t, y.status ≠ .active := by
        simpa using ⟨hx, hh.older⟩
      exact .inr ⟨hnone, by simpa using hnone⟩

theorem endActive_cons {f : AgentKeyRecord → AgentKeyRecord} {x : AgentKeyRecord}
    {t : List AgentKeyRecord} (hx : x.status = .active) :
    Repository.endActive f (x :: t) = f x :: t := by
  simp [Repository.endActive, List.findIdx?_cons, hx]

theorem endActive_of_none {f : AgentKeyRecord → AgentKeyRecord}
    (hnone : ∀ x ∈ h, x.status ≠ .active) : Repository.endActive f h = h := by
  have : h.findIdx? (·.status = .active) = none := by
    simpa [List.findIdx?_eq_none_iff] using hnone
  simp [Repository.endActive, this]

namespace Repository

variable {r r' : Repository} {t a t' a' : String}

/-- The repository with another history for one slot. -/
def setHistory (r : Repository) (t a : String) (h : List AgentKeyRecord) : Repository :=
  { r with histories := r.histories.set (agentKeyRegistryKey t a) h }

@[simp] theorem listHistory_setHistory : (r.setHistory t a h).listHistory t a = h := by
  simp [setHistory, listHistory]

theorem listHistory_setHistory_of_ne (hne : (t', a') ≠ (t, a)) :
    (r.setHistory t a h).listHistory t' a' = r.listHistory t' a' := by
  have hkey : agentKeyRegistryKey t' a' ≠ agentKeyRegistryKey t a := by
    intro heq
    obtain ⟨rfl, rfl⟩ := agentKeyRegistryKey_inj heq
    exact hne rfl
  simp only [setHistory, listHistory, OrderedMap.get_set_of_ne _ _ hkey]

/-- What a registration does: nothing, or one turn of its slot with the new record on top. -/
inductive Registration (hash : Hashing) (r : Repository) (t a publicKey : String)
    (expect : Option String) : RegisterAgentKeyResult → Repository → Prop where
  | revoked : Registration hash r t a publicKey expect .revoked r
  | conflict (current : Option AgentKeyRecord) :
      Registration hash r t a publicKey expect (.conflict current) r
  | present {record : AgentKeyRecord} : record ∈ r.listHistory t a → record.status = .active →
      record.publicKey = publicKey → Registration hash r t a publicKey expect (.ok record true) r
  | activated {record : AgentKeyRecord} {older : List AgentKeyRecord} :
      record.publicKey = publicKey →
      Turn hash (some expect) (r.listHistory t a) (record :: older) →
      Admitted hash (r.listHistory t a) record →
      Registration hash r t a publicKey expect (.ok record false)
        (r.setHistory t a (record :: older))

theorem registerSync_spec (hh : History hash (r.listHistory t a)) (now : Int)
    (activationId publicKey : String) (expect : Option String) :
    Registration hash r t a publicKey expect
      (r.registerSync hash now activationId t a publicKey expect).1
      (r.registerSync hash now activationId t a publicKey expect).2 := by
  unfold registerSync
  by_cases hrev : (r.listHistory t a).any fun record =>
      record.status = .revoked ∧ record.keyId = hash.keyId publicKey
  · rw [if_pos hrev]
    exact .revoked
  have hunrev : ∀ x ∈ r.listHistory t a, x.status = .revoked → x.keyId ≠ hash.keyId publicKey := by
    simpa using hrev
  rw [if_neg hrev]
  dsimp only
  cases hsame : (r.getActive t a).filter (·.publicKey = publicKey) with
  | some record =>
    obtain ⟨hact, hkey⟩ := Option.filter_eq_some_iff.mp hsame
    exact .present (List.mem_of_find?_eq_some hact) (by simpa using List.find?_some hact)
      (by simpa using hkey)
  | none =>
    dsimp only
    split
    case isFalse => exact .conflict _
    case isTrue hexp =>
      have hother (x) (hx : x ∈ r.getActive t a) : x.publicKey ≠ publicKey := by
        intro hk
        rw [Option.mem_def.mp hx] at hsame
        simp [hk] at hsame
      rcases hh.find?_active with ⟨x, tail, hcons, hx, hfind⟩ | ⟨hnone, hfind⟩
      · have hadm (record : AgentKeyRecord) (hst : record.status = .active)
            (hpk : record.publicKey = publicKey) (hid : record.keyId = hash.keyId publicKey) :
            Admitted hash (x :: tail) record := by
          refine ⟨hst, by rw [hid, hpk], by rw [hid, ← hcons]; exact hunrev, ?_⟩
          intro y hy hya
          rcases List.mem_cons.mp hy with rfl | hy
          · rw [hpk]
            exact hother y hfind
          · exact absurd hya (hh.older y (by rw [hcons]; exact hy))
        have hexp' : some expect = some (some x.activationId) := by
          rw [← hexp, getActive, hfind]
          rfl
        rw [hcons, endActive_cons hx]
        refine .activated rfl ?_ ?_
        · rw [hcons]
          exact .replace now (hadm _ rfl rfl rfl) hx hexp'
        · rw [hcons]
          exact hadm _ rfl rfl rfl
      · have hadm (record : AgentKeyRecord) (hst : record.status = .active)
            (hpk : record.publicKey = publicKey) (hid : record.keyId = hash.keyId publicKey) :
            Admitted hash (r.listHistory t a) record :=
          ⟨hst, by rw [hid, hpk], by rw [hid]; exact hunrev, fun y hy hya => absurd hya (hnone y hy)⟩
        have hexp' : some expect = some none := by
          rw [← hexp, getActive, hfind]
          rfl
        rw [endActive_of_none hnone]
        exact .activated rfl (.first (hadm _ rfl rfl rfl) hnone hexp') (hadm _ rfl rfl rfl)

/-- Every slot of the repository has a proper history, and records sit under their codes. -/
structure Wf (hash : Hashing) (r : Repository) : Prop where
  history : ∀ t a, History hash (r.listHistory t a)
  keyed : ∀ code e, r.enrollments.get code = some e → e.deviceCode = code

theorem Wf.create (retentionMs : Int) : Wf hash (create retentionMs) := by
  refine ⟨fun t a => ?_, fun code e he => ?_⟩
  · simp only [listHistory, Repository.create, OrderedMap.get_empty]
    exact .nil
  · simp [Repository.create] at he

theorem Wf.put (hw : Wf hash r) (e : EnrollmentRecord) : Wf hash (r.put e) := by
  refine ⟨hw.history, ?_⟩
  intro code e' he
  simp only [Repository.put, OrderedMap.get_set_eq] at he
  split at he
  · rename_i hcode
    rw [← Option.some.inj he, hcode]
  · exact hw.keyed code e' he

/-- The operation holds the claim on the record, and neither lease nor request has run out. -/
structure Holds (record : EnrollmentRecord) (opId : String) (now : Int) : Prop where
  approving : record.status = .approving
  leased : ∃ claim, record.claim = some claim ∧ claim.opId = opId ∧ now ≤ claim.leaseUntil

/-- What a commit does to the enrolment of its operation. -/
inductive Commit (hash : Hashing) (r : Repository) (now : Int) (opId : String)
    (commit : CommitApprovalPayload) : Except Failure (CommitApprovalOutcome × Repository) → Prop where
  | failed (e : Failure) : Commit hash r now opId commit (.error e)
  | claimLost : Commit hash r now opId commit (.ok (.claimLost, r))
  | recovered {record : EnrollmentRecord} {snapshot : AgentKeyRecord} :
      r.byOperation opId = some record → record.status = .approved →
      record.committedBy = some opId → Commit hash r now opId commit (.ok (.committed snapshot true, r))
  | expired {record : EnrollmentRecord} : r.byOperation opId = some record →
      Holds record opId now → record.expiresAt < now →
      Commit hash r now opId commit
        (.ok (.expired, r.put { record with status := .expired, claim := none }))
  | declined {record : EnrollmentRecord} {outcome : CommitApprovalOutcome} :
      r.byOperation opId = some record → Holds record opId now →
      (∀ k i, outcome ≠ .committed k i) →
      Commit hash r now opId commit
        (.ok (outcome, r.put { record with status := .pending, claim := none }))
  | approved {record : EnrollmentRecord} {registered : AgentKeyRecord} {r₁ : Repository}
      {idempotent : Bool} : r.byOperation opId = some record → Holds record opId now →
      now ≤ record.expiresAt →
      Registration hash r record.tenant record.accountId record.agentPublicKey commit.expect
        (.ok registered idempotent) r₁ →
      Commit hash r now opId commit (.ok (.committed registered false,
        r₁.put (approve record now opId (hash.digest commit) commit registered)))

theorem Registration.enrollments {publicKey : String} {expect : Option String}
    {result : RegisterAgentKeyResult} (h : Registration hash r t a publicKey expect result r') :
    r'.enrollments = r.enrollments := by
  cases h <;> rfl

theorem commitApproval_spec (hw : Wf hash r) (now later : Int) (activationId opId : String)
    (commit : CommitApprovalPayload) :
    Commit hash r now opId commit (r.commitApproval hash now later activationId opId commit) := by
  unfold commitApproval
  cases hrec : r.byOperation opId with
  | none => exact .claimLost
  | some record =>
    dsimp only
    by_cases hdone : record.status = .approved ∧ record.committedBy = some opId
    · rw [if_pos hdone]
      cases record.committedRecord with
      | none => exact .failed _
      | some snapshot =>
        dsimp only
        split
        · exact .recovered hrec hdone.1 hdone.2
        · exact .failed _
    rw [if_neg hdone]
    split
    · exact .claimLost
    rename_i hown
    have hholds : Holds record opId now := by
      simp only [ne_eq, not_or, Decidable.not_not, Option.any_eq_true, decide_eq_true_eq] at hown
      exact ⟨hown.1, hown.2⟩
    split
    · exact .expired hrec hholds ‹_›
    rename_i hlive
    split
    · exact .failed _
    rename_i hkey
    rw [not_not] at hkey
    have hreg := registerSync_spec (hw.history record.tenant record.accountId) later activationId
      commit.agentPublicKey commit.expect
    rw [hkey] at hreg ⊢
    rcases hres : r.registerSync hash later activationId record.tenant record.accountId
      record.agentPublicKey commit.expect with ⟨result, r₁⟩
    rw [hres] at hreg
    cases hreg with
    | revoked => exact .declined hrec hholds (by simp)
    | conflict current => exact .declined hrec hholds (by simp)
    | present hmem hact hpk =>
      exact .approved hrec hholds (Int.not_lt.mp hlive) (.present hmem hact hpk)
    | activated hpk hturn hadm =>
      exact .approved hrec hholds (Int.not_lt.mp hlive) (.activated hpk hturn hadm)

/-- How an operation other than a commit moves one enrolment. -/
inductive Move (now : Int) (e : EnrollmentRecord) : EnrollmentRecord → Prop where
  | claim (opId : String) (leaseMs : Int) : e.status = .pending ∨ e.status = .approving →
      Move now e { e with status := .approving, claim := some ⟨opId, now + leaseMs⟩ }
  | release : e.status = .approving → Move now e { e with status := .pending, claim := none }
  | deny : e.status = .pending ∨ e.status = .approving →
      Move now e { e with status := .denied, claim := none }
  | expire (claim : Option Claim) : e.status = .pending ∨ e.status = .approving →
      (claim = none ∨ e.status = .pending ∧ claim = e.claim) →
      Move now e { e with status := .expired, claim := claim }

inductive Claiming (r : Repository) (now : Int) (userCode opId : String) :
    Except Failure (ClaimApprovalOutcome × Repository) → Prop where
  | failed (e : Failure) : Claiming r now userCode opId (.error e)
  | refused {outcome : ClaimApprovalOutcome} : (∀ e, outcome ≠ .claimed e) →
      (∀ e, outcome = .alreadyApproved e → r.byUserCode userCode = some e ∧ e.status = .approved) →
      Claiming r now userCode opId (.ok (outcome, r))
  | expired {e e' : EnrollmentRecord} : r.byUserCode userCode = some e → Move now e e' →
      e'.status = .expired → Claiming r now userCode opId (.ok (.expired, r.put e'))
  | claimed {e : EnrollmentRecord} (leaseMs : Int) : r.byUserCode userCode = some e →
      (e.status = .pending ∨ e.status = .approving) → r.opIdReused e opId = false →
      Claiming r now userCode opId (.ok (r.grantClaim e now opId leaseMs))

theorem claimApproval_spec (r : Repository) (now : Int) (userCode opId : String) (leaseMs : Int) :
    Claiming r now userCode opId (r.claimApproval now userCode opId leaseMs) := by
  unfold claimApproval
  cases hrec : r.byUserCode userCode with
  | none => exact .refused (by simp) (by simp)
  | some e =>
    dsimp only
    split
    · exact .failed _
    rename_i hreuse
    rw [Bool.not_eq_true] at hreuse
    cases hst : e.status with
    | approved => exact .refused (by simp) (by rintro _ ⟨⟩; exact ⟨hrec, hst⟩)
    | denied => exact .refused (by simp) (by simp)
    | expired => exact .refused (by simp) (by simp)
    | pending =>
      dsimp only
      split
      · exact .expired hrec (.expire _ (.inl hst) (.inr ⟨hst, rfl⟩)) rfl
      · exact .claimed _ hrec (.inl hst) hreuse
    | approving =>
      dsimp only
      split
      · exact .refused (by simp) (by simp)
      · split
        · exact .expired hrec (.expire _ (.inr hst) (.inl rfl)) rfl
        · exact .claimed _ hrec (.inr hst) hreuse

theorem releaseClaim_spec (r : Repository) (now : Int) (opId : String) :
    (r.releaseClaim opId).2 = r ∨
    ∃ e ∈ r.enrollments.values, e.claimedBy opId = true ∧
      ∃ e', Move now e e' ∧ e'.status = .pending ∧ (r.releaseClaim opId).2 = r.put e' := by
  unfold releaseClaim
  cases hfind : r.enrollments.values.find? fun record =>
      record.status = .approving ∧ record.claimedBy opId with
  | none => exact .inl rfl
  | some e =>
    have hprop := List.find?_some hfind
    simp only [Bool.decide_and, Bool.decide_eq_true, Bool.and_eq_true, decide_eq_true_eq] at hprop
    exact .inr ⟨e, List.mem_of_find?_eq_some hfind, hprop.2, _, .release hprop.1, rfl, rfl⟩

theorem tryDeny_spec (r : Repository) (now : Int) (userCode : String) :
    (r.tryDeny now userCode).1 = false ∧ (r.tryDeny now userCode).2 = r ∨
    ∃ e e', r.byUserCode userCode = some e ∧ Move now e e' ∧
      (r.tryDeny now userCode).2 = r.put e' ∧
      ((r.tryDeny now userCode).1 = false ∧ e'.status = .expired ∨ e'.status = .denied) := by
  unfold tryDeny
  cases hrec : r.byUserCode userCode with
  | none => exact .inl ⟨rfl, rfl⟩
  | some e =>
    dsimp only
    split
    · exact .inl ⟨rfl, rfl⟩
    rename_i hst
    have hopen : e.status = .pending ∨ e.status = .approving := by
      rw [ne_eq, ne_eq, ← not_or, not_not] at hst
      exact hst
    split
    · exact .inr ⟨e, _, rfl, .expire _ hopen (.inl rfl), rfl, .inl ⟨rfl, rfl⟩⟩
    · exact .inr ⟨e, _, rfl, .deny hopen, rfl, .inr rfl⟩

theorem tryExpire_spec (r : Repository) (now : Int) (code : String) :
    (r.tryExpire now code).2 = r ∧ (r.tryExpire now code).1.enrollment = r.enrollments.get code ∨
    ∃ e e', r.enrollments.get code = some e ∧ Move now e e' ∧ e'.status = .expired ∧
      (r.tryExpire now code).2 = r.put e' ∧ (r.tryExpire now code).1.enrollment = some e' := by
  unfold tryExpire
  cases hrec : r.enrollments.get code with
  | none => exact .inl ⟨rfl, rfl⟩
  | some e =>
    dsimp only
    split
    · rename_i hst
      exact .inr ⟨e, _, rfl, .expire _ (.inl hst.1) (.inr ⟨hst.1, rfl⟩), rfl, rfl, rfl⟩
    split
    · rename_i hst
      exact .inr ⟨e, _, rfl, .expire _ (.inr hst.1) (.inl rfl), rfl, rfl, rfl⟩
    · exact .inl ⟨rfl, rfl⟩

/-- A reconciliation registers a key or changes nothing. -/
theorem reconcile_spec (hw : Wf hash r) (now : Int) (activationId code : String) :
    (∀ outcome r', r.reconcileApprovedRegistration hash now activationId code = .ok (outcome, r') →
      r' = r ∨ ∃ e record, r.enrollments.get code = some e ∧
        Registration hash r e.tenant e.accountId e.agentPublicKey none (.ok record false) r') := by
  intro outcome r' h
  unfold reconcileApprovedRegistration at h
  cases hrec : r.enrollments.get code with
  | none =>
    rw [hrec] at h
    cases h
    exact .inl rfl
  | some e =>
    rw [hrec] at h
    dsimp only at h
    split at h
    · cases h
      exact .inl rfl
    split at h
    · cases h
      exact .inl rfl
    split at h
    · cases h
      exact .inl rfl
    split at h
    · cases h
      exact .inl rfl
    have hreg := registerSync_spec (hw.history e.tenant e.accountId) now activationId
      e.agentPublicKey none
    rcases hres : r.registerSync hash now activationId e.tenant e.accountId
      e.agentPublicKey none with ⟨result, r₁⟩
    rw [hres] at h hreg
    cases hreg with
    | revoked => cases h
    | conflict current => cases h
    | present =>
      cases h
      exact .inl rfl
    | activated hpk hturn hadm =>
      cases h
      exact .inr ⟨e, _, rfl, .activated hpk hturn hadm⟩

@[simp] theorem remove_histories (e : EnrollmentRecord) : (r.remove e).histories = r.histories := rfl

theorem sweep_histories (l : List EnrollmentRecord) (r : Repository) :
    (l.foldl remove r).histories = r.histories := by
  induction l generalizing r with
  | nil => rfl
  | cons e l ih => rw [List.foldl_cons, ih, remove_histories]

/-- Sweeping only removes. -/
theorem sweep_enrollments (l : List EnrollmentRecord) (r : Repository) {code : String}
    {e : EnrollmentRecord} (h : (l.foldl remove r).enrollments.get code = some e) :
    r.enrollments.get code = some e := by
  induction l generalizing r with
  | nil => exact h
  | cons e' l ih =>
    have hr := ih (r.remove e') h
    simp only [remove, OrderedMap.get_delete_eq] at hr
    split at hr
    · cases hr
    · exact hr

/-- What an operation does to the histories: nothing, or one turn of its own slot. -/
inductive Effect (hash : Hashing) (r : Repository) (op : Op) (r' : Repository) : Prop where
  | none : (∀ t a, r'.listHistory t a = r.listHistory t a) → Effect hash r op r'
  | turn (t a : String) : op.slot r = some (t, a) →
      Turn hash op.expect (r.listHistory t a) (r'.listHistory t a) →
      (∀ t' a', (t', a') ≠ (t, a) → r'.listHistory t' a' = r.listHistory t' a') →
      Effect hash r op r'

theorem Registration.effect {op : Op} {publicKey : String} {expect : Option String}
    {result : RegisterAgentKeyResult} (h : Registration hash r t a publicKey expect result r')
    (hslot : op.slot r = some (t, a)) (hexp : op.expect = some expect) : Effect hash r op r' := by
  cases h with
  | revoked => exact .none fun _ _ => rfl
  | conflict current => exact .none fun _ _ => rfl
  | present => exact .none fun _ _ => rfl
  | activated hpk hturn hadm =>
    refine .turn t a hslot ?_ fun t' a' hne => listHistory_setHistory_of_ne hne
    rw [hexp, listHistory_setHistory]
    exact hturn

theorem Effect.put {op : Op} (h : Effect hash r op r') (e : EnrollmentRecord) :
    Effect hash r op (r'.put e) := by
  cases h with
  | none h => exact .none h
  | turn t a hslot hturn hrest => exact .turn t a hslot hturn hrest

theorem revokeActive_effect (hw : Wf hash r) (now : Int) (t a : String) :
    Effect hash r (.revokeActive now t a) (r.revokeActive now t a).2 := by
  unfold revokeActive
  split
  case isFalse => exact .none fun _ _ => rfl
  case isTrue hsome =>
    refine .turn t a rfl ?_ fun t' a' hne => listHistory_setHistory_of_ne hne
    change Turn _ _ _ ((r.setHistory t a _).listHistory t a)
    rw [listHistory_setHistory]
    rcases (hw.history t a).find?_active with ⟨x, tail, hcons, hx, -⟩ | ⟨-, hfind⟩
    · rw [hcons, endActive_cons hx]
      exact .revoke now hx
    · rw [getActive, hfind] at hsome
      cases hsome

theorem run_effect (hw : Wf hash r) (op : Op) : Effect hash r op (op.run hash r) := by
  cases op with
  | createEnrollment e =>
    simp only [Op.run, createEnrollment]
    split
    · exact .none fun _ _ => rfl
    split
    · exact .none fun _ _ => rfl
    · exact .none fun _ _ => rfl
  | claimApproval now userCode opId leaseMs =>
    have hspec := claimApproval_spec r now userCode opId leaseMs
    simp only [Op.run]
    generalize r.claimApproval now userCode opId leaseMs = result at hspec ⊢
    cases hspec <;> exact .none fun _ _ => rfl
  | commitApproval now later activationId opId commit =>
    have hspec := commitApproval_spec hw now later activationId opId commit
    simp only [Op.run]
    generalize r.commitApproval hash now later activationId opId commit = result at hspec ⊢
    cases hspec with
    | failed e => exact .none fun _ _ => rfl
    | claimLost => exact .none fun _ _ => rfl
    | recovered => exact .none fun _ _ => rfl
    | expired => exact .none fun _ _ => rfl
    | declined => exact .none fun _ _ => rfl
    | approved hrec hholds hlive hreg =>
      refine (hreg.effect ?_ rfl).put _
      simp [Op.slot, hrec]
  | releaseClaim opId =>
    rcases releaseClaim_spec r 0 opId with h | ⟨e, -, -, e', -, -, h⟩
    · exact .none fun _ _ => by rw [Op.run, h]
    · exact .none fun _ _ => by rw [Op.run, h]; rfl
  | tryDeny now userCode =>
    rcases tryDeny_spec r now userCode with ⟨-, h⟩ | ⟨e, e', -, -, h, -⟩
    · exact .none fun _ _ => by rw [Op.run, h]
    · exact .none fun _ _ => by rw [Op.run, h]; rfl
  | tryExpire now code =>
    rcases tryExpire_spec r now code with ⟨h, -⟩ | ⟨e, e', -, -, -, h, -⟩
    · exact .none fun _ _ => by rw [Op.run, h]
    · exact .none fun _ _ => by rw [Op.run, h]; rfl
  | reconcileApprovedRegistration now activationId code =>
    have hspec := reconcile_spec hw now activationId code
    simp only [Op.run]
    generalize r.reconcileApprovedRegistration hash now activationId code = result at hspec ⊢
    rcases result with e | ⟨outcome, r'⟩
    · exact .none fun _ _ => rfl
    · rcases hspec outcome r' rfl with rfl | ⟨e, record, he, hreg⟩
      · exact .none fun _ _ => rfl
      · refine hreg.effect ?_ rfl
        simp [Op.slot, he]
  | register now activationId t a publicKey expect =>
    exact (registerSync_spec (hw.history t a) now activationId publicKey expect).effect rfl rfl
  | revokeActive now t a => exact revokeActive_effect hw now t a
  | sweep now =>
    refine .none fun t a => ?_
    simp only [Op.run, sweep, listHistory, sweep_histories]

theorem run_keyed (hw : Wf hash r) (op : Op) {code : String} {e : EnrollmentRecord}
    (he : (op.run hash r).enrollments.get code = some e) : e.deviceCode = code := by
  cases op with
  | createEnrollment e' =>
    simp only [Op.run, createEnrollment] at he
    split at he
    · exact hw.keyed code e he
    split at he
    · exact hw.keyed code e he
    · exact (hw.put e').keyed code e he
  | claimApproval now userCode opId leaseMs =>
    have hspec := claimApproval_spec r now userCode opId leaseMs
    simp only [Op.run] at he
    generalize r.claimApproval now userCode opId leaseMs = result at hspec he
    cases hspec with
    | failed => exact hw.keyed code e he
    | refused => exact hw.keyed code e he
    | expired => exact (hw.put _).keyed code e he
    | claimed => exact (hw.put _).keyed code e he
  | commitApproval now later activationId opId commit =>
    have hspec := commitApproval_spec hw now later activationId opId commit
    simp only [Op.run] at he
    generalize r.commitApproval hash now later activationId opId commit = result at hspec he
    cases hspec with
    | failed => exact hw.keyed code e he
    | claimLost => exact hw.keyed code e he
    | recovered => exact hw.keyed code e he
    | expired => exact (hw.put _).keyed code e he
    | declined => exact (hw.put _).keyed code e he
    | approved hrec hholds hlive hreg =>
      simp only [Except.toOption, Option.map_some, Option.getD_some, Repository.put] at he
      rw [hreg.enrollments] at he
      exact (hw.put _).keyed code e he
  | releaseClaim opId =>
    rcases releaseClaim_spec r 0 opId with h | ⟨_, -, -, e', -, -, h⟩
    · exact hw.keyed code e (by rwa [Op.run, h] at he)
    · exact (hw.put e').keyed code e (by rwa [Op.run, h] at he)
  | tryDeny now userCode =>
    rcases tryDeny_spec r now userCode with ⟨-, h⟩ | ⟨_, e', -, -, h, -⟩
    · exact hw.keyed code e (by rwa [Op.run, h] at he)
    · exact (hw.put e').keyed code e (by rwa [Op.run, h] at he)
  | tryExpire now code' =>
    rcases tryExpire_spec r now code' with ⟨h, -⟩ | ⟨_, e', -, -, -, h, -⟩
    · exact hw.keyed code e (by rwa [Op.run, h] at he)
    · exact (hw.put e').keyed code e (by rwa [Op.run, h] at he)
  | reconcileApprovedRegistration now activationId code' =>
    have hspec := reconcile_spec hw now activationId code'
    simp only [Op.run] at he
    generalize r.reconcileApprovedRegistration hash now activationId code' = result at hspec he
    rcases result with _ | ⟨outcome, r'⟩
    · exact hw.keyed code e he
    · rcases hspec outcome r' rfl with rfl | ⟨_, record, -, hreg⟩
      · exact hw.keyed code e he
      · refine hw.keyed code e ?_
        rw [← hreg.enrollments]
        exact he
  | register now activationId t a publicKey expect =>
    refine hw.keyed code e ?_
    rw [← (registerSync_spec (hw.history t a) now activationId publicKey expect).enrollments]
    exact he
  | revokeActive now t a =>
    refine hw.keyed code e ?_
    simp only [Op.run, revokeActive] at he
    split at he <;> exact he
  | sweep now => exact hw.keyed code e (sweep_enrollments _ r he)

theorem Effect.history {op : Op} (h : Effect hash r op r') (hw : Wf hash r) (t a : String) :
    History hash (r'.listHistory t a) := by
  cases h with
  | none h =>
    rw [h]
    exact hw.history t a
  | turn t₀ a₀ _ hturn hrest =>
    by_cases hslot : (t, a) = (t₀, a₀)
    · obtain ⟨rfl, rfl⟩ := Prod.mk.inj hslot
      exact hturn.history (hw.history t a)
    · rw [hrest t a hslot]
      exact hw.history t a

theorem Wf.run (hw : Wf hash r) (op : Op) : Wf hash (op.run hash r) :=
  ⟨(run_effect hw op).history hw, fun _ _ => run_keyed hw op⟩

theorem Wf.of_reached {retentionMs : Int} (hr : Reached (Op.step hash) (Repository.create retentionMs) r) :
    Wf hash r := by
  refine hr.invariant (.create retentionMs) ?_
  intro r op r' hw _ hstep
  obtain rfl := Option.some.inj hstep
  exact hw.run op

end Repository

/-- What can become of a record of a history. -/
inductive Ages (expect : Option (Option String)) (x : AgentKeyRecord) : AgentKeyRecord → Prop where
  | same : Ages expect x x
  | superseded (now : Int) (activationId : String) : x.status = .active →
      expect = some (some x.activationId) → Ages expect x (Repository.supersede x now activationId)
  | revoked (now : Int) : x.status = .active → Ages expect x (Repository.revoke x now)

/-- A record of the slot is active afterwards that was not in its history before. -/
def Activates (r r' : Repository) (t a : String) : Prop :=
  ∃ x ∈ r'.listHistory t a, x.status = .active ∧ x ∉ r.listHistory t a

/-- The enrolment is approved afterwards and was not before. -/
def Approves (r r' : Repository) (code : String) : Prop :=
  (r'.enrollments.get code).any (·.status = .approved) = true ∧
    (r.enrollments.get code).any (·.status = .approved) = false

/-- A commit activates a record exactly when it approves the enrolment of its operation,
unless the key of that enrolment is the active one already. -/
def CommitsTogether (hash : Hashing) (r : Repository) (now later : Int) (activationId opId : String)
    (commit : CommitApprovalPayload) : Prop :=
  let r' := (Op.commitApproval now later activationId opId commit).run hash r
  ∀ t a, Activates r r' t a ↔ ∃ e, r.byOperation opId = some e ∧ (e.tenant, e.accountId) = (t, a) ∧
    Approves r r' e.deviceCode ∧
    ∀ x ∈ r.listHistory t a, x.status = .active → x.publicKey ≠ e.agentPublicKey

/-- The registry in one state. -/
structure Repository.Sound (hash : Hashing) (r : Repository) : Prop where
  oneActive : ∀ t a, (r.listHistory t a).countP (·.status = .active) ≤ 1
  unrevoked : ∀ t a, ∀ x ∈ r.listHistory t a, ∀ y ∈ r.listHistory t a,
    x.status = .active → y.status = .revoked →
    x.keyId ≠ y.keyId ∧ hash.decode x.publicKey ≠ hash.decode y.publicKey
  superseded : ∀ t a i x, (r.listHistory t a)[i]? = some x → x.status = .superseded →
    ∃ j y, i = j + 1 ∧ (r.listHistory t a)[j]? = some y ∧ x.supersededBy = some y.activationId

/-- The registry across one operation. -/
structure Op.Lawful (hash : Hashing) (r : Repository) (op : Op) : Prop where
  kept : ∀ t a, ∃ newer older, (op.run hash r).listHistory t a = newer ++ older ∧
    List.Forall₂ (Ages op.expect) (r.listHistory t a) older
  frame : ∀ t a, op.slot r ≠ some (t, a) →
    (op.run hash r).listHistory t a = r.listHistory t a

variable {r r' : Repository} {t a : String}

theorem Ages.refl_list (l : List AgentKeyRecord) : List.Forall₂ (Ages expect) l l :=
  List.forall₂_same.mpr fun _ _ => .same

theorem Turn.ages (ht : Turn hash expect h h') :
    ∃ newer older, h' = newer ++ older ∧ List.Forall₂ (Ages expect) h older := by
  cases ht with
  | @first h record => exact ⟨[record], h, rfl, Ages.refl_list h⟩
  | @replace h x record now _ hx hexp =>
    exact ⟨[record], _, rfl, .cons (.superseded now _ hx hexp) (Ages.refl_list h)⟩
  | @revoke h x now hx => exact ⟨[], _, rfl, .cons (.revoked now hx) (Ages.refl_list h)⟩

theorem Repository.Effect.lawful {op : Op} (he : Effect hash r op (op.run hash r)) :
    op.Lawful hash r := by
  cases he with
  | none hsame =>
    exact ⟨fun t a => ⟨[], _, hsame t a, Ages.refl_list _⟩, fun t a _ => hsame t a⟩
  | turn t₀ a₀ hslot hturn hrest =>
    constructor
    · intro t a
      by_cases heq : (t, a) = (t₀, a₀)
      · obtain ⟨rfl, rfl⟩ := Prod.mk.inj heq
        exact hturn.ages
      · exact ⟨[], _, hrest t a heq, Ages.refl_list _⟩
    · intro t a hne
      refine hrest t a fun heq => hne ?_
      rw [hslot, heq]

theorem History.countP_active (hh : History hash h) : h.countP (·.status = .active) ≤ 1 := by
  cases h with
  | nil => simp
  | cons x t =>
    have htail : t.countP (·.status = .active) = 0 := by
      rw [List.countP_eq_zero]
      simpa using hh.older
    rw [List.countP_cons, htail]
    split <;> omega

/-- The record above a superseded one is the activation that it names. -/
theorem History.superseded (hh : History hash h) {i : Nat} {x : AgentKeyRecord}
    (hi : h[i]? = some x) (hx : x.status = .superseded) :
    ∃ j y, i = j + 1 ∧ h[j]? = some y ∧ x.supersededBy = some y.activationId := by
  cases i with
  | zero =>
    rw [← List.head?_eq_getElem?] at hi
    exact absurd hx (hh.newest x hi)
  | succ j =>
    obtain ⟨hlt, hget⟩ := List.getElem?_eq_some_iff.mp hi
    have hchain := List.isChain_iff_getElem.mp hh.chain j (by omega)
    refine ⟨j, h[j], rfl, List.getElem?_eq_getElem _, ?_⟩
    rw [hget] at hchain
    exact hchain hx

theorem Repository.Wf.sound (hw : Wf hash r) : r.Sound hash := by
  refine ⟨fun t a => (hw.history t a).countP_active, ?_, fun t a i x => (hw.history t a).superseded⟩
  intro t a x hx y hy hxa hyr
  have hne := (hw.history t a).unrevoked x hx y hy hxa hyr
  refine ⟨hne, fun hdec => hne ?_⟩
  rw [(hw.history t a).keyed x hx, (hw.history t a).keyed y hy, Hashing.keyId, Hashing.keyId, hdec]

theorem not_activates_of_eq (h : r'.listHistory t a = r.listHistory t a) : ¬ Activates r r' t a := by
  rintro ⟨x, hx, -, hnew⟩
  rw [h] at hx
  exact hnew hx

theorem not_approves_self (code : String) : ¬ Approves r r code := by
  rintro ⟨h, h'⟩
  rw [h] at h'
  cases h'

theorem not_approves_put {e : EnrollmentRecord} (he : e.status ≠ .approved) (code : String) :
    ¬ Approves r (r.put e) code := by
  rintro ⟨h, h'⟩
  simp only [Repository.put, OrderedMap.get_set_eq] at h
  split at h
  · simp [he] at h
  · rw [h] at h'
    cases h'

theorem Repository.Wf.get_byOperation (hw : Wf hash r) {opId : String} {e : EnrollmentRecord}
    (he : r.byOperation opId = some e) : r.enrollments.get e.deviceCode = some e := by
  obtain ⟨code, hcode⟩ := OrderedMap.mem_values.mp (List.mem_of_find?_eq_some he)
  rw [hw.keyed code e hcode]
  exact hcode

/-- Neither side of the equivalence holds when a commit only moves its enrolment elsewhere. -/
theorem together_of_neither {opId : String} (hist : ∀ t a, r'.listHistory t a = r.listHistory t a)
    (happ : ∀ code, ¬ Approves r r' code) (t a : String) :
    Activates r r' t a ↔ ∃ e, r.byOperation opId = some e ∧ (e.tenant, e.accountId) = (t, a) ∧
      Approves r r' e.deviceCode ∧
      ∀ x ∈ r.listHistory t a, x.status = .active → x.publicKey ≠ e.agentPublicKey := by
  constructor
  · intro hact
    exact absurd hact (not_activates_of_eq (hist t a))
  · rintro ⟨e, -, -, ha, -⟩
    exact absurd ha (happ _)

theorem Repository.Wf.commitsTogether (hw : Wf hash r) (now later : Int)
    (activationId opId : String) (commit : CommitApprovalPayload) :
    CommitsTogether hash r now later activationId opId commit := by
  intro t a
  have hspec := commitApproval_spec hw now later activationId opId commit
  simp only [Op.run]
  generalize r.commitApproval hash now later activationId opId commit = result at hspec ⊢
  cases hspec with
  | failed e => exact together_of_neither (fun _ _ => rfl) not_approves_self t a
  | claimLost => exact together_of_neither (fun _ _ => rfl) not_approves_self t a
  | recovered => exact together_of_neither (fun _ _ => rfl) not_approves_self t a
  | expired =>
    apply together_of_neither
    · exact fun _ _ => rfl
    · exact not_approves_put (by simp)
  | declined =>
    apply together_of_neither
    · exact fun _ _ => rfl
    · exact not_approves_put (by simp)
  | @approved e registered r₁ idempotent hrec hholds hlive hreg =>
    have happ : Approves r (r₁.put (approve e now opId (hash.digest commit) commit registered))
        e.deviceCode := by
      constructor
      · simp [Repository.put, approve]
      · simp [hw.get_byOperation hrec, hholds.approving]
    cases hreg with
    | present hmem hact hpk =>
      constructor
      · intro h
        exact absurd h (not_activates_of_eq rfl)
      · rintro ⟨e', he', hslot, -, hother⟩
        obtain rfl := Option.some.inj (hrec.symm.trans he')
        obtain ⟨rfl, rfl⟩ := Prod.mk.inj hslot
        exact absurd hpk (hother _ hmem hact)
    | activated hpk hturn hadm =>
      constructor
      · intro h
        have hslot : (e.tenant, e.accountId) = (t, a) := by
          by_contra hne
          exact not_activates_of_eq (listHistory_setHistory_of_ne (Ne.symm hne)) h
        refine ⟨e, hrec, hslot, happ, ?_⟩
        obtain ⟨rfl, rfl⟩ := Prod.mk.inj hslot
        rw [← hpk]
        exact hadm.other
      · rintro ⟨e', he', hslot, -, -⟩
        obtain rfl := Option.some.inj (hrec.symm.trans he')
        obtain ⟨rfl, rfl⟩ := Prod.mk.inj hslot
        refine ⟨registered, ?_, hadm.active, hadm.fresh⟩
        change registered ∈ (r.setHistory _ _ _).listHistory _ _
        simp

/-- The registry keeps its order in every state that any sequence of operations reaches, and
every operation from there is lawful. -/
theorem registry_lawful (hash : Hashing) (retentionMs : Int) {r : Repository}
    (hr : Reached (Op.step hash) (Repository.create retentionMs) r) :
    r.Sound hash ∧ (∀ op : Op, op.Lawful hash r) ∧
      ∀ now later activationId opId commit,
        CommitsTogether hash r now later activationId opId commit := by
  have hw := Repository.Wf.of_reached hr
  exact ⟨hw.sound, fun op => (Repository.run_effect hw op).lawful, hw.commitsTogether⟩

/-- Keys are their own bytes and hashes: nothing collides. -/
def plainHashing : Hashing where
  decode key := key.toList.map fun c => UInt8.ofNat c.toNat
  sha256 bytes := String.ofList (bytes.map fun b => Char.ofNat b.toNat)
  digest commit := commit.peerId

def samplePayload (peerId : String) (expect : Option String) : CommitApprovalPayload where
  creds := ⟨"jwt", "seed", "pub", none⟩
  peerId := peerId
  agentPublicKey := "key"
  expect := expect

def sampleEnrollment (deviceCode userCode : String) : EnrollmentRecord where
  deviceCode := deviceCode
  userCode := userCode
  agentPublicKey := "key"
  accountId := "account"
  tenant := "tenant"
  createdAt := 0
  expiresAt := 100
  status := .pending
  claim := none
  approvedAt := none
  committedBy := none
  commitDigest := none
  committedRecord := none
  natsCreds := none
  peerId := none

/-- Two enrolments of one key: the first is approved, the second claimed. -/
def sampleOps : List Op :=
  [.createEnrollment (sampleEnrollment "d1" "u1"), .createEnrollment (sampleEnrollment "d2" "u2"),
    .claimApproval 1 "u1" "op1" 10, .commitApproval 2 2 "first" "op1" (samplePayload "p1" none),
    .claimApproval 3 "u2" "op2" 10]

def sampleRepository : Repository :=
  sampleOps.foldl (fun r op => op.run plainHashing r) (.create 1000)

theorem sampleRepository_reached :
    Reached (Op.step plainHashing) (Repository.create 1000) sampleRepository := by
  have hexec (ops : List Op) (r : Repository) : exec (Op.step plainHashing) r ops =
      some (ops.foldl (fun r op => op.run plainHashing r) r) := by
    induction ops generalizing r with
    | nil => rfl
    | cons op ops ih => exact ih _
  exact reached_of_exec (hexec sampleOps _)

theorem registry_lawful_sample : sampleRepository.Sound plainHashing ∧
    (∀ op : Op, op.Lawful plainHashing sampleRepository) ∧
    ∀ now later activationId opId commit,
      CommitsTogether plainHashing sampleRepository now later activationId opId commit :=
  registry_lawful plainHashing 1000 sampleRepository_reached

/-- The second enrolment carries the key that is active already. Its commit, which names that
activation, approves it and activates nothing. -/
theorem commit_approves_without_activating : ¬ ∀ (hash : Hashing) (retentionMs : Int)
    (r : Repository), Reached (Op.step hash) (Repository.create retentionMs) r →
    ∀ now later activationId opId commit,
      (∃ t a, Activates r ((Op.commitApproval now later activationId opId commit).run hash r) t a) ↔
        ∃ code, Approves r ((Op.commitApproval now later activationId opId commit).run hash r) code := by
  intro h
  have happ : Approves sampleRepository ((Op.commitApproval 4 4 "second" "op2"
      (samplePayload "p2" (some "first"))).run plainHashing sampleRepository) "d2" := by
    constructor <;> decide +kernel
  obtain ⟨t, a, hact⟩ := (h plainHashing 1000 _ sampleRepository_reached 4 4 "second" "op2"
    (samplePayload "p2" (some "first"))).mpr ⟨"d2", happ⟩
  refine not_activates_of_eq ?_ hact
  have hentries : ((Op.commitApproval 4 4 "second" "op2" (samplePayload "p2" (some "first"))).run
      plainHashing sampleRepository).histories.entries = sampleRepository.histories.entries := by
    decide +kernel
  simp only [Repository.listHistory, OrderedMap.get, hentries]

end Webchannel.Enrollment
