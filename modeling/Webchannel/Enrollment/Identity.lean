import Webchannel.Enrollment.DeviceFlow

/-!
# One credential per enrolment

Every step moves each stored enrolment by at most one of a few shifts, and an approval, a
denial or an answer is recorded together with the shift that causes it. From this the
invariant of the whole flow follows: an enrolment is approved at most once, with the
payload of the operation that held its claim, and what is handed out later is read from
that approval.
-/

namespace Webchannel.Enrollment

open Webchannel.Runs

variable {hash : Hashing} {s s' : System}

/-- The commit a step may carry out: the operation and its payload. -/
abbrev Committing := Option (String × CommitApprovalPayload)

/-- What one step does to what is stored under a device code. -/
inductive Shift (now : Int) (granted : Option String) (committing : Committing) (known known' : List String)
    (code : String) : Option EnrollmentRecord → Option EnrollmentRecord → Prop where
  | same (x : Option EnrollmentRecord) : Shift now granted committing known known' code x x
  | removed (x : Option EnrollmentRecord) : Shift now granted committing known known' code x none
  | created {e : EnrollmentRecord} : code ∉ known → code ∈ known' → e.status = .pending → e.claim = none →
      e.committedBy = none → Shift now granted committing known known' code none (some e)
  | moved {e e' : EnrollmentRecord} : Repository.Move now e e' →
      (∀ opId, e'.claimedBy opId = true → e.claimedBy opId = true ∨ granted = some opId) →
      Shift now granted committing known known' code (some e) (some e')
  | approved {e : EnrollmentRecord} {opId digest : String} {payload : CommitApprovalPayload}
      {registered : AgentKeyRecord} : committing = some (opId, payload) →
      Repository.Holds e opId now → now ≤ e.expiresAt →
      Shift now granted committing known known' code (some e)
        (some (Repository.approve e now opId digest payload registered))

/-- A new event is the one that the shift of its enrolment calls for. -/
def Event.Backed (committing : Committing) (s s' : System) : Event → Prop
  | .approved code creds peerId => ∃ opId payload e e', committing = some (opId, payload) ∧
      creds = payload.creds ∧ peerId = payload.peerId ∧
      s.repository.enrollments.get code = some e ∧ e.status = .approving ∧
      s'.repository.enrollments.get code = some e' ∧ e'.status = .approved ∧
      e'.natsCreds = some creds ∧ e'.peerId = some peerId
  | .denied code => ∃ e e', s.repository.enrollments.get code = some e ∧
      (e.status = .pending ∨ e.status = .approving) ∧
      s'.repository.enrollments.get code = some e' ∧ e'.status = .denied
  | .credentials code creds peerId => .approved code creds peerId ∈ s'.events
  | _ => True

/-- The enrolment that a call deals with under its operation id. -/
def Stage.operation : Stage → Option (String × EnrollmentRecord)
  | .checking _ _ opId e => some (opId, e)
  | .choosing _ _ opId e => some (opId, e)
  | .minting _ opId e _ => some (opId, e)
  | .committing _ opId e _ _ => some (opId, e)
  | _ => none

/-- The payload that a call may have committed. -/
def Stage.payload : Stage → Option CommitApprovalPayload
  | .committing _ _ _ payload _ => some payload
  | _ => none

/-- The approved enrolment that a call has been shown. -/
def Stage.snapshot : Stage → Option EnrollmentRecord
  | .reconciling _ e => some e
  | .comparing _ e => some e
  | _ => none

/-- What a call relies on. -/
structure Stage.Sound (stage : Stage) (s : System) : Prop where
  drawn : ∀ opId e, stage.operation = some (opId, e) → opId ∈ s.opIds
  claimed : ∀ opId e code e', stage.operation = some (opId, e) →
    s.repository.enrollments.get code = some e' → e'.claimedBy opId = true → code = e.deviceCode
  committed : ∀ opId e code e', stage.operation = some (opId, e) →
    s.repository.enrollments.get code = some e' → e'.committedBy = some opId →
    code = e.deviceCode ∧ ∃ payload, stage.payload = some payload ∧
      e'.natsCreds = some payload.creds ∧ e'.peerId = some payload.peerId
  shown : ∀ e, stage.snapshot = some e → ∃ creds peerId, e.natsCreds = some creds ∧
    e.peerId = some peerId ∧ .approved e.deviceCode creds peerId ∈ s.events

structure System.Inv (hash : Hashing) (s : System) : Prop where
  wf : s.repository.Wf hash
  stored : ∀ code e, s.repository.enrollments.get code = some e → code ∈ s.deviceCodes
  happened : ∀ code, (∃ creds peerId, .approved code creds peerId ∈ s.events) ∨
    .denied code ∈ s.events → code ∈ s.deviceCodes
  opIds : ∀ code e opId, s.repository.enrollments.get code = some e →
    (e.claimedBy opId = true ∨ e.committedBy = some opId) → opId ∈ s.opIds
  recorded : ∀ code e, s.repository.enrollments.get code = some e → e.status = .approved →
    ∃ creds peerId, e.natsCreds = some creds ∧ e.peerId = some peerId ∧
      .approved code creds peerId ∈ s.events
  approved : ∀ code creds peerId e, .approved code creds peerId ∈ s.events →
    s.repository.enrollments.get code = some e → e.status = .approved
  once : ∀ code creds peerId creds' peerId', .approved code creds peerId ∈ s.events →
    .approved code creds' peerId' ∈ s.events → creds = creds' ∧ peerId = peerId'
  denied : ∀ code, .denied code ∈ s.events →
    (∀ e, s.repository.enrollments.get code = some e → e.status = .denied) ∧
    ∀ creds peerId, .approved code creds peerId ∉ s.events
  answered : ∀ code creds peerId, .credentials code creds peerId ∈ s.events →
    .approved code creds peerId ∈ s.events
  calls : ∀ (i : Nat) (stage : Stage), s.calls[i]? = some stage → stage.Sound s
  distinct : ∀ (i j : Nat) (stage stage' : Stage) opId e e', s.calls[i]? = some stage → s.calls[j]? = some stage' →
    stage.operation = some (opId, e) → stage'.operation = some (opId, e') → i = j

/-- What a step does to everything but the calls. -/
structure Advance (hash : Hashing) (granted : Option String) (committing : Committing)
    (s s' : System) : Prop where
  wf : s'.repository.Wf hash
  shift : ∀ code, Shift s.clock granted committing s.deviceCodes s'.deviceCodes code
    (s.repository.enrollments.get code) (s'.repository.enrollments.get code)
  events : ∃ new, s'.events = s.events ++ new ∧ ∀ event ∈ new, event.Backed committing s s'
  noted : ∀ code e e', s.repository.enrollments.get code = some e → e.status ≠ .approved →
    s'.repository.enrollments.get code = some e' → e'.status = .approved →
    ∃ creds peerId, e'.natsCreds = some creds ∧ e'.peerId = some peerId ∧
      .approved code creds peerId ∈ s'.events
  codes : s.deviceCodes ⊆ s'.deviceCodes
  opIds : s.opIds ⊆ s'.opIds
  granted : ∀ opId ∈ granted, opId ∈ s'.opIds ∧ opId ∉ s.opIds
  committing : ∀ opId payload, committing = some (opId, payload) → opId ∈ s.opIds

theorem Move.open {now : Int} {e e' : EnrollmentRecord} (h : Repository.Move now e e') :
    (e.status = .pending ∨ e.status = .approving) ∧ e'.status ≠ .approved ∧
      e'.committedBy = e.committedBy := by
  cases h with
  | claim _ _ h => exact ⟨h, by simp, rfl⟩
  | release h => exact ⟨.inr h, by simp, rfl⟩
  | deny h => exact ⟨h, by simp, rfl⟩
  | expire _ h _ => exact ⟨h, by simp, rfl⟩

variable {granted : Option String} {committing : Committing}

theorem Advance.old_event (ha : Advance hash granted committing s s') {event : Event}
    (he : event ∈ s.events) : event ∈ s'.events := by
  obtain ⟨new, heq, -⟩ := ha.events
  rw [heq]
  exact List.mem_append_left _ he

theorem Advance.event_cases (ha : Advance hash granted committing s s') {event : Event}
    (he : event ∈ s'.events) : event ∈ s.events ∨ event.Backed committing s s' := by
  obtain ⟨new, heq, hnew⟩ := ha.events
  rw [heq] at he
  rcases List.mem_append.mp he with h | h
  · exact .inl h
  · exact .inr (hnew event h)

/-- A stored record in a final state only stays or goes. -/
theorem Shift.final {now : Int} {known known' : List String} {code : String} {e e' : EnrollmentRecord}
    (h : Shift now granted committing known known' code (some e) (some e'))
    (he : e.status ≠ .pending ∧ e.status ≠ .approving) : e' = e := by
  cases h with
  | same => rfl
  | moved hm _ =>
    rcases (Move.open hm).1 with h | h
    · exact absurd h he.1
    · exact absurd h he.2
  | approved _ hh _ => exact absurd hh.approving he.2

/-- What is known of a code that has been drawn before the step. -/
theorem Advance.earlier (ha : Advance hash granted committing s s') {code : String}
    {e' : EnrollmentRecord} (hcode : code ∈ s.deviceCodes)
    (he' : s'.repository.enrollments.get code = some e') :
    ∃ e, s.repository.enrollments.get code = some e := by
  have hs := ha.shift code
  cases hget : s.repository.enrollments.get code with
  | some e => exact ⟨e, rfl⟩
  | none =>
    rw [hget, he'] at hs
    cases hs with
    | created hk => exact absurd hcode hk

theorem Advance.stored (ha : Advance hash granted committing s s') (hi : s.Inv hash) {code : String}
    {e' : EnrollmentRecord} (he' : s'.repository.enrollments.get code = some e') :
    code ∈ s'.deviceCodes := by
  have hs := ha.shift code
  cases hget : s.repository.enrollments.get code with
  | some e => exact ha.codes (hi.stored code e hget)
  | none =>
    rw [hget, he'] at hs
    cases hs with
    | created _ hk => exact hk

/-- The operation of another call finds its claims and commits where they were. -/
theorem Advance.sound (ha : Advance hash granted committing s s') {stage : Stage}
    (hst : stage.Sound s)
    (hother : ∀ opId e payload, stage.operation = some (opId, e) → committing ≠ some (opId, payload)) :
    stage.Sound s' := by
  refine ⟨fun opId e hop => ha.opIds (hst.drawn opId e hop), ?_, ?_, ?_⟩
  · intro opId e code e' hop he' hclaim
    have hs := ha.shift code
    rw [he'] at hs
    cases hget : s.repository.enrollments.get code with
    | none =>
      rw [hget] at hs
      cases hs with
      | created _ _ _ hnone _ => simp [EnrollmentRecord.claimedBy, hnone] at hclaim
    | some e₀ =>
      rw [hget] at hs
      cases hs with
      | same => exact hst.claimed opId e code _ hop hget hclaim
      | moved _ hback =>
        rcases hback opId hclaim with h | h
        · exact hst.claimed opId e code e₀ hop hget h
        · exact absurd (hst.drawn opId e hop) (ha.granted opId h).2
      | approved => simp [EnrollmentRecord.claimedBy, Repository.approve] at hclaim
  · intro opId e code e' hop he' hcom
    have hs := ha.shift code
    rw [he'] at hs
    cases hget : s.repository.enrollments.get code with
    | none =>
      rw [hget] at hs
      cases hs with
      | created _ _ _ _ hnone =>
        rw [hnone] at hcom
        cases hcom
    | some e₀ =>
      rw [hget] at hs
      cases hs with
      | same => exact hst.committed opId e code _ hop hget hcom
      | moved hm _ =>
        rw [(Move.open hm).2.2] at hcom
        have := hst.committed opId e code e₀ hop hget hcom
        cases hm <;> exact this
      | approved hc _ _ =>
        obtain rfl : _ = opId := Option.some.inj hcom
        exact absurd hc (hother _ e _ hop)
  · intro e hsn
    obtain ⟨creds, peerId, hc, hp, hev⟩ := hst.shown e hsn
    exact ⟨creds, peerId, hc, hp, ha.old_event hev⟩

theorem Advance.inv (ha : Advance hash granted committing s s') (hi : s.Inv hash)
    (hcalls : ∀ (i : Nat) (stage : Stage), s'.calls[i]? = some stage → stage.Sound s')
    (hdistinct : ∀ (i j : Nat) (stage stage' : Stage) opId e e', s'.calls[i]? = some stage →
      s'.calls[j]? = some stage' → stage.operation = some (opId, e) →
      stage'.operation = some (opId, e') → i = j) : s'.Inv hash where
  wf := ha.wf
  stored := fun _ _ => ha.stored hi
  happened := by
    intro code h
    rcases h with ⟨creds, peerId, h⟩ | h
    · rcases ha.event_cases h with h | ⟨_, _, _, e', -, -, -, -, -, he', -⟩
      · exact ha.codes (hi.happened code (.inl ⟨creds, peerId, h⟩))
      · exact ha.stored hi he'
    · rcases ha.event_cases h with h | ⟨_, e', -, -, he', -⟩
      · exact ha.codes (hi.happened code (.inr h))
      · exact ha.stored hi he'
  opIds := by
    intro code e' opId he' hown
    have hs := ha.shift code
    rw [he'] at hs
    cases hget : s.repository.enrollments.get code with
    | none =>
      rw [hget] at hs
      cases hs with
      | created _ _ _ hnone hnone' => simp [EnrollmentRecord.claimedBy, hnone, hnone'] at hown
    | some e =>
      rw [hget] at hs
      cases hs with
      | same => exact ha.opIds (hi.opIds code _ opId hget hown)
      | moved hm hback =>
        rcases hown with h | h
        · rcases hback opId h with h | h
          · exact ha.opIds (hi.opIds code e opId hget (.inl h))
          · exact (ha.granted opId h).1
        · rw [(Move.open hm).2.2] at h
          exact ha.opIds (hi.opIds code e opId hget (.inr h))
      | approved hc _ _ =>
        rcases hown with h | h
        · simp [EnrollmentRecord.claimedBy, Repository.approve] at h
        · obtain rfl : _ = opId := Option.some.inj h
          exact ha.opIds (ha.committing _ _ hc)
  recorded := by
    intro code e' he' hst
    have hs := ha.shift code
    rw [he'] at hs
    cases hget : s.repository.enrollments.get code with
    | none =>
      rw [hget] at hs
      cases hs with
      | created _ _ hp =>
        rw [hp] at hst
        cases hst
    | some e =>
      rw [hget] at hs
      by_cases happ : e.status = .approved
      · obtain rfl := hs.final (by simp [happ])
        obtain ⟨creds, peerId, hc, hp, hev⟩ := hi.recorded code e' hget hst
        exact ⟨creds, peerId, hc, hp, ha.old_event hev⟩
      · exact ha.noted code e e' hget happ he' hst
  approved := by
    intro code creds peerId e' hev he'
    rcases ha.event_cases hev with h | ⟨_, _, _, e'', -, -, -, -, -, he'', hst, -⟩
    · obtain ⟨e, he⟩ := ha.earlier (hi.happened code (.inl ⟨creds, peerId, h⟩)) he'
      have happ := hi.approved code creds peerId e h he
      have hs := ha.shift code
      rw [he, he'] at hs
      rw [hs.final (by simp [happ])]
      exact happ
    · rw [he''] at he'
      rw [← Option.some.inj he']
      exact hst
  once := by
    intro code creds peerId creds' peerId' h h'
    rcases ha.event_cases h with h | hnew
    · rcases ha.event_cases h' with h' | ⟨_, _, e, _, -, -, -, he, hst, -⟩
      · exact hi.once code creds peerId creds' peerId' h h'
      · have := hi.approved code creds peerId e h he
        rw [hst] at this
        cases this
    · obtain ⟨opId, payload, e, -, hc, hcr, hpe, he, hst, -⟩ := hnew
      rcases ha.event_cases h' with h' | ⟨opId', payload', -, -, hc', hcr', hpe', -⟩
      · have := hi.approved code creds' peerId' e h' he
        rw [hst] at this
        cases this
      · rw [hc] at hc'
        obtain ⟨rfl, rfl⟩ := Prod.mk.inj (Option.some.inj hc')
        exact ⟨hcr.trans hcr'.symm, hpe.trans hpe'.symm⟩
  denied := by
    intro code hden
    rcases ha.event_cases hden with h | ⟨e, e', he, hopen, he', hst⟩
    · obtain ⟨hstored, hnever⟩ := hi.denied code h
      have hkept (e' : EnrollmentRecord) (he' : s'.repository.enrollments.get code = some e') :
          e'.status = .denied := by
        obtain ⟨e, he⟩ := ha.earlier (hi.happened code (.inr h)) he'
        have hs := ha.shift code
        rw [he, he'] at hs
        rw [hs.final (by simp [hstored e he])]
        exact hstored e he
      refine ⟨hkept, fun creds peerId hev => ?_⟩
      rcases ha.event_cases hev with hev | ⟨_, _, _, e', -, -, -, -, -, he', hst, -⟩
      · exact hnever creds peerId hev
      · rw [hkept e' he'] at hst
        cases hst
    · constructor
      · intro e'' he''
        rw [he'] at he''
        rw [← Option.some.inj he'']
        exact hst
      · intro creds peerId hev
        rcases ha.event_cases hev with hev | ⟨_, _, _, e'', -, -, -, -, -, he'', hst'', -⟩
        · have := hi.approved code creds peerId e hev he
          rcases hopen with h | h <;> rw [h] at this <;> cases this
        · rw [he'] at he''
          rw [← Option.some.inj he'', hst] at hst''
          cases hst''
  answered := by
    intro code creds peerId hev
    rcases ha.event_cases hev with h | h
    · exact ha.old_event (hi.answered code creds peerId h)
    · exact h
  calls := hcalls
  distinct := hdistinct

/-! ## What each repository operation does to the stored enrolments -/

/-- The part of a step that concerns the repository. -/
structure Shifts (hash : Hashing) (now : Int) (granted : Option String) (committing : Committing)
    (known known' : List String) (r r' : Repository) : Prop where
  wf : r'.Wf hash
  shift : ∀ code, Shift now granted committing known known' code (r.enrollments.get code)
    (r'.enrollments.get code)

section Repository

variable {r r' : Repository} {now : Int} {known known' : List String}

theorem Shifts.of_eq (hw : r'.Wf hash) (h : r'.enrollments = r.enrollments) :
    Shifts hash now granted committing known known' r r' := by
  refine ⟨hw, fun code => ?_⟩
  rw [h]
  exact .same _

theorem Move.deviceCode {e e' : EnrollmentRecord} (h : Repository.Move now e e') :
    e'.deviceCode = e.deviceCode := by
  cases h <;> rfl

theorem Repository.Wf.get_byUserCode (hw : r.Wf hash) {userCode : String} {e : EnrollmentRecord}
    (h : r.byUserCode userCode = some e) : r.enrollments.get e.deviceCode = some e := by
  unfold Repository.byUserCode at h
  split at h
  · split at h
    · cases h
    · rw [hw.keyed _ e h]
      exact h
  · cases h

/-- Writing one stored record shifts that record only. -/
theorem Shifts.put {e e' : EnrollmentRecord} (hw : r.Wf hash)
    (hget : r.enrollments.get e.deviceCode = some e) (hcode : e'.deviceCode = e.deviceCode)
    (hshift : ∀ code, Shift now granted committing known known' code (some e) (some e')) :
    Shifts hash now granted committing known known' r (r.put e') := by
  refine ⟨hw.put e', fun code => ?_⟩
  simp only [Repository.put, OrderedMap.get_set_eq, hcode]
  split
  · rename_i heq
    rw [heq, hget]
    exact hshift _
  · exact .same _

/-- A move that grants no claim. -/
theorem Shifts.move {e e' : EnrollmentRecord} (hw : r.Wf hash)
    (hget : r.enrollments.get e.deviceCode = some e) (hm : Repository.Move now e e')
    (hst : e'.status ≠ .approving) : Shifts hash now granted committing known known' r (r.put e') := by
  refine .put hw hget (Move.deviceCode hm) fun code => .moved hm fun opId hclaim => ?_
  cases hm with
  | claim => exact absurd rfl hst
  | release => simp [EnrollmentRecord.claimedBy] at hclaim
  | deny => simp [EnrollmentRecord.claimedBy] at hclaim
  | expire claim _ hcl =>
    rcases hcl with rfl | ⟨-, rfl⟩
    · simp [EnrollmentRecord.claimedBy] at hclaim
    · exact .inl hclaim

theorem Shifts.releaseClaim (hw : r.Wf hash) (opId : String) :
    Shifts hash now granted committing known known' r (r.releaseClaim opId).2 := by
  rcases Repository.releaseClaim_spec r now opId with h | ⟨e, hmem, -, e', hm, hst, h⟩
  · rw [h]
    exact .of_eq hw rfl
  · obtain ⟨code, hcode⟩ := OrderedMap.mem_values.mp hmem
    rw [h]
    refine .move hw ?_ hm (by simp [hst])
    rw [hw.keyed code e hcode]
    exact hcode

theorem Shifts.tryDeny (hw : r.Wf hash) (userCode : String) :
    Shifts hash now granted committing known known' r (r.tryDeny now userCode).2 := by
  rcases Repository.tryDeny_spec r now userCode with ⟨-, h⟩ | ⟨e, e', he, hm, h, hst⟩
  · rw [h]
    exact .of_eq hw rfl
  · rw [h]
    refine .move hw (hw.get_byUserCode he) hm ?_
    rcases hst with ⟨-, hst⟩ | hst <;> simp [hst]

theorem Shifts.tryExpire (hw : r.Wf hash) (code : String) :
    Shifts hash now granted committing known known' r (r.tryExpire now code).2 := by
  rcases Repository.tryExpire_spec r now code with ⟨h, -⟩ | ⟨e, e', he, hm, hst, h, -⟩
  · rw [h]
    exact .of_eq hw rfl
  · rw [h]
    refine .move hw ?_ hm (by simp [hst])
    rw [hw.keyed code e he]
    exact he

theorem Shifts.sweep (hw : r.Wf hash) :
    Shifts hash now granted committing known known' r (r.sweep now).2 := by
  refine ⟨hw.run (.sweep now), fun code => ?_⟩
  cases hget : (r.sweep now).2.enrollments.get code with
  | none => exact .removed _
  | some e =>
    rw [Repository.sweep_enrollments _ r hget]
    exact .same _

theorem Shifts.registerSync (hw : r.Wf hash) (activationId t a publicKey : String)
    (expect : Option String) : Shifts hash now granted committing known known' r
      (r.registerSync hash now activationId t a publicKey expect).2 :=
  .of_eq (hw.run (.register now activationId t a publicKey expect))
    (Repository.registerSync_spec (hw.history t a) now activationId publicKey expect).enrollments

theorem Shifts.revokeActive (hw : r.Wf hash) (t a : String) :
    Shifts hash now granted committing known known' r (r.revokeActive now t a).2 := by
  refine .of_eq (hw.run (.revokeActive now t a)) ?_
  unfold Repository.revokeActive
  split <;> rfl

theorem Shifts.reconcile (hw : r.Wf hash) {activationId code : String} {outcome : ReconcileOutcome}
    (h : r.reconcileApprovedRegistration hash now activationId code = .ok (outcome, r')) :
    Shifts hash now granted committing known known' r r' := by
  have hw' := hw.run (.reconcileApprovedRegistration now activationId code)
  simp only [Op.run, h] at hw'
  refine .of_eq hw' ?_
  rcases Repository.reconcile_spec hw now activationId code outcome r' h with rfl | ⟨_, _, -, hreg⟩
  · rfl
  · exact hreg.enrollments

theorem Shifts.create (hw : r.Wf hash) {e : EnrollmentRecord} (h : r.createEnrollment e = .ok r')
    (hnew : e.deviceCode ∉ known) (hknown : e.deviceCode ∈ known') (hst : e.status = .pending)
    (hclaim : e.claim = none) (hcom : e.committedBy = none) :
    Shifts hash now granted committing known known' r r' := by
  have hw' := hw.run (.createEnrollment e)
  simp only [Op.run, h] at hw'
  refine ⟨hw', fun code => ?_⟩
  unfold Repository.createEnrollment at h
  split at h
  · cases h
  rename_i hhas
  split at h
  · cases h
  obtain rfl := Except.ok.inj h
  simp only [Repository.put, OrderedMap.get_set_eq]
  split
  · rename_i heq
    rw [heq, OrderedMap.has_eq_false_iff.mp (by simpa using hhas)]
    exact .created hnew hknown hst hclaim hcom
  · exact .same _

theorem Shifts.claimed (hw : r.Wf hash) {userCode opId : String} {e : EnrollmentRecord}
    (leaseMs : Int) (he : r.byUserCode userCode = some e)
    (hopen : e.status = .pending ∨ e.status = .approving) :
    Shifts hash now (some opId) committing known known' r (r.grantClaim e now opId leaseMs).2 := by
  refine .put hw (hw.get_byUserCode he) rfl fun code => .moved (.claim opId leaseMs hopen) ?_
  intro opId' hclaim
  have : opId = opId' := by simpa [EnrollmentRecord.claimedBy] using hclaim
  exact .inr (congrArg some this)

theorem Shifts.approved (hw : r.Wf hash) {opId digest : String} {payload : CommitApprovalPayload}
    {e : EnrollmentRecord} {registered : AgentKeyRecord} {r₁ : Repository}
    (hw' : (r₁.put (Repository.approve e now opId digest payload registered)).Wf hash)
    (hr : r₁.enrollments = r.enrollments) (he : r.byOperation opId = some e)
    (hh : Repository.Holds e opId now) (hlive : now ≤ e.expiresAt) :
    Shifts hash now granted (some (opId, payload)) known known' r
      (r₁.put (Repository.approve e now opId digest payload registered)) := by
  refine ⟨hw', fun code => ?_⟩
  simp only [Repository.put, OrderedMap.get_set_eq, hr]
  split
  · rename_i heq
    change code = e.deviceCode at heq
    rw [heq, hw.get_byOperation he]
    exact .approved rfl hh hlive
  · exact .same _

end Repository

/-! ## Steps of the system -/

/-- A step without a commit approves nothing. -/
theorem Advance.quiet
    (hs : Shifts hash s.clock granted none s.deviceCodes s'.deviceCodes s.repository s'.repository)
    (hevents : ∃ new, s'.events = s.events ++ new ∧ ∀ event ∈ new, event.Backed none s s')
    (hcodes : s.deviceCodes ⊆ s'.deviceCodes) (hopIds : s.opIds ⊆ s'.opIds)
    (hgranted : ∀ opId ∈ granted, opId ∈ s'.opIds ∧ opId ∉ s.opIds) :
    Advance hash granted none s s' where
  wf := hs.wf
  shift := hs.shift
  events := hevents
  noted := by
    intro code e e' he hst he' hst'
    have h := hs.shift code
    rw [he, he'] at h
    cases h with
    | same => exact absurd hst' hst
    | moved hm _ => exact absurd hst' (Move.open hm).2.1
    | approved hc _ _ => cases hc
  codes := hcodes
  opIds := hopIds
  granted := hgranted
  committing := fun _ _ h => nomatch h

/-- A step that keeps the invariant, with what it did. -/
def Stepped (hash : Hashing) (s s' : System) : Prop :=
  s'.Inv hash ∧ ∃ granted committing, Advance hash granted committing s s'

/-- A step of the environment: no call moves and nothing is drawn. -/
theorem System.Inv.environment (hi : s.Inv hash) {clock : Int} {repository : Repository}
    {new : List Event}
    (hs : Shifts hash s.clock none none s.deviceCodes s.deviceCodes s.repository repository)
    (hnew : ∀ event ∈ new, event.Backed none s
      { s with clock := clock, repository := repository, events := s.events ++ new }) :
    Stepped hash s
      { s with clock := clock, repository := repository, events := s.events ++ new } := by
  have ha : Advance hash none none s
      { s with clock := clock, repository := repository, events := s.events ++ new } :=
    .quiet hs ⟨new, rfl, hnew⟩ (List.Subset.refl _) (List.Subset.refl _) nofun
  exact ⟨ha.inv hi (fun i stage h => ha.sound (hi.calls i stage h) (by simp)) hi.distinct, _, _, ha⟩

/-- A call that has just been made has drawn nothing and seen nothing. -/
theorem System.Inv.call (hi : s.Inv hash) {stage : Stage} (hop : stage.operation = none)
    (hsn : stage.snapshot = none) : Stepped hash s { s with calls := s.calls ++ [stage] } := by
  have ha : Advance hash none none s { s with calls := s.calls ++ [stage] } :=
    .quiet (.of_eq hi.wf rfl) ⟨[], by simp, by simp⟩ (List.Subset.refl _) (List.Subset.refl _) nofun
  have hnew (i : Nat) (stage' : Stage) (h : (s.calls ++ [stage])[i]? = some stage') :
      s.calls[i]? = some stage' ∨ stage' = stage := by
    rcases List.mem_append.mp (List.mem_of_getElem? h) with hm | hm
    · by_cases hi : i < s.calls.length
      · rw [List.getElem?_append_left hi] at h
        exact .inl h
      · rw [List.getElem?_append_right (Nat.le_of_not_lt hi)] at h
        exact .inr (by simpa using List.mem_of_getElem? h)
    · exact .inr (by simpa using hm)
  refine ⟨ha.inv hi ?_ ?_, _, _, ha⟩
  · intro i stage' h
    rcases hnew i stage' h with h | rfl
    · exact ha.sound (hi.calls i stage' h) (by simp)
    · exact ⟨by simp [hop], by simp [hop], by simp [hop], by simp [hsn]⟩
  · intro i j stage₁ stage₂ opId e e' h₁ h₂ ho₁ ho₂
    rcases hnew i stage₁ h₁ with h₁ | rfl
    · rcases hnew j stage₂ h₂ with h₂ | rfl
      · exact hi.distinct i j stage₁ stage₂ opId e e' h₁ h₂ ho₁ ho₂
      · rw [hop] at ho₂
        cases ho₂
    · rw [hop] at ho₁
      cases ho₁

/-- What a call relies on depends only on its operation, payload and snapshot. -/
theorem Stage.Sound.transfer {stage stage' : Stage} (h : stage.Sound s)
    (hop : ∀ opId e, stage'.operation = some (opId, e) → stage.operation = some (opId, e))
    (hpay : stage'.operation = none ∨ stage.payload = none ∨ stage'.payload = stage.payload)
    (hsn : ∀ e, stage'.snapshot = some e → stage.snapshot = some e) : stage'.Sound s := by
  refine ⟨fun opId e ho => h.drawn opId e (hop opId e ho),
    fun opId e code e' ho => h.claimed opId e code e' (hop opId e ho), ?_, fun e he => h.shown e (hsn e he)⟩
  intro opId e code e' ho he' hc
  obtain ⟨hcode, payload, hp, hrest⟩ := h.committed opId e code e' (hop opId e ho) he' hc
  refine ⟨hcode, payload, ?_, hrest⟩
  rcases hpay with hnone | hnone | heq
  · rw [hnone] at ho
    cases ho
  · rw [hnone] at hp
    cases hp
  · rw [heq]
    exact hp

/-- A step of one call. -/
theorem System.Inv.proceed (hi : s.Inv hash) {i : Nat} {stage stage' : Stage}
    (hstage : s.calls[i]? = some stage) (ha : Advance hash granted committing s s')
    (hcalls : s'.calls = s.calls.set i stage') (hsound : stage'.Sound s')
    (hop : ∀ opId e, stage'.operation = some (opId, e) →
      (∃ e₀, stage.operation = some (opId, e₀)) ∨ granted = some opId)
    (hcom : ∀ opId payload, committing = some (opId, payload) →
      ∃ e, stage.operation = some (opId, e)) : Stepped hash s s' := by
  have hold (j : Nat) (stage₁ : Stage) (h : s'.calls[j]? = some stage₁) :
      j = i ∧ stage₁ = stage' ∨ j ≠ i ∧ s.calls[j]? = some stage₁ := by
    rw [hcalls, List.getElem?_set] at h
    by_cases hij : i = j
    · subst hij
      have hlt : i < s.calls.length := (List.getElem?_eq_some_iff.mp hstage).1
      rw [if_pos rfl, if_pos hlt] at h
      exact .inl ⟨rfl, (Option.some.inj h).symm⟩
    · rw [if_neg hij] at h
      exact .inr ⟨Ne.symm hij, h⟩
  -- The operation id of the call that moves belongs to no other call.
  have hown (j : Nat) (stage₁ : Stage) (opId : String) (e e' : EnrollmentRecord) (hj : j ≠ i)
      (h : s.calls[j]? = some stage₁) (ho₁ : stage₁.operation = some (opId, e))
      (ho' : stage'.operation = some (opId, e')) : False := by
    rcases hop opId e' ho' with ⟨e₀, ho⟩ | hg
    · exact hj (hi.distinct j i stage₁ stage opId e e₀ h hstage ho₁ ho)
    · exact (ha.granted opId hg).2 ((hi.calls j stage₁ h).drawn opId e ho₁)
  refine ⟨ha.inv hi ?_ ?_, _, _, ha⟩
  · intro j stage₁ h
    rcases hold j stage₁ h with ⟨-, rfl⟩ | ⟨hj, h⟩
    · exact hsound
    · refine ha.sound (hi.calls j stage₁ h) ?_
      intro opId e payload ho₁ hc
      obtain ⟨e₀, ho⟩ := hcom opId payload hc
      exact hj (hi.distinct j i stage₁ stage opId e e₀ h hstage ho₁ ho)
  · intro j k stage₁ stage₂ opId e e' h₁ h₂ ho₁ ho₂
    rcases hold j stage₁ h₁ with ⟨hj, rfl⟩ | ⟨hj, h₁⟩
    · rcases hold k stage₂ h₂ with ⟨hk, -⟩ | ⟨hk, h₂⟩
      · rw [hj, hk]
      · exact (hown k stage₂ opId e' e hk h₂ ho₂ ho₁).elim
    · rcases hold k stage₂ h₂ with ⟨hk, rfl⟩ | ⟨hk, h₂⟩
      · exact (hown j stage₁ opId e e' hj h₁ ho₁ ho₂).elim
      · exact hi.distinct j k stage₁ stage₂ opId e e' h₁ h₂ ho₁ ho₂

/-- The system after a call has moved. -/
def System.after (s : System) (i : Nat) (draw : Draw) (progress : Progress) : System where
  repository := progress.repository
  clock := draw.later
  calls := s.calls.set i progress.stage
  events := s.events ++ progress.events
  opIds := draw.opId :: s.opIds
  deviceCodes := draw.deviceCode :: s.deviceCodes

variable {i : Nat} {draw : Draw} {stage : Stage} {progress : Progress}

/-- An outcome that hands out nothing is backed by anything. -/
theorem outcomeEvents_backed {code : String} {outcome : ApproveOutcome}
    (h : ∀ result, outcome = .approved result → .approved code result.creds result.peerId ∈ s'.events) :
    ∀ event ∈ outcomeEvents code outcome, event.Backed committing s s' := by
  intro event hmem
  cases outcome with
  | approved result =>
    simp only [outcomeEvents, List.mem_cons, List.not_mem_nil, or_false] at hmem
    rcases hmem with rfl | rfl
    · exact h result rfl
    · trivial
  | inProgress | conflict | revokedKey | rejected | threw =>
    simp only [outcomeEvents, List.mem_cons, List.not_mem_nil, or_false] at hmem
    subst hmem
    trivial

/-- The step of a call that commits nothing. -/
theorem System.Inv.quietly (hi : s.Inv hash) (hfresh : draw.opId ∉ s.opIds)
    (hstage : s.calls[i]? = some stage)
    (hs : Shifts hash s.clock granted none s.deviceCodes (draw.deviceCode :: s.deviceCodes)
      s.repository progress.repository)
    (hgranted : ∀ opId ∈ granted, opId = draw.opId)
    (hevents : ∀ event ∈ progress.events, event.Backed none s (s.after i draw progress))
    (hsound : Advance hash granted none s (s.after i draw progress) →
      progress.stage.Sound (s.after i draw progress))
    (hop : ∀ opId e, progress.stage.operation = some (opId, e) →
      (∃ e₀, stage.operation = some (opId, e₀)) ∨ granted = some opId) :
    Stepped hash s (s.after i draw progress) := by
  have ha : Advance hash granted none s (s.after i draw progress) := by
    refine .quiet hs ⟨progress.events, rfl, hevents⟩ (List.subset_cons_self _ _)
      (List.subset_cons_self _ _) ?_
    intro opId ho
    obtain rfl := hgranted opId ho
    exact ⟨List.mem_cons_self, hfresh⟩
  exact hi.proceed hstage ha rfl (hsound ha) hop nofun

/-- A call that is done, or goes on with the operation it had. -/
theorem System.Inv.onwards (hi : s.Inv hash) (hfresh : draw.opId ∉ s.opIds)
    (hstage : s.calls[i]? = some stage)
    (hs : Shifts hash s.clock none none s.deviceCodes (draw.deviceCode :: s.deviceCodes)
      s.repository progress.repository)
    (hevents : ∀ event ∈ progress.events, event.Backed none s (s.after i draw progress))
    (hop : ∀ opId e, progress.stage.operation = some (opId, e) → stage.operation = some (opId, e))
    (hpay : progress.stage.operation = none ∨ stage.payload = none ∨
      progress.stage.payload = stage.payload)
    (hsn : ∀ e, progress.stage.snapshot = some e → stage.snapshot = some e) :
    Stepped hash s (s.after i draw progress) := by
  refine hi.quietly hfresh hstage hs nofun hevents (fun ha => ?_) fun opId e ho => .inl ⟨e, hop opId e ho⟩
  exact (ha.sound (hi.calls i stage hstage) (by simp)).transfer hop hpay hsn

/-- A call that returns. -/
theorem System.Inv.done {code : String} {outcome : ApproveOutcome} {r : Repository}
    (hi : s.Inv hash) (hfresh : draw.opId ∉ s.opIds) (hstage : s.calls[i]? = some stage)
    (hs : Shifts hash s.clock none none s.deviceCodes (draw.deviceCode :: s.deviceCodes)
      s.repository r)
    (hout : ∀ result, outcome = .approved result →
      .approved code result.creds result.peerId ∈ s.events) :
    Stepped hash s (s.after i draw (.return code outcome r)) :=
  hi.onwards hfresh hstage hs
    (outcomeEvents_backed fun result h => List.mem_append_left _ (hout result h))
    (by simp [Progress.return, Stage.operation]) (.inl rfl)
    (by simp [Progress.return, Stage.snapshot])

theorem Inv.persisting {options : DeviceFlowOptions} {request : EnrollmentRequest} {createdAt : Int}
    {attempt : Nat} (hi : s.Inv hash) (hfresh : draw.opId ∉ s.opIds)
    (hcode : draw.deviceCode ∉ s.deviceCodes)
    (hstage : s.calls[i]? = some (.persisting options request createdAt attempt))
    (hnext : (Stage.persisting options request createdAt attempt).next hash s.repository s.clock draw =
      some progress) : Stepped hash s (s.after i draw progress) := by
  simp only [Stage.next] at hnext
  split at hnext
  · rename_i r' hcreate
    obtain rfl := Option.some.inj hnext
    refine hi.onwards hfresh hstage ?_ (by simp [Event.Backed]) (by simp [Stage.operation]) (.inl rfl)
        (by simp [Stage.snapshot])
    exact .create hi.wf hcreate hcode List.mem_cons_self rfl rfl rfl
  · split at hnext
    · obtain rfl := Option.some.inj hnext
      exact hi.onwards hfresh hstage (.of_eq hi.wf rfl) (by simp) (by simp [Stage.operation]) (.inl rfl)
        (by simp [Stage.snapshot])
    · obtain rfl := Option.some.inj hnext
      exact hi.onwards hfresh hstage (.of_eq hi.wf rfl) (by simp [Event.Backed]) (by simp [Stage.operation]) (.inl rfl)
        (by simp [Stage.snapshot])

/-- The operation id of a granted claim is on the claimed record alone. -/
theorem Inv.claimGranted {options : DeviceFlowOptions} {replaceActivationId : Option String}
    {e : EnrollmentRecord} (leaseMs : Int) (hi : s.Inv hash) (hfresh : draw.opId ∉ s.opIds)
    (hget : s.repository.enrollments.get e.deviceCode = some e)
    (hrepo : progress.repository = (s.repository.grantClaim e s.clock draw.opId leaseMs).2)
    {claimed : EnrollmentRecord} (hcode : claimed.deviceCode = e.deviceCode) :
    (Stage.checking options replaceActivationId draw.opId claimed).Sound (s.after i draw progress) := by
  have hold (code : String) (e' : EnrollmentRecord)
      (he' : (s.after i draw progress).repository.enrollments.get code = some e') :
      code = e.deviceCode ∧ e'.committedBy = e.committedBy ∨
        s.repository.enrollments.get code = some e' := by
    simp only [System.after, hrepo, Repository.grantClaim, Repository.put,
      OrderedMap.get_set_eq] at he'
    split at he'
    · rename_i heq
      obtain rfl := Option.some.inj he'
      exact .inl ⟨heq, rfl⟩
    · exact .inr he'
  refine ⟨?_, ?_, ?_, by simp [Stage.snapshot]⟩
  · rintro opId e₀ ⟨⟩
    exact List.mem_cons_self
  · rintro opId e₀ code e' ⟨⟩ he' hclaim
    rcases hold code e' he' with ⟨hc, -⟩ | he'
    · rw [hc, hcode]
    · exact absurd (hi.opIds code e' _ he' (.inl hclaim)) hfresh
  · rintro opId e₀ code e' ⟨⟩ he' hcom
    rcases hold code e' he' with ⟨-, hc⟩ | he'
    · rw [hc] at hcom
      exact absurd (hi.opIds _ e _ hget (.inr hcom)) hfresh
    · exact absurd (hi.opIds code e' _ he' (.inr hcom)) hfresh

theorem Inv.claiming {options : DeviceFlowOptions} {userCode : String}
    {replaceActivationId : Option String} (hi : s.Inv hash) (hfresh : draw.opId ∉ s.opIds)
    (hstage : s.calls[i]? = some (.claiming options userCode replaceActivationId))
    (hnext : (Stage.claiming options userCode replaceActivationId).next hash s.repository s.clock draw =
      some progress) : Stepped hash s (s.after i draw progress) := by
  have hspec := Repository.claimApproval_spec s.repository s.clock userCode draw.opId
    options.approvalLeaseMs
  simp only [Stage.next] at hnext
  generalize s.repository.claimApproval s.clock userCode draw.opId options.approvalLeaseMs = result
    at hspec hnext
  cases hspec with
  | failed =>
    obtain rfl := Option.some.inj hnext
    exact hi.done hfresh hstage (.of_eq hi.wf rfl) (by rintro _ ⟨⟩)
  | @refused outcome hne happ =>
    cases outcome with
    | claimed e => exact absurd rfl (hne e)
    | alreadyApproved e =>
      obtain rfl := Option.some.inj hnext
      obtain ⟨he, hst⟩ := happ e rfl
      have hs : Shifts hash s.clock none none s.deviceCodes (draw.deviceCode :: s.deviceCodes)
          s.repository s.repository := .of_eq hi.wf rfl
      refine hi.quietly hfresh hstage hs (by simp) (by simp) (fun ha => ?_) (by simp [Stage.operation])
      refine ⟨by simp [Stage.operation], by simp [Stage.operation], by simp [Stage.operation], ?_⟩
      rintro e' ⟨⟩
      obtain ⟨creds, peerId, hc, hp, hev⟩ := hi.recorded _ e (hi.wf.get_byUserCode he) hst
      exact ⟨creds, peerId, hc, hp, ha.old_event hev⟩
    | inProgress leaseUntil =>
      obtain rfl := Option.some.inj hnext
      exact hi.done hfresh hstage (.of_eq hi.wf rfl) (by rintro _ ⟨⟩)
    | denied | expired | notFound =>
      obtain rfl := Option.some.inj hnext
      exact hi.done hfresh hstage (.of_eq hi.wf rfl) (by rintro _ ⟨⟩)
  | expired he hm hst =>
    obtain rfl := Option.some.inj hnext
    exact hi.done hfresh hstage (.move hi.wf (hi.wf.get_byUserCode he) hm (by simp [hst]))
      (by rintro _ ⟨⟩)
  | @claimed e leaseMs he hopen _ =>
    obtain rfl := Option.some.inj hnext
    have hget := hi.wf.get_byUserCode he
    refine hi.quietly hfresh hstage (Shifts.claimed hi.wf leaseMs he hopen) (by simp) (by simp)
      (fun _ => Inv.claimGranted leaseMs hi hfresh hget rfl rfl) ?_
    rintro opId e₀ ⟨⟩
    exact .inr rfl

/-- The commit of a call: the claim it holds or has used is on the enrolment it deals with. -/
theorem Stage.Sound.byOperation {options : DeviceFlowOptions} {opId : String} {e : EnrollmentRecord}
    {payload : CommitApprovalPayload} {retry : Bool} {record : EnrollmentRecord}
    (h : (Stage.committing options opId e payload retry).Sound s) (hw : s.repository.Wf hash)
    (hrec : s.repository.byOperation opId = some record) : record.deviceCode = e.deviceCode := by
  have hget := hw.get_byOperation hrec
  have hprop := List.find?_some hrec
  simp only [Bool.decide_or, Bool.decide_eq_true, Bool.or_eq_true, decide_eq_true_eq] at hprop
  rcases hprop with hclaim | ⟨-, hcom⟩
  · exact h.claimed opId e _ record rfl hget hclaim
  · exact (h.committed opId e _ record rfl hget hcom).1

/-- After its own commit a call still knows its enrolment. -/
theorem Advance.sound_own {options : DeviceFlowOptions} {opId : String} {e : EnrollmentRecord}
    {payload : CommitApprovalPayload} {retry : Bool}
    (ha : Advance hash none (some (opId, payload)) s s')
    (hst : (Stage.committing options opId e payload retry).Sound s) :
    (Stage.committing options opId e payload true).Sound s' := by
  refine ⟨?_, ?_, ?_, by simp [Stage.snapshot]⟩
  · rintro opId' e' ⟨⟩
    exact ha.opIds (hst.drawn opId e rfl)
  · rintro opId' e₀ code e' ⟨⟩ he' hclaim
    have hs := ha.shift code
    rw [he'] at hs
    cases hget : s.repository.enrollments.get code with
    | none =>
      rw [hget] at hs
      cases hs with
      | created _ _ _ hnone _ => simp [EnrollmentRecord.claimedBy, hnone] at hclaim
    | some e₁ =>
      rw [hget] at hs
      cases hs with
      | same => exact hst.claimed opId e code _ rfl hget hclaim
      | moved _ hback =>
        rcases hback opId hclaim with h | h
        · exact hst.claimed opId e code e₁ rfl hget h
        · cases h
      | approved => simp [EnrollmentRecord.claimedBy, Repository.approve] at hclaim
  · rintro opId' e₀ code e' ⟨⟩ he' hcom
    have hs := ha.shift code
    rw [he'] at hs
    cases hget : s.repository.enrollments.get code with
    | none =>
      rw [hget] at hs
      cases hs with
      | created _ _ _ _ hnone =>
        rw [hnone] at hcom
        cases hcom
    | some e₁ =>
      rw [hget] at hs
      cases hs with
      | same => exact hst.committed opId e code _ rfl hget hcom
      | moved hm _ =>
        rw [(Move.open hm).2.2] at hcom
        have := hst.committed opId e code e₁ rfl hget hcom
        cases hm <;> exact this
      | approved hc hh _ =>
        obtain ⟨rfl, rfl⟩ := Prod.mk.inj (Option.some.inj hc)
        obtain ⟨claim, hcl, hid, -⟩ := hh.leased
        refine ⟨hst.claimed opId e code e₁ rfl hget ?_, payload, rfl, rfl, rfl⟩
        simp [EnrollmentRecord.claimedBy, hcl, hid]

/-- How a call goes on after a commit that has reached the repository. -/
inductive AfterCommit (options : DeviceFlowOptions) (opId : String) (e : EnrollmentRecord)
    (payload : CommitApprovalPayload) (answer : ApproveOutcome) : Stage → List Event → Prop where
  | retry : AfterCommit options opId e payload answer (.committing options opId e payload true) []
  | gaveUp : AfterCommit options opId e payload answer .returned [.outcome .threw]
  | answered : AfterCommit options opId e payload answer .returned (outcomeEvents e.deviceCode answer)

variable {options : DeviceFlowOptions} {opId : String} {e : EnrollmentRecord}
  {payload : CommitApprovalPayload} {retry : Bool} {answer : ApproveOutcome} {rest : List Event}

theorem AfterCommit.backed (h : AfterCommit options opId e payload answer stage rest)
    (hanswer : ∀ result, answer = .approved result →
      .approved e.deviceCode result.creds result.peerId ∈ s'.events) :
    ∀ event ∈ rest, event.Backed committing s s' := by
  cases h with
  | retry => simp
  | gaveUp => simp [Event.Backed]
  | answered => exact outcomeEvents_backed hanswer

/-- A commit that moves its enrolment elsewhere, or finds it approved already. -/
theorem Inv.uncommitted (hi : s.Inv hash) (hfresh : draw.opId ∉ s.opIds)
    (hstage : s.calls[i]? = some (.committing options opId e payload retry))
    (hs : Shifts hash s.clock none none s.deviceCodes (draw.deviceCode :: s.deviceCodes)
      s.repository progress.repository)
    (hafter : AfterCommit options opId e payload answer progress.stage progress.events)
    (hanswer : ∀ result, answer = .approved result →
      .approved e.deviceCode result.creds result.peerId ∈ s.events) :
    Stepped hash s (s.after i draw progress) := by
  have hback : ∀ event ∈ progress.events, event.Backed none s (s.after i draw progress) :=
    hafter.backed fun result h => List.mem_append_left _ (hanswer result h)
  rcases progress with ⟨stage', r', events⟩
  refine hi.onwards hfresh hstage hs hback ?_ ?_ ?_
  · intro opId' e' ho
    cases hafter with
    | retry => exact ho
    | gaveUp => cases ho
    | answered => cases ho
  · cases hafter with
    | retry => exact .inr (.inr rfl)
    | gaveUp => exact .inl rfl
    | answered => exact .inl rfl
  · intro e' hsn
    cases hafter <;> cases hsn

/-- The commit that approves its enrolment. -/
theorem Inv.committed {record : EnrollmentRecord} {registered : AgentKeyRecord} {digest : String}
    {r₁ : Repository} (hi : s.Inv hash)
    (hstage : s.calls[i]? = some (.committing options opId e payload retry))
    (hw : (r₁.put (Repository.approve record s.clock opId digest payload registered)).Wf hash)
    (hr : r₁.enrollments = s.repository.enrollments)
    (hrec : s.repository.byOperation opId = some record)
    (hh : Repository.Holds record opId s.clock) (hlive : s.clock ≤ record.expiresAt)
    (hrepo : progress.repository =
      r₁.put (Repository.approve record s.clock opId digest payload registered))
    (hevents : progress.events = .approved e.deviceCode payload.creds payload.peerId :: rest)
    (hafter : AfterCommit options opId e payload (.approved (options.result payload.creds payload.peerId))
      progress.stage rest) : Stepped hash s (s.after i draw progress) := by
  have hsound := hi.calls i _ hstage
  have hcode : record.deviceCode = e.deviceCode := hsound.byOperation hi.wf hrec
  have hget := hi.wf.get_byOperation hrec
  have hs : Shifts hash s.clock none (some (opId, payload)) s.deviceCodes
      (s.after i draw progress).deviceCodes s.repository (s.after i draw progress).repository := by
    simp only [System.after, hrepo]
    exact .approved hi.wf hw hr hrec hh hlive
  have hget' : (s.after i draw progress).repository.enrollments.get record.deviceCode =
      some (Repository.approve record s.clock opId digest payload registered) := by
    simp [System.after, hrepo, Repository.put, Repository.approve]
  have hev : Event.approved e.deviceCode payload.creds payload.peerId ∈
      (s.after i draw progress).events := by
    simp [System.after, hevents]
  have ha : Advance hash none (some (opId, payload)) s (s.after i draw progress) := by
    refine ⟨hs.wf, hs.shift, ⟨progress.events, rfl, ?_⟩, ?_, List.subset_cons_self _ _,
      List.subset_cons_self _ _, by simp, ?_⟩
    · intro event hmem
      rw [hevents] at hmem
      rcases List.mem_cons.mp hmem with rfl | hmem
      · rw [hcode] at hget hget'
        exact ⟨opId, payload, record, _, rfl, rfl, rfl, hget, hh.approving, hget', rfl, rfl, rfl⟩
      · refine hafter.backed ?_ event hmem
        rintro result ⟨⟩
        exact hev
    · intro code e₀ e₁ he₀ hne he₁ hst
      have hshift := hs.shift code
      rw [he₀, he₁] at hshift
      cases hshift with
      | same => exact absurd hst hne
      | moved hm _ => exact absurd hst (Move.open hm).2.1
      | approved hc hh' _ =>
        obtain ⟨rfl, rfl⟩ := Prod.mk.inj (Option.some.inj hc)
        obtain ⟨claim, hcl, hid, -⟩ := hh'.leased
        have hcode' : code = e.deviceCode := by
          refine hsound.claimed opId e code e₀ rfl he₀ ?_
          simp [EnrollmentRecord.claimedBy, hcl, hid]
        rw [hcode']
        exact ⟨_, _, rfl, rfl, hev⟩
    · rintro opId' payload' ⟨⟩
      exact hsound.drawn opId e rfl
  refine hi.proceed hstage ha rfl ?_ ?_ ?_
  · generalize hstage' : progress.stage = stage' at hafter
    cases hafter with
    | retry => exact ha.sound_own hsound
    | gaveUp => exact ⟨by simp [Stage.operation], by simp [Stage.operation], by simp [Stage.operation],
        by simp [Stage.snapshot]⟩
    | answered => exact ⟨by simp [Stage.operation], by simp [Stage.operation],
        by simp [Stage.operation], by simp [Stage.snapshot]⟩
  · intro opId' e' ho
    generalize progress.stage = stage' at hafter ho
    cases hafter with
    | retry =>
      obtain ⟨rfl, rfl⟩ := Prod.mk.inj (Option.some.inj ho)
      exact .inl ⟨e, rfl⟩
    | gaveUp => cases ho
    | answered => cases ho
  · rintro opId' payload' ⟨⟩
    exact ⟨e, rfl⟩

/-- What a call makes of a commit that the repository has answered. -/
theorem next_committing {r r' : Repository} {now : Int} {outcome : CommitApprovalOutcome}
    (hun : draw.delivery ≠ .unreached)
    (hcommit : r.commitApproval hash now draw.later draw.activationId opId payload = .ok (outcome, r'))
    (hnext : (Stage.committing options opId e payload retry).next hash r now draw = some progress) :
    progress.repository = r' ∧ ∃ rest, progress.events = approvedEvents r opId payload outcome ++ rest ∧
      AfterCommit options opId e payload
        (commitOutcome options payload (hash.keyId e.agentPublicKey) outcome) progress.stage rest := by
  simp only [Stage.next, if_neg hun, hcommit] at hnext
  split at hnext
  · obtain rfl := Option.some.inj hnext
    exact ⟨rfl, [], (List.append_nil _).symm, .retry⟩
  · obtain rfl := Option.some.inj hnext
    exact ⟨rfl, _, rfl, .gaveUp⟩
  · obtain rfl := Option.some.inj hnext
    exact ⟨rfl, _, rfl, .answered⟩

theorem Inv.commits (hi : s.Inv hash) (hfresh : draw.opId ∉ s.opIds)
    (hstage : s.calls[i]? = some (.committing options opId e payload retry))
    (hnext : (Stage.committing options opId e payload retry).next hash s.repository s.clock draw =
      some progress) : Stepped hash s (s.after i draw progress) := by
  have hsound := hi.calls i _ hstage
  by_cases hun : draw.delivery = .unreached
  · simp only [Stage.next, if_pos hun] at hnext
    split at hnext
    · obtain rfl := Option.some.inj hnext
      exact Inv.uncommitted hi hfresh hstage (.of_eq hi.wf rfl)
        (show AfterCommit options opId e payload .threw _ _ from .gaveUp) nofun
    · obtain rfl := Option.some.inj hnext
      exact Inv.uncommitted hi hfresh hstage (.of_eq hi.wf rfl)
        (show AfterCommit options opId e payload .threw _ _ from .retry) nofun
  cases hcommit : s.repository.commitApproval hash s.clock draw.later draw.activationId opId payload with
  | error failure =>
    simp only [Stage.next, if_neg hun, hcommit] at hnext
    obtain rfl := Option.some.inj hnext
    exact Inv.uncommitted hi hfresh hstage (.of_eq hi.wf rfl)
      (show AfterCommit options opId e payload .threw _ _ from .answered) nofun
  | ok result =>
    obtain ⟨outcome, r'⟩ := result
    obtain ⟨hrepo, rest, hevents, hafter⟩ := next_committing hun hcommit hnext
    have hspec := Repository.commitApproval_spec hi.wf s.clock draw.later draw.activationId opId payload
    have hw := hi.wf.run (.commitApproval s.clock draw.later draw.activationId opId payload)
    rw [hcommit] at hspec
    simp only [Op.run, hcommit] at hw
    have hrest (h : approvedEvents s.repository opId payload outcome = []) :
        AfterCommit options opId e payload
          (commitOutcome options payload (hash.keyId e.agentPublicKey) outcome)
          progress.stage progress.events := by
      rw [hevents, h]
      exact hafter
    have hsame (h : r' = s.repository) : Shifts hash s.clock none none s.deviceCodes
        (draw.deviceCode :: s.deviceCodes) s.repository progress.repository := by
      rw [hrepo, h]
      exact .of_eq hi.wf rfl
    cases hspec with
    | claimLost => exact Inv.uncommitted hi hfresh hstage (hsame rfl) (hrest rfl) (by rintro _ ⟨⟩)
    | recovered hrec hst hcom =>
      refine Inv.uncommitted hi hfresh hstage (hsame rfl) (hrest rfl) ?_
      rintro result ⟨⟩
      have hget := hi.wf.get_byOperation hrec
      obtain ⟨hcode, payload', ⟨⟩, hcreds, hpeer⟩ := hsound.committed opId e _ _ rfl hget hcom
      obtain ⟨creds, peerId, hc, hp, hev⟩ := hi.recorded _ _ hget hst
      rw [hcreds] at hc
      rw [hpeer] at hp
      obtain rfl := Option.some.inj hc
      obtain rfl := Option.some.inj hp
      rw [← hcode]
      exact hev
    | expired hrec hh hexp =>
      refine Inv.uncommitted hi hfresh hstage ?_ (hrest rfl) (by rintro _ ⟨⟩)
      rw [hrepo]
      exact .move hi.wf (hi.wf.get_byOperation hrec) (.expire none (.inr hh.approving) (.inl rfl))
        (by simp)
    | declined hrec hh hne =>
      have hnone : approvedEvents s.repository opId payload outcome = [] := by
        cases outcome <;> first | rfl | exact absurd rfl (hne _ _)
      refine Inv.uncommitted hi hfresh hstage ?_ (hrest hnone) ?_
      · rw [hrepo]
        exact .move hi.wf (hi.wf.get_byOperation hrec) (.release hh.approving) (by simp)
      · intro result hout
        cases outcome <;> first | exact absurd rfl (hne _ _) | cases hout
    | approved hrec hh hlive hreg =>
      refine Inv.committed hi hstage hw hreg.enrollments hrec hh hlive hrepo ?_ hafter
      rw [hevents]
      simp only [approvedEvents, hrec, hsound.byOperation hi.wf hrec, List.singleton_append]

/-- Every step of a call keeps the invariant. -/
theorem System.Inv.next (hi : s.Inv hash) (hfresh : draw.opId ∉ s.opIds)
    (hcode : draw.deviceCode ∉ s.deviceCodes) (hstage : s.calls[i]? = some stage)
    (hnext : stage.next hash s.repository s.clock draw = some progress) :
    Stepped hash s (s.after i draw progress) := by
  have hsound := hi.calls i stage hstage
  have hsame : Shifts hash s.clock none none s.deviceCodes (draw.deviceCode :: s.deviceCodes)
      s.repository s.repository := .of_eq hi.wf rfl
  cases stage with
  | returned => cases hnext
  | persisting options request createdAt attempt => exact Inv.persisting hi hfresh hcode hstage hnext
  | claiming options userCode replaceActivationId => exact Inv.claiming hi hfresh hstage hnext
  | committing options opId e payload retry => exact Inv.commits hi hfresh hstage hnext
  | reconciling options e =>
    simp only [Stage.next] at hnext
    split at hnext
    · obtain rfl := Option.some.inj hnext
      exact hi.done hfresh hstage hsame (by rintro _ ⟨⟩)
    · rename_i outcome r' hrec
      obtain rfl := Option.some.inj hnext
      exact hi.onwards hfresh hstage (.reconcile hi.wf hrec) (by simp) (by simp [Stage.operation])
        (.inl rfl) (by simp [Stage.snapshot])
  | comparing options e =>
    simp only [Stage.next] at hnext
    split at hnext
    · obtain rfl := Option.some.inj hnext
      exact hi.done hfresh hstage hsame (by rintro _ ⟨⟩)
    · rename_i creds peerId hcreds
      obtain rfl := Option.some.inj hnext
      refine hi.done hfresh hstage hsame ?_
      rintro result ⟨⟩
      obtain ⟨creds', peerId', hc, hp, hev⟩ := hsound.shown e rfl
      simp only [EnrollmentRecord.credentials, hc, hp] at hcreds
      split at hcreds
      · cases hcreds
      · obtain ⟨rfl, rfl⟩ := Prod.mk.inj (Option.some.inj hcreds)
        exact hev
  | checking options replaceActivationId opId e =>
    simp only [Stage.next] at hnext
    split at hnext
    · obtain rfl := Option.some.inj hnext
      exact hi.onwards hfresh hstage hsame (by simp) (by simp [Stage.operation]) (.inl rfl)
        (by simp [Stage.snapshot])
    · obtain rfl := Option.some.inj hnext
      exact hi.onwards hfresh hstage hsame (by simp) (by simp [Stage.operation]) (.inr (.inl rfl))
        (by simp [Stage.snapshot])
  | choosing options replaceActivationId opId e =>
    simp only [Stage.next] at hnext
    split at hnext <;> split at hnext
    · obtain rfl := Option.some.inj hnext
      exact hi.onwards hfresh hstage hsame (by simp) (by simp [Stage.operation]) (.inr (.inl rfl))
        (by simp [Stage.snapshot])
    · obtain rfl := Option.some.inj hnext
      exact hi.onwards hfresh hstage hsame (by simp) (by simp [Stage.operation]) (.inl rfl)
        (by simp [Stage.snapshot])
    · obtain rfl := Option.some.inj hnext
      exact hi.onwards hfresh hstage hsame (by simp) (by simp [Stage.operation]) (.inr (.inl rfl))
        (by simp [Stage.snapshot])
    · obtain rfl := Option.some.inj hnext
      exact hi.onwards hfresh hstage hsame (by simp) (by simp [Stage.operation]) (.inl rfl)
        (by simp [Stage.snapshot])
  | releasing opId refusal =>
    obtain rfl := Option.some.inj hnext
    refine hi.done hfresh hstage (.releaseClaim hi.wf opId) ?_
    intro result hout
    cases refusal <;> cases hout
  | minting options opId e expect =>
    simp only [Stage.next] at hnext
    split at hnext
    · obtain rfl := Option.some.inj hnext
      exact hi.onwards hfresh hstage hsame (by simp) (by simp [Stage.operation]) (.inl rfl)
        (by simp [Stage.snapshot])
    · obtain rfl := Option.some.inj hnext
      exact hi.onwards hfresh hstage hsame (by simp) (by simp [Stage.operation]) (.inr (.inl rfl))
        (by simp [Stage.snapshot])

theorem System.Inv.init (retentionMs clock : Int) : (System.init retentionMs clock).Inv hash := by
  have hwf : (System.init retentionMs clock).repository.Wf hash := .create retentionMs
  constructor <;> first | exact hwf | simp [System.init, Repository.create]

theorem System.Inv.deny (hi : s.Inv hash) (userCode : String)
    (h : s.step hash (.deny userCode) = some s') : Stepped hash s s' := by
  have hs : Shifts hash s.clock none none s.deviceCodes s.deviceCodes s.repository
    (s.repository.tryDeny s.clock userCode).2 := .tryDeny hi.wf userCode
  have hspec := Repository.tryDeny_spec s.repository s.clock userCode
  simp only [System.step] at h
  generalize s.repository.tryDeny s.clock userCode = result at hs hspec h
  obtain ⟨denied, r'⟩ := result
  obtain rfl := Option.some.inj h
  refine hi.environment hs ?_
  intro event hmem
  split at hmem
  case h_2 => cases hmem
  rename_i e hden he
  obtain rfl := List.mem_singleton.mp hmem
  dsimp only at hden hspec
  subst hden
  rcases hspec with ⟨⟨⟩, -⟩ | ⟨e', e'', he', hm, hr, hst⟩
  obtain rfl := Option.some.inj (he.symm.trans he')
  have hdenied : e''.status = .denied := by
    rcases hst with ⟨⟨⟩, -⟩ | hst
    exact hst
  refine ⟨e, e'', hi.wf.get_byUserCode he, (Move.open hm).1, ?_, hdenied⟩
  rw [← Move.deviceCode hm]
  simp only [hr, Repository.put, OrderedMap.get_set_self]

/-- A poll answers with the credentials of a record that is approved. -/
theorem poll_spec (options : DeviceFlowOptions) (r : Repository) (now : Int) (code : String)
    (result : EnrollmentResult) (h : (poll options r now code).1 = .inl result) :
    ∃ e, r.enrollments.get code = some e ∧ e.status = .approved ∧
      e.credentials = some (result.creds, result.peerId) := by
  have hspec := Repository.tryExpire_spec r now code
  unfold poll at h
  generalize r.tryExpire now code = outcome at h hspec
  obtain ⟨⟨transitioned, enrollment⟩, r'⟩ := outcome
  dsimp only at h hspec
  cases enrollment with
  | none => cases h
  | some e =>
    dsimp only at h
    cases hst : e.status <;> simp only [hst] at h
    case approved =>
      cases hcreds : e.credentials with
      | none =>
        rw [hcreds] at h
        cases h
      | some pair =>
        rw [hcreds] at h
        obtain rfl := Sum.inl.inj h
        rcases hspec with ⟨-, hget⟩ | ⟨_, e', -, -, hexp, -, hshown⟩
        · exact ⟨e, hget.symm, hst, hcreds⟩
        · obtain rfl := Option.some.inj hshown
          rw [hst] at hexp
          cases hexp
    all_goals cases h

theorem System.Inv.poll (hi : s.Inv hash) (options : DeviceFlowOptions) (code : String)
    (h : s.step hash (.poll options code) = some s') : Stepped hash s s' := by
  have hs : Shifts hash s.clock none none s.deviceCodes s.deviceCodes s.repository
    (Enrollment.poll options s.repository s.clock code).2 := .tryExpire hi.wf code
  have hspec := poll_spec options s.repository s.clock code
  simp only [System.step] at h
  generalize Enrollment.poll options s.repository s.clock code = answer at hs hspec h
  obtain ⟨answer, r'⟩ := answer
  obtain rfl := Option.some.inj h
  refine hi.environment hs ?_
  intro event hmem
  cases answer with
  | inr error => cases hmem
  | inl result =>
    obtain rfl := List.mem_singleton.mp hmem
    obtain ⟨e, he, hst, hcreds⟩ := hspec result rfl
    obtain ⟨creds, peerId, hc, hp, hev⟩ := hi.recorded code e he hst
    simp only [EnrollmentRecord.credentials, hc, hp] at hcreds
    split at hcreds
    · cases hcreds
    · obtain ⟨rfl, rfl⟩ := Prod.mk.inj (Option.some.inj hcreds)
      exact List.mem_append_left _ hev

theorem System.Inv.step {action : Action} (hi : s.Inv hash) (hfresh : Fresh s action)
    (h : s.step hash action = some s') : Stepped hash s s' := by
  have hquiet (clock : Int) (repository : Repository)
      (hs : Shifts hash s.clock none none s.deviceCodes s.deviceCodes s.repository repository) :
      Stepped hash s { s with clock := clock, repository := repository } := by
    have hnil : ∀ event ∈ ([] : List Event), event.Backed none s
        { s with clock := clock, repository := repository, events := s.events ++ [] } := by simp
    simpa using hi.environment hs hnil
  cases action with
  | tick now =>
    simp only [System.step] at h
    split at h
    · obtain rfl := Option.some.inj h
      exact hquiet now _ (.of_eq hi.wf rfl)
    · cases h
  | enroll options request =>
    simp only [System.step] at h
    split at h
    · obtain rfl := Option.some.inj h
      exact hi.environment (.of_eq hi.wf rfl) (by simp [Event.Backed])
    · obtain rfl := Option.some.inj h
      exact hi.call rfl rfl
  | approve options userCode replaceActivationId =>
    obtain rfl := Option.some.inj h
    exact hi.call rfl rfl
  | proceed i draw =>
    obtain ⟨hop, hcode⟩ := hfresh draw rfl
    simp only [System.step, Option.bind_eq_bind, Option.bind_eq_some_iff] at h
    obtain ⟨stage, hstage, progress, hnext, h⟩ := h
    split at h
    · obtain rfl := Option.some.inj h
      exact hi.next hop hcode hstage hnext
    · cases h
  | deny userCode => exact hi.deny userCode h
  | poll options code => exact hi.poll options code h
  | releaseClaim opId =>
    obtain rfl := Option.some.inj h
    exact hquiet _ _ (.releaseClaim hi.wf opId)
  | sweep =>
    obtain rfl := Option.some.inj h
    exact hquiet _ _ (.sweep hi.wf)
  | register activationId t a publicKey expect =>
    obtain rfl := Option.some.inj h
    exact hquiet _ _ (.registerSync hi.wf activationId t a publicKey expect)
  | revokeActive t a =>
    obtain rfl := Option.some.inj h
    exact hquiet _ _ (.revokeActive hi.wf t a)

theorem System.Inv.of_reached {retentionMs clock : Int}
    (hr : ReachedBy (System.step hash) Fresh (System.init retentionMs clock) s) : s.Inv hash :=
  hr.invariant (.init retentionMs clock) fun _ _ _ hi hfresh hstep => (hi.step hfresh hstep).1

/-- What a step does to the status of an enrolment. -/
structure Orderly (s s' : System) : Prop where
  created : ∀ code e', s.repository.enrollments.get code = none →
    s'.repository.enrollments.get code = some e' → e'.status = .pending ∧ code ∉ s.deviceCodes
  final : ∀ code e e', s.repository.enrollments.get code = some e →
    s'.repository.enrollments.get code = some e' →
    e.status ≠ .pending → e.status ≠ .approving → e'.status = e.status
  approval : ∀ code e e', s.repository.enrollments.get code = some e →
    s'.repository.enrollments.get code = some e' → e.status ≠ .approved → e'.status = .approved →
    e.status = .approving ∧ ∃ claim, e.claim = some claim ∧ e'.committedBy = some claim.opId ∧
      e'.approvedAt = some s.clock ∧ s.clock ≤ e.expiresAt ∧ s.clock ≤ claim.leaseUntil

theorem Advance.orderly (ha : Advance hash granted committing s s') : Orderly s s' := by
  refine ⟨?_, ?_, ?_⟩
  · intro code e' he he'
    have hs := ha.shift code
    rw [he, he'] at hs
    cases hs with
    | created hnew _ hst => exact ⟨hst, hnew⟩
  · intro code e e' he he' hp ha'
    have hs := ha.shift code
    rw [he, he'] at hs
    rw [hs.final ⟨hp, ha'⟩]
  · intro code e e' he he' hne happ
    have hs := ha.shift code
    rw [he, he'] at hs
    cases hs with
    | same => exact absurd happ hne
    | moved hm _ => exact absurd happ (Move.open hm).2.1
    | approved _ hh hlive =>
      obtain ⟨claim, hcl, hid, hlease⟩ := hh.leased
      exact ⟨hh.approving, claim, hcl, congrArg some hid.symm, rfl, hlive, hlease⟩

/-- All credentials handed out for a device code are the same, none are for a denied one, and
statuses only move forward, into approval only under a live claim. -/
theorem one_credential (hash : Hashing) (retentionMs clock : Int) {s : System}
    (hr : ReachedBy (System.step hash) Fresh (System.init retentionMs clock) s) :
    (∀ code creds peerId creds' peerId', .credentials code creds peerId ∈ s.events →
      .credentials code creds' peerId' ∈ s.events → creds = creds' ∧ peerId = peerId') ∧
    (∀ code creds peerId, .denied code ∈ s.events → .credentials code creds peerId ∉ s.events) ∧
    ∀ action s', Fresh s action → s.step hash action = some s' → Orderly s s' := by
  have hi := System.Inv.of_reached hr
  refine ⟨?_, ?_, ?_⟩
  · intro code creds peerId creds' peerId' h h'
    exact hi.once code creds peerId creds' peerId' (hi.answered _ _ _ h) (hi.answered _ _ _ h')
  · intro code creds peerId hden h
    exact (hi.denied code hden).2 creds peerId (hi.answered _ _ _ h)
  · intro action s' hfresh hstep
    obtain ⟨-, granted, committing, ha⟩ := hi.step hfresh hstep
    exact ha.orderly

def sampleOptions : DeviceFlowOptions where
  saasBaseUrl := "https://saas"
  jwksUrl := "https://saas/jwks"
  bootstrapUrl := "https://saas/bootstrap"
  natsUrl := "wss://nats"
  issuer := "https://saas"

/-- The draws of the step `n`. -/
def sampleDraw (n : Nat) (delivery : Delivery) : Draw where
  deviceCode := "d" ++ toString n
  userCode := "u" ++ toString n
  opId := "op" ++ toString n
  activationId := "a" ++ toString n
  peerId := "p" ++ toString n
  later := n
  minted := some ⟨"jwt" ++ toString n, "seed", "pub", none⟩
  delivery := delivery

def sampleRequest : EnrollmentRequest where
  agentPublicKey := "AAAAAAAAAAAAAAAAAAAAAAAAAAAAAAAAAAAAAAAAAAA"
  accountId := "account"
  tenant := "tenant"

/-- An enrolment, an approval whose commit loses its answer and is retried, a second approval
and a poll. -/
def sampleActions : List Action :=
  [.enroll sampleOptions sampleRequest, .proceed 0 (sampleDraw 1 .answered),
    .approve sampleOptions "u1" none, .proceed 1 (sampleDraw 2 .answered),
    .proceed 1 (sampleDraw 3 .answered), .proceed 1 (sampleDraw 4 .answered),
    .proceed 1 (sampleDraw 5 .answered), .proceed 1 (sampleDraw 6 .lost),
    .proceed 1 (sampleDraw 7 .answered), .approve sampleOptions "u1" none,
    .proceed 2 (sampleDraw 8 .answered), .proceed 2 (sampleDraw 9 .answered),
    .proceed 2 (sampleDraw 10 .answered), .poll sampleOptions "d1"]

def handedOut (s : System) : Nat :=
  s.events.countP fun event => event = .credentials "d1" ⟨"jwt5", "seed", "pub", none⟩ "p5"

/-- Three answers of one run carry the one credential. -/
theorem one_credential_retried : ∃ s,
    ReachedBy (System.step plainHashing) Fresh (System.init 1000 0) s ∧ handedOut s = 3 ∧
    (∀ creds peerId, .credentials "d1" creds peerId ∈ s.events →
      creds = ⟨"jwt5", "seed", "pub", none⟩ ∧ peerId = "p5") := by
  have hexec : (exec (fun s a => if Fresh s a then System.step plainHashing s a else none)
      (System.init 1000 0) sampleActions).map (fun s => decide (handedOut s = 3)) = some true := by
    decide +kernel
  obtain ⟨s, hr, hp⟩ := exists_reachedBy_of_exec hexec
  have hcount : handedOut s = 3 := by simpa using hp
  refine ⟨s, hr, hcount, fun creds peerId hev => ?_⟩
  have hmem : Event.credentials "d1" ⟨"jwt5", "seed", "pub", none⟩ "p5" ∈ s.events := by
    obtain ⟨event, hevent, heq⟩ := List.countP_pos_iff.mp (by rw [← handedOut, hcount]; decide)
    obtain rfl : event = _ := by simpa using heq
    exact hevent
  exact (one_credential plainHashing 1000 0 hr).1 "d1" _ _ _ _ hev hmem

end Webchannel.Enrollment
