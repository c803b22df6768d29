import Webchannel.Overflow.Story

/-!
# What the overflow resolver promises

In every state the resolver holds no more tasks and bytes than it may, one task for a session and one for a claim, and has
released each task once when it has ended. It rejects only what is overloaded, and a task that is stopped in time
publishes nothing.
-/

namespace Webchannel.Overflow

open Runs Log Tally
open Webchannel.Retention (JsNumber)
open Webchannel.Outcome (IngressOutcome Durability OutcomeLookup)
open Webchannel.Ingress (OutcomeRecordResult)

/-! ### What the stories say -/

namespace Story

variable {t : Nat} {recoverCancelled : Bool} {point : Point} {told : List Event}

theorem count_released (h : Story t recoverCancelled point told) :
    told.count (.released t) = if point = .settled then 1 else 0 := by
  induction h with
  | settled hne _ ih =>
    rw [List.count_append, ih, if_neg hne, if_pos rfl]
    simp
  | _ => simp

/-- A write that has been recorded is committed or rolled back at once. -/
theorem committed_or_rolledBack (h : Story t recoverCancelled point told) {durability : Durability}
    (hmem : .recorded t durability ∈ told) : .committed t ∈ told ∨ .rolledBack t ∈ told := by
  induction h with
  | settled _ _ ih =>
    have hbefore := ih ((List.mem_append.mp hmem).resolve_right (by simp))
    exact hbefore.imp (List.mem_append_left _) (List.mem_append_left _)
  | _ => simp at hmem ⊢

/-- A task that records publishes only what it has committed. -/
theorem committed_of_published (h : Story t recoverCancelled point told) {durability : Durability}
    (hmem : .recorded t durability ∈ told) (hsent : .sentAck t ∈ told ∨ .sentRejected t ∈ told) : .committed t ∈ told := by
  induction h with
  | settled _ _ ih =>
    have hbefore := (List.mem_append.mp hmem).resolve_right (by simp)
    refine List.mem_append_left _ (ih hbefore (hsent.imp ?_ ?_)) <;> intro hs <;>
      exact (List.mem_append.mp hs).resolve_right (by simp)
  | _ => simp at hmem hsent ⊢

/-- The rejection comes after its reason, and not in the story of a recovery. -/
theorem rejected (h : Story t recoverCancelled point told) {before after : List Event}
    (hcut : told = before ++ .sentRejected t :: after) : recoverCancelled = false ∧
      (.found t .overloaded ∈ before ∨ .recorded t .durable ∈ before ∧ .committed t ∈ before) := by
  induction h generalizing after with
  | settled _ _ ih =>
    obtain ⟨rest, htold, -⟩ | ⟨-, heq, -⟩ := cut_append_singleton hcut
    · exact ih htold
    · cases heq
  | foundOverloaded hordinary | recordedOverloaded hordinary =>
    refine ⟨hordinary, ?_⟩
    rcases before with _ | ⟨a, _ | ⟨b, _ | ⟨c, before⟩⟩⟩ <;> simp_all
  | _ =>
    have hmem : .sentRejected t ∈ before ++ .sentRejected t :: after := List.mem_append_right _ List.mem_cons_self
    rw [← hcut] at hmem
    simp at hmem

end Story

/-! ### Ends -/

/-- How many more answers a task can get. -/
def Point.left : Point → Nat
  | .settled => 0
  | .rollingBack | .sending | .recovered => 1
  | .ackingRecovered | .recordingOverloaded => 2
  | .recordingAccepted | .lookingUp => 3

/-- The task that an action resumes. -/
def Action.resumes : Action → Option Nat
  | .lookedUp t _ | .recorded t _ | .rolledBack t _ | .sent t _ | .returned t _ => some t
  | .tryStart _ | .invalidateSession _ | .invalidateAccount _ | .dispose => none

namespace Resolver

variable {r r' : Resolver} {t t' : Nat} {T : ActiveTask}

/-- The limits are as they were, and the task is nearer to its end, as the other tasks are where they were. -/
structure Advances (t : Nat) (T : ActiveTask) (r r' : Resolver) : Prop where
  maxTasks : r'.maxTasks = r.maxTasks
  maxMetadataBytes : r'.maxMetadataBytes = r.maxMetadataBytes
  tasks : ∃ T', r'.tasks = r.tasks.set t T' ∧ T'.point.left < T.point.left

theorem release_advances (hactive : T.released = false) (hleft : 0 < T.point.left) : Advances t T r (r.release t T) := by
  rw [release, if_neg (by rw [hactive]; exact Bool.false_ne_true)]
  exact ⟨rfl, rfl, ended T, rfl, hleft⟩

theorem suspend_advances {point : Point} {log : List Event} (hless : point.left < T.point.left) :
    Advances t T r { r with tasks := r.tasks.set t { T with point }, log } := ⟨rfl, rfl, _, rfl, hless⟩

theorem lookedUp_advances (hactive : T.released = false) (hpoint : T.point = .lookingUp) (result : Option OutcomeLookup) :
    Advances t T r (r.lookedUp t T result) := by
  have hleft : T.point.left = 3 := by rw [hpoint]; rfl
  have hpos : 0 < T.point.left := by omega
  unfold lookedUp
  split
  · exact release_advances hactive hpos
  · dsimp only
    split
    · rename_i outcome _
      have hended : Advances t T (r.tell (.found t outcome)) ((r.tell (.found t outcome)).release t T) :=
        release_advances hactive hpos
      exact ⟨hended.maxTasks, hended.maxMetadataBytes, hended.tasks⟩
    · split
      · exact suspend_advances (by rw [hleft]; decide)
      · exact suspend_advances (by rw [hleft]; decide)
  · split
    · exact release_advances hactive hpos
    · exact suspend_advances (by rw [hleft]; decide)
  · exact release_advances hactive hpos

theorem recordedAccepted_advances (hactive : T.released = false) (hpoint : T.point = .recordingAccepted)
    (result : Option OutcomeRecordResult) : Advances t T r (r.recordedAccepted t T result) := by
  have hleft : T.point.left = 3 := by rw [hpoint]; rfl
  have hpos : 0 < T.point.left := by omega
  unfold recordedAccepted
  split
  · exact release_advances hactive hpos
  · dsimp only
    split
    · exact suspend_advances (by rw [hleft]; decide)
    · exact suspend_advances (by rw [hleft]; decide)
  · exact release_advances hactive hpos

theorem recordedOverloaded_advances (hactive : T.released = false) (hpoint : T.point = .recordingOverloaded)
    (result : Option OutcomeRecordResult) : Advances t T r (r.recordedOverloaded t T result) := by
  have hleft : T.point.left = 2 := by rw [hpoint]; rfl
  have hpos : 0 < T.point.left := by omega
  unfold recordedOverloaded
  split
  · exact release_advances hactive hpos
  · dsimp only
    split
    · exact suspend_advances (by rw [hleft]; decide)
    · exact suspend_advances (by rw [hleft]; decide)
  · exact release_advances hactive hpos

theorem acked_advances (hactive : T.released = false) (hpoint : T.point = .ackingRecovered) (result : Option Bool) :
    Advances t T r (r.acked t T result) := by
  have hleft : T.point.left = 2 := by rw [hpoint]; rfl
  have hpos : 0 < T.point.left := by omega
  unfold acked
  split
  · exact suspend_advances (by rw [hleft]; decide)
  · exact release_advances hactive hpos

/-- Calls from outside change no limit and move no task. -/
structure Rests (r r' : Resolver) : Prop where
  maxTasks : r'.maxTasks = r.maxTasks
  maxMetadataBytes : r'.maxMetadataBytes = r.maxMetadataBytes
  tasks : ∀ (t : Nat) (T : ActiveTask), r.tasks[t]? = some T → ∃ T', r'.tasks[t]? = some T' ∧ T'.point = T.point

theorem Rests.refl (r : Resolver) : Rests r r := ⟨rfl, rfl, fun _ T hT => ⟨T, hT, rfl⟩⟩

theorem Rests.trans {r'' : Resolver} (h : Rests r r') (h' : Rests r' r'') : Rests r r'' := by
  refine ⟨h'.maxTasks.trans h.maxTasks, h'.maxMetadataBytes.trans h.maxMetadataBytes, fun t T hT => ?_⟩
  obtain ⟨T', hT', hpoint⟩ := h.tasks t T hT
  obtain ⟨T'', hT'', hpoint'⟩ := h'.tasks t T' hT'
  exact ⟨T'', hT'', hpoint'.trans hpoint⟩

theorem cancel_rests (r : Resolver) (t : Nat) : Rests r (r.cancel t) := by
  refine ⟨rfl, rfl, fun s S hS => ?_⟩
  rw [cancel, List.getElem?_modify, hS]
  split
  · exact ⟨_, rfl, rfl⟩
  · exact ⟨S, rfl, rfl⟩

theorem cancelAll_rests (l : List Nat) (r : Resolver) : Rests r (l.foldl cancel r) := by
  induction l generalizing r with
  | nil => exact .refl r
  | cons t l ih => exact (cancel_rests r t).trans (ih _)

theorem invalidateTasks_rests (accountId : String) (l : List Nat) (n : Nat) (r : Resolver) :
    Rests r (l.foldl (invalidateTask accountId) (n, r)).2 := by
  induction l generalizing n r with
  | nil => exact .refl r
  | cons t l ih =>
    rw [List.foldl_cons, invalidateTask]
    split
    · exact (cancel_rests r t).trans (ih _ _)
    · exact ih n r

theorem tryStart_rests (r : Resolver) (request : OverflowResolutionRequest) : Rests r (r.tryStart request).2 := by
  unfold tryStart
  split
  · exact .refl r
  · split
    · exact .refl r
    · have hstart (retained : Retained) : Rests r (r.start retained) :=
        ⟨rfl, rfl, fun _ T hT => ⟨T, getElem?_snoc.mpr (.inl hT), rfl⟩⟩
      repeat' split
      all_goals first | exact .refl r | exact hstart _

theorem dispose_rests (r : Resolver) : Rests r r.dispose.2 := by
  unfold dispose
  split
  · exact .refl r
  · have hstopped : Rests r { r with disposed := true, log := r.log ++ [.disposed] } := ⟨rfl, rfl, (Rests.refl r).tasks⟩
    exact hstopped.trans (cancelAll_rests _ _)

theorem invalidateSession_rests (r : Resolver) (sessionToken : Retention.SessionToken) :
    Rests r (r.invalidateSession sessionToken).2 := by
  unfold invalidateSession
  split
  · exact .refl r
  · split
    · exact .refl r
    · exact cancel_rests r _

end Resolver

open Resolver

variable {r r' : Resolver} {a : Action}

theorem step_rests (ha : a.resumes = none) (hs : step r a = some r') : Rests r r' := by
  cases a with
  | tryStart request =>
    obtain rfl := Option.some.inj hs
    exact tryStart_rests r request
  | invalidateSession sessionToken =>
    obtain rfl := Option.some.inj hs
    exact invalidateSession_rests r sessionToken
  | invalidateAccount accountId =>
    obtain rfl := Option.some.inj hs
    exact invalidateTasks_rests accountId _ 0 r
  | dispose =>
    obtain rfl := Option.some.inj hs
    exact dispose_rests r
  | _ => cases ha

theorem step_advances {t : Nat} (h : r.Kept) (ha : a.resumes = some t) (hs : step r a = some r') :
    ∃ T, r.tasks[t]? = some T ∧ Advances t T r r' := by
  cases a with
  | lookedUp s result =>
    obtain rfl := Option.some.inj ha
    obtain ⟨T, hT, hs⟩ := Option.bind_eq_some_iff.mp hs
    split at hs
    · rename_i hpoint
      obtain rfl := Option.some.inj hs
      exact ⟨T, hT, lookedUp_advances (h.active hT (by rw [hpoint]; nofun)) hpoint result⟩
    · cases hs
  | recorded s result =>
    obtain rfl := Option.some.inj ha
    obtain ⟨T, hT, hs⟩ := Option.bind_eq_some_iff.mp hs
    split at hs
    · rename_i hpoint
      obtain rfl := Option.some.inj hs
      exact ⟨T, hT, recordedAccepted_advances (h.active hT (by rw [hpoint]; nofun)) hpoint result⟩
    · rename_i hpoint
      obtain rfl := Option.some.inj hs
      exact ⟨T, hT, recordedOverloaded_advances (h.active hT (by rw [hpoint]; nofun)) hpoint result⟩
    · cases hs
  | rolledBack s threw =>
    obtain rfl := Option.some.inj ha
    obtain ⟨T, hT, hs⟩ := Option.bind_eq_some_iff.mp hs
    split at hs
    · rename_i hpoint
      obtain rfl := Option.some.inj hs
      exact ⟨T, hT, release_advances (h.active hT (by rw [hpoint]; nofun)) (by rw [hpoint]; decide)⟩
    · cases hs
  | sent s result =>
    obtain rfl := Option.some.inj ha
    obtain ⟨T, hT, hs⟩ := Option.bind_eq_some_iff.mp hs
    split at hs
    · rename_i hpoint
      obtain rfl := Option.some.inj hs
      exact ⟨T, hT, acked_advances (h.active hT (by rw [hpoint]; nofun)) hpoint result⟩
    · rename_i hpoint
      obtain rfl := Option.some.inj hs
      exact ⟨T, hT, release_advances (h.active hT (by rw [hpoint]; nofun)) (by rw [hpoint]; decide)⟩
    · cases hs
  | returned s threw =>
    obtain rfl := Option.some.inj ha
    obtain ⟨T, hT, hs⟩ := Option.bind_eq_some_iff.mp hs
    split at hs
    · rename_i hpoint
      obtain rfl := Option.some.inj hs
      exact ⟨T, hT, release_advances (h.active hT (by rw [hpoint]; nofun)) (by rw [hpoint]; decide)⟩
    · cases hs
  | _ => cases ha

/-! ### The promise -/

namespace Resolver

/-- The accounts, under the limits that the resolver was made with. -/
structure Accounts (maxTasks maxMetadataBytes : Nat) (r : Resolver) : Prop where
  tasks : (r.activeBySession.size : Int) = tally one active r.tasks ∧ tally one active r.tasks ≤ maxTasks
  bytes : r.activeBytes = tally weight active r.tasks ∧ r.activeBytes ≤ maxMetadataBytes ∧
    ∀ T ∈ r.tasks, T.bytes = overflowResolverMetadataBytes T.request
  session : ∀ (t t' : Nat) (T T' : ActiveTask), r.tasks[t]? = some T → r.tasks[t']? = some T' → T.released = false →
    T'.released = false → T.request.sessionToken = T'.request.sessionToken → t = t'
  claim : ∀ (t t' : Nat) (T T' : ActiveTask), r.tasks[t]? = some T → r.tasks[t']? = some T' → T.released = false →
    T'.released = false → T.request.accountId = T'.request.accountId → T.request.key = T'.request.key → t = t'
  released : ∀ (t : Nat) (T : ActiveTask), r.tasks[t]? = some T → (T.released = true ↔ T.point = .settled) ∧
    r.log.count (.released t) = if T.point = .settled then 1 else 0
  ends : ∀ (t : Nat) (T : ActiveTask) (a : Action) (r' : Resolver), r.tasks[t]? = some T → step r a = some r' →
    ∃ T', r'.tasks[t]? = some T' ∧ T'.point.left ≤ T.point.left ∧ (a.resumes = some t → T'.point.left < T.point.left)
  underflows : r.underflows = 0

/-- When a rejection is published, and what a task does that has been stopped. -/
structure Results (r : Resolver) : Prop where
  rejected : ∀ t before after, r.log = before ++ .sentRejected t :: after →
    .found t .overloaded ∈ before ∨ .recorded t .durable ∈ before ∧ .committed t ∈ before
  recovering : ∀ (t : Nat) (T : ActiveTask), r.tasks[t]? = some T → T.request.recoverCancelled = true →
    .sentRejected t ∉ r.log
  stopped : ∀ t before stop after, r.log = before ++ stop :: after → stop = .cancelled t ∨ stop = .disposed →
    .committed t ∉ before → .committed t ∉ r.log ∧ .sentAck t ∉ after ∧ .sentRejected t ∉ after ∧
      ∀ durability, .recorded t durability ∈ r.log →
        .rolledBack t ∈ r.log ∧ .sentAck t ∉ r.log ∧ .sentRejected t ∉ r.log

variable {t : Nat} {T : ActiveTask}

theorem Kept.ends (h : r.Kept) (hT : r.tasks[t]? = some T) (hs : Overflow.step r a = some r') :
    ∃ T', r'.tasks[t]? = some T' ∧ T'.point.left ≤ T.point.left ∧
      (a.resumes = some t → T'.point.left < T.point.left) := by
  cases ha : a.resumes with
  | none =>
    obtain ⟨T', hT', hpoint⟩ := (step_rests ha hs).tasks t T hT
    exact ⟨T', hT', Nat.le_of_eq (congrArg Point.left hpoint), nofun⟩
  | some s =>
    obtain ⟨S, hS, hadvances⟩ := step_advances h ha hs
    obtain ⟨S', htasks, hless⟩ := hadvances.tasks
    rw [htasks, List.getElem?_set]
    by_cases hst : s = t
    · subst hst
      obtain rfl := Option.some.inj (hT.symm.trans hS)
      rw [if_pos rfl, if_pos (List.getElem?_eq_some_iff.mp hT).1]
      exact ⟨S', rfl, Nat.le_of_lt hless, fun _ => hless⟩
    · rw [if_neg hst]
      exact ⟨T, hT, Nat.le_refl _, fun heq => absurd (Option.some.inj heq) hst⟩

theorem Kept.limits (h : r.Kept) (hs : Overflow.step r a = some r') :
    r'.maxTasks = r.maxTasks ∧ r'.maxMetadataBytes = r.maxMetadataBytes := by
  cases ha : a.resumes with
  | none => exact ⟨(step_rests ha hs).maxTasks, (step_rests ha hs).maxMetadataBytes⟩
  | some t =>
    obtain ⟨T, -, hadvances⟩ := step_advances h ha hs
    exact ⟨hadvances.maxTasks, hadvances.maxMetadataBytes⟩

theorem Kept.accounts (h : r.Kept) : r.Accounts r.maxTasks r.maxMetadataBytes where
  tasks := by
    have hsize := h.indexed.size
    have hle := h.indexed.size_le
    exact ⟨hsize, by omega⟩
  bytes := ⟨h.indexed.bytes, h.indexed.bytes_le, h.indexed.charged⟩
  session t t' T T' hT hT' hactive hactive' htoken := by
    have hget := h.indexed.active_session hT hactive
    rw [htoken, h.indexed.active_session hT' hactive'] at hget
    exact (Option.some.inj hget).symm
  claim t t' T T' hT hT' hactive hactive' haccount hkey := by
    have hget := (h.indexed.claims T'.request.accountId T'.request.key t).mpr ⟨T, hT, hactive, haccount, hkey⟩
    have hget' := (h.indexed.claims T'.request.accountId T'.request.key t').mpr ⟨T', hT', hactive', rfl, rfl⟩
    exact Option.some.inj (hget.symm.trans hget')
  released t T hT := by
    refine ⟨h.told.released t T hT, ?_⟩
    have htells : (Event.released t).tells t = true := decide_eq_true rfl
    rw [← (h.told.story t T hT).count_released, own, List.count_filter htells]
  ends t T a r' hT hs := h.ends hT hs
  underflows := h.indexed.underflows

theorem mem_own {event : Event} {log : List Event} (htells : event.tells t = true) : event ∈ own t log ↔ event ∈ log := by
  rw [own, List.mem_filter]
  exact ⟨And.left, fun hmem => ⟨hmem, htells⟩⟩

/-- A task that has told something has been started. -/
theorem Kept.of_told (h : r.Kept) {event : Event} (hmem : event ∈ r.log) (htells : event.tells t = true) :
    ∃ T, r.tasks[t]? = some T := by
  cases hget : r.tasks[t]? with
  | some T => exact ⟨T, rfl⟩
  | none =>
    have hnil := (h.told.unborn t (List.getElem?_eq_none_iff.mp hget)).1
    rw [← mem_own htells, hnil] at hmem
    cases hmem

theorem law_of_stop {stop event : Event} {history : List Event} (hstop : stop = .cancelled t ∨ stop = .disposed)
    (hmem : stop ∈ history) (hproceeds : event.proceeds t = true) : ¬ law history event := by
  intro hlaw
  obtain ⟨hcancelled, hdisposed⟩ := hlaw t hproceeds
  rcases hstop with rfl | rfl
  · exact hcancelled hmem
  · exact hdisposed hmem

theorem Kept.rejected (h : r.Kept) {before after : List Event} (hcut : r.log = before ++ .sentRejected t :: after) :
    ∃ T, r.tasks[t]? = some T ∧ T.request.recoverCancelled = false ∧
      (.found t .overloaded ∈ before ∨ .recorded t .durable ∈ before ∧ .committed t ∈ before) := by
  have htells : (Event.sentRejected t).tells t = true := decide_eq_true rfl
  obtain ⟨T, hT⟩ := h.of_told (hcut ▸ List.mem_append_right _ List.mem_cons_self) htells
  have hown : own t r.log = own t before ++ .sentRejected t :: own t after := by
    rw [hcut, own_append, own, own, own, List.filter_cons_of_pos htells]
  obtain ⟨hordinary, hreason⟩ := (h.told.story t T hT).rejected hown
  refine ⟨T, hT, hordinary, ?_⟩
  have hfound : .found t .overloaded ∈ own t before ↔ .found t .overloaded ∈ before := mem_own (decide_eq_true rfl)
  have hrecorded : .recorded t .durable ∈ own t before ↔ .recorded t .durable ∈ before := mem_own (decide_eq_true rfl)
  have hcommitted : .committed t ∈ own t before ↔ .committed t ∈ before := mem_own (decide_eq_true rfl)
  rwa [hfound, hrecorded, hcommitted] at hreason

theorem Kept.results (h : r.Kept) : r.Results where
  rejected t before after hcut := by
    obtain ⟨-, -, -, hreason⟩ := h.rejected hcut
    exact hreason
  recovering t T hT hrecover hmem := by
    obtain ⟨before, after, hcut⟩ := List.append_of_mem hmem
    obtain ⟨T', hT', hordinary, -⟩ := h.rejected hcut
    obtain rfl := Option.some.inj (hT.symm.trans hT')
    cases hrecover.symm.trans hordinary
  stopped t before stop after hcut hstop hbefore := by
    have hlawful := h.told.lawful
    rw [hcut] at hlawful
    have hafter {event : Event} (hproceeds : event.proceeds t = true) : event ∉ after :=
      hlawful.not_mem_after fun _ hmem => law_of_stop hstop hmem hproceeds
    have hcommitted : .committed t ∉ r.log := by
      rw [hcut]
      intro hmem
      obtain hmem | hmem := List.mem_append.mp hmem
      · exact hbefore hmem
      · obtain rfl | hmem := List.mem_cons.mp hmem
        · rcases hstop with hstop | hstop <;> cases hstop
        · exact hafter (by simp [Event.proceeds]) hmem
    refine ⟨hcommitted, hafter (by simp [Event.proceeds]), hafter (by simp [Event.proceeds]), fun durability hrecorded => ?_⟩
    have htells : (Event.recorded t durability).tells t = true := decide_eq_true rfl
    obtain ⟨T, hT⟩ := h.of_told hrecorded htells
    have hstory := h.told.story t T hT
    have hown : .recorded t durability ∈ own t r.log := (mem_own (by simp [Event.tells])).mpr hrecorded
    have hnot : .committed t ∉ own t r.log := fun hmem => hcommitted ((mem_own (by simp [Event.tells])).mp hmem)
    refine ⟨(mem_own (by simp [Event.tells])).mp ((hstory.committed_or_rolledBack hown).resolve_left hnot),
      fun hmem => hnot (hstory.committed_of_published hown (.inl ?_)),
      fun hmem => hnot (hstory.committed_of_published hown (.inr ?_))⟩
    · exact (mem_own (by simp [Event.tells])).mpr hmem
    · exact (mem_own (by simp [Event.tells])).mpr hmem

theorem create_eq {maxTasks maxMetadataBytes : Option JsNumber} (h : create maxTasks maxMetadataBytes = .ok r) :
    ∃ m n, r = ⟨.empty, .empty, 0, false, m, n, [], [], 0⟩ := by
  unfold create at h
  obtain ⟨m, -, h⟩ := Effect.of_bind_eq_ok h
  obtain ⟨n, -, h⟩ := Effect.of_bind_eq_ok h
  exact ⟨m, n, (Except.ok.inj h).symm⟩

theorem kept_create {maxTasks maxMetadataBytes : Option JsNumber} (h : create maxTasks maxMetadataBytes = .ok r) :
    r.Kept := by
  obtain ⟨m, n, rfl⟩ := create_eq h
  refine ⟨⟨fun token t => ?_, fun accountId key t => ?_, rfl, Nat.zero_le _, rfl, Int.natCast_nonneg _, nofun, rfl⟩,
    ⟨nofun, fun t _ => ⟨rfl, nofun⟩, nofun, nofun, nofun, lawful_nil⟩⟩
  · exact ⟨nofun, fun ⟨T, hT, _⟩ => by cases hT⟩
  · exact ⟨nofun, fun ⟨T, hT, _⟩ => by cases hT⟩

end Resolver

def overflowedMessage : OverflowResolutionRequest :=
  ⟨.value "main", .value "alice", .value "alice:m1", .value "m1", 7, .undefined⟩

end Webchannel.Overflow
