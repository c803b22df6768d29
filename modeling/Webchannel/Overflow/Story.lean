import Webchannel.Overflow.Indexes

/-!
# What a task does

A task tells one of a few stories, and nothing decisive is in it after the task has been invalidated or the resolver
disposed.
-/

namespace Webchannel.Overflow

open Runs Log
open Webchannel.Outcome (IngressOutcome Durability OutcomeLookup)
open Webchannel.Ingress (OutcomeRecordResult)

/-- The events of a task's own doing. -/
def Event.tells (t : Nat) : Event → Bool
  | .found s _ | .recorded s _ | .committed s | .rolledBack s | .sentAck s | .sentRejected s | .cancelledRecovered s
  | .released s => s = t
  | .disposed | .cancelled _ => false

/-- The events that a task which has been stopped must not cause. -/
def Event.proceeds (t : Nat) : Event → Bool
  | .committed s | .sentAck s | .sentRejected s | .cancelledRecovered s => s = t
  | .found _ _ | .recorded _ _ | .rolledBack _ | .released _ | .disposed | .cancelled _ => false

/-- What a task has done when it stands at a point. -/
inductive Story (t : Nat) (recoverCancelled : Bool) : Point → List Event → Prop where
  | recordingAccepted : recoverCancelled = true → Story t recoverCancelled .recordingAccepted []
  | lookingUp : recoverCancelled = false → Story t recoverCancelled .lookingUp []
  | recordingOverloaded : recoverCancelled = false → Story t recoverCancelled .recordingOverloaded []
  | rollingBack (durability : Durability) :
      Story t recoverCancelled .rollingBack [.recorded t durability, .rolledBack t]
  | ackingRecovered (durability : Durability) : recoverCancelled = true →
      Story t recoverCancelled .ackingRecovered [.recorded t durability, .committed t, .sentAck t]
  | recovered (durability : Durability) : recoverCancelled = true →
      Story t recoverCancelled .recovered [.recorded t durability, .committed t, .sentAck t, .cancelledRecovered t]
  | foundAccepted : recoverCancelled = false → Story t recoverCancelled .sending [.found t .accepted, .sentAck t]
  | foundOverloaded : recoverCancelled = false →
      Story t recoverCancelled .sending [.found t .overloaded, .sentRejected t]
  | recordedOverloaded : recoverCancelled = false →
      Story t recoverCancelled .sending [.recorded t .durable, .committed t, .sentRejected t]
  | foundTooLate (outcome : IngressOutcome) : Story t recoverCancelled .settled [.found t outcome, .released t]
  | settled {point : Point} {told : List Event} : point ≠ .settled → Story t recoverCancelled point told →
      Story t recoverCancelled .settled (told ++ [.released t])

/-- A story from its beginning. -/
theorem Story.begun {t : Nat} {recoverCancelled : Bool} {point : Point} {told events : List Event} (htold : told = [])
    (h : Story t recoverCancelled point events) : Story t recoverCancelled point (told ++ events) := by
  rwa [htold, List.nil_append]

namespace Resolver

variable {r r' : Resolver} {t t' : Nat} {T T' : ActiveTask}

def own (t : Nat) (log : List Event) : List Event := log.filter (·.tells t)

/-- A task that has been invalidated, or any after the disposal, does not proceed. -/
def law (before : List Event) (event : Event) : Prop :=
  ∀ t, event.proceeds t = true → .cancelled t ∉ before ∧ .disposed ∉ before

structure Told (r : Resolver) : Prop where
  story : ∀ t T, r.tasks[t]? = some T → Story t T.request.recoverCancelled T.point (own t r.log)
  unborn : ∀ t, r.tasks.length ≤ t → own t r.log = [] ∧ .cancelled t ∉ r.log
  released : ∀ (t : Nat) (T : ActiveTask), r.tasks[t]? = some T → (T.released = true ↔ T.point = .settled)
  cancelled : ∀ (t : Nat) (T : ActiveTask), r.tasks[t]? = some T → .cancelled t ∈ r.log → T.cancelled = true
  disposed : .disposed ∈ r.log → r.disposed = true
  lawful : Lawful law r.log

theorem own_append (log events : List Event) : own t (log ++ events) = own t log ++ own t events := List.filter_append ..

theorem tells_unique {event : Event} (h : event.tells t = true) (h' : event.tells t' = true) : t = t' := by
  cases event <;> first | cases h | exact (of_decide_eq_true h).symm.trans (of_decide_eq_true h')

theorem own_other {events : List Event} (htells : ∀ event ∈ events, event.tells t = true) (hne : t' ≠ t) :
    own t' events = [] := by
  refine List.filter_eq_nil_iff.mpr fun event hmem htold => ?_
  exact hne (tells_unique htold (htells event hmem))

theorem own_self {events : List Event} (htells : ∀ event ∈ events, event.tells t = true) : own t events = events :=
  List.filter_eq_self.mpr htells

theorem proceeds_tells {event : Event} (h : event.proceeds t = true) : event.tells t = true := by
  cases event <;> first | cases h | exact h

/-- The law holds for events of a task that has not been stopped. -/
theorem lawful_append {log : List Event} (h : Lawful law log) (events : List Event)
    (htells : ∀ event ∈ events, event.tells t = true)
    (hlaw : ∀ event ∈ events, event.proceeds t = true → .cancelled t ∉ log ∧ .disposed ∉ log) :
    Lawful law (log ++ events) := by
  induction events generalizing log with
  | nil => rwa [List.append_nil]
  | cons event events ih =>
    have htold := htells event List.mem_cons_self
    rw [List.append_cons log event events]
    refine ih (h.snoc fun s hs => ?_) (fun e he => htells e (.tail _ he)) fun e he hproceeds => ?_
    · obtain rfl := tells_unique (proceeds_tells hs) htold
      exact hlaw event List.mem_cons_self hs
    · obtain ⟨hcancelled, hdisposed⟩ := hlaw e (.tail _ he) hproceeds
      refine ⟨fun hmem => ?_, fun hmem => ?_⟩
      · obtain hmem | hmem := List.mem_append.mp hmem
        · exact hcancelled hmem
        · rw [← List.mem_singleton.mp hmem] at htold
          cases htold
      · obtain hmem | hmem := List.mem_append.mp hmem
        · exact hdisposed hmem
        · rw [← List.mem_singleton.mp hmem] at htold
          cases htold

/-- One task goes on with its story. -/
theorem Told.move (h : r.Told) (hT : r.tasks[t]? = some T) {events : List Event} (htasks : r'.tasks = r.tasks.set t T')
    (hlog : r'.log = r.log ++ events) (hdisposed : r'.disposed = r.disposed) (hrequest : T'.request = T.request)
    (hcancelled : T'.cancelled = T.cancelled) (hreleased : T'.released = true ↔ T'.point = .settled)
    (hstory : Story t T.request.recoverCancelled T'.point (own t r.log ++ events))
    (htells : ∀ event ∈ events, event.tells t = true)
    (hlaw : ∀ event ∈ events, event.proceeds t = true → r.stopped T = false) : r'.Told := by
  obtain ⟨hlt, -⟩ := List.getElem?_eq_some_iff.mp hT
  have hget {s : Nat} {S : ActiveTask} (hS : r'.tasks[s]? = some S) : s = t ∧ S = T' ∨ s ≠ t ∧ r.tasks[s]? = some S := by
    rw [htasks, List.getElem?_set] at hS
    split at hS
    · rename_i heq
      exact .inl ⟨heq.symm, (Option.some.inj hS).symm⟩
    · rename_i hne
      exact .inr ⟨fun heq => hne heq.symm, hS⟩
  have hnew {event : Event} (hmem : event ∈ r'.log) (htold : event.tells t = false) : event ∈ r.log := by
    rw [hlog] at hmem
    obtain hmem | hmem := List.mem_append.mp hmem
    · exact hmem
    · cases htold.symm.trans (htells event hmem)
  refine ⟨fun s S hS => ?_, fun s hs => ?_, fun s S hS => ?_, fun s S hS hmem => ?_, fun hmem => ?_, ?_⟩
  · rw [hlog, own_append]
    obtain ⟨rfl, rfl⟩ | ⟨hne, hS⟩ := hget hS
    · rw [own_self htells, hrequest]
      exact hstory
    · rw [own_other htells hne, List.append_nil]
      exact h.story s S hS
  · rw [htasks, List.length_set] at hs
    obtain ⟨hown, hcancel⟩ := h.unborn s hs
    have hne : s ≠ t := Nat.ne_of_gt (Nat.lt_of_lt_of_le hlt hs)
    rw [hlog, own_append, own_other htells hne, hown]
    exact ⟨rfl, fun hmem => hcancel (hnew (hlog ▸ hmem) rfl)⟩
  · obtain ⟨rfl, rfl⟩ | ⟨-, hS⟩ := hget hS
    · exact hreleased
    · exact h.released s S hS
  · obtain ⟨rfl, rfl⟩ | ⟨-, hS⟩ := hget hS
    · rw [hcancelled]
      exact h.cancelled _ T hT (hnew hmem rfl)
    · exact h.cancelled s S hS (hnew hmem rfl)
  · rw [hdisposed]
    exact h.disposed (hnew hmem rfl)
  · rw [hlog]
    refine lawful_append h.lawful events htells fun event hmem hproceeds => ?_
    obtain ⟨hnot, hlive⟩ := Bool.or_eq_false_iff.mp (hlaw event hmem hproceeds)
    refine ⟨fun hmem => ?_, fun hmem => ?_⟩
    · cases hnot.symm.trans (h.cancelled t T hT hmem)
    · cases hlive.symm.trans (h.disposed hmem)

/-- The books and the stories. -/
structure Kept (r : Resolver) : Prop where
  indexed : r.Indexed
  told : r.Told

theorem Kept.active (h : r.Kept) (hT : r.tasks[t]? = some T) (hpoint : T.point ≠ .settled) : T.released = false := by
  cases hreleased : T.released with
  | false => rfl
  | true => exact absurd ((h.told.released t T hT).mp hreleased) hpoint

/-- The task has got an answer and goes on to another await. -/
theorem Kept.suspend (h : r.Kept) (hT : r.tasks[t]? = some T) (hpoint : T.point ≠ .settled) {point : Point}
    {events log : List Event} (hlog : log = r.log ++ events) (hnext : point ≠ .settled)
    (hstory : Story t T.request.recoverCancelled point (own t r.log ++ events))
    (htells : ∀ event ∈ events, event.tells t = true)
    (hlaw : ∀ event ∈ events, event.proceeds t = true → r.stopped T = false) :
    ({ r with tasks := r.tasks.set t { T with point }, log } : Resolver).Kept := by
  have hactive := h.active hT hpoint
  refine ⟨h.indexed.sameBooks ⟨rfl, rfl, rfl, rfl, rfl, rfl, map_books_set hT rfl⟩, ?_⟩
  refine h.told.move hT rfl hlog rfl rfl rfl ?_ hstory htells hlaw
  constructor
  · intro hreleased
    cases hactive.symm.trans hreleased
  · exact fun hsettled => absurd hsettled hnext

/-- The task ends, perhaps with an answer that came too late. -/
theorem Kept.finish (h : r.Kept) (hT : r.tasks[t]? = some T) (hpoint : T.point ≠ .settled) {events : List Event}
    {r₁ : Resolver} (hbooks : SameBooks r r₁) (htasks : r₁.tasks = r.tasks) (hlog : r₁.log = r.log ++ events)
    (hdisposed : r₁.disposed = r.disposed)
    (hstory : Story t T.request.recoverCancelled .settled (own t r.log ++ (events ++ [.released t])))
    (htells : ∀ event ∈ events, event.tells t = true)
    (hlaw : ∀ event ∈ events, event.proceeds t = false) : (r₁.release t T).Kept := by
  have hactive := h.active hT hpoint
  have hindexed := h.indexed.sameBooks hbooks
  have hT₁ : r₁.tasks[t]? = some T := htasks ▸ hT
  have heq := release_eq hindexed hT₁ hactive
  refine ⟨hindexed.release hT₁ hactive, ?_⟩
  have hmoved : (r₁.release t T).tasks = r.tasks.set t (ended T) := by rw [heq, ← htasks]
  refine h.told.move hT hmoved ?_ ?_ rfl rfl ⟨fun _ => rfl, fun _ => rfl⟩ hstory ?_ ?_
  · rw [heq, ← List.append_assoc, ← hlog]
  · rw [heq, ← hdisposed]
  · intro event hmem
    obtain hmem | hmem := List.mem_append.mp hmem
    · exact htells event hmem
    · rw [List.mem_singleton.mp hmem]
      exact decide_eq_true rfl
  · intro event hmem hproceeds
    obtain hmem | hmem := List.mem_append.mp hmem
    · cases (hlaw event hmem).symm.trans hproceeds
    · rw [List.mem_singleton.mp hmem] at hproceeds
      cases hproceeds

theorem Kept.release (h : r.Kept) (hT : r.tasks[t]? = some T) (hpoint : T.point ≠ .settled) : (r.release t T).Kept := by
  refine h.finish hT hpoint (.refl r) rfl (List.append_nil _).symm rfl ?_ (fun _ hmem => by cases hmem) fun _ hmem => by cases hmem
  rw [List.nil_append]
  exact .settled hpoint (h.told.story t T hT)

/-! ### The parts of `resolve` -/

theorem Kept.lookedUp (h : r.Kept) (hT : r.tasks[t]? = some T) (hpoint : T.point = .lookingUp)
    (result : Option OutcomeLookup) : (r.lookedUp t T result).Kept := by
  have hne : T.point ≠ .settled := by rw [hpoint]; nofun
  have hstory := h.told.story t T hT
  rw [hpoint] at hstory
  generalize htold : own t r.log = told at hstory
  cases hstory with
  | lookingUp hordinary =>
  cases result with
  | none => exact h.release hT hne
  | some result =>
    cases result with
    | notFound =>
      unfold Resolver.lookedUp
      dsimp only
      split
      · exact h.release hT hne
      · have hnext : Story t T.request.recoverCancelled .recordingOverloaded (own t r.log ++ []) :=
          .begun htold (.recordingOverloaded hordinary)
        exact h.suspend hT hne (List.append_nil _).symm nofun hnext nofun nofun
    | unknown error => exact h.release hT hne
    | found outcome =>
      unfold Resolver.lookedUp
      dsimp only
      split
      · refine h.finish hT hne (tell_books r (.found t outcome)) rfl rfl rfl (.begun htold (.foundTooLate outcome)) ?_ ?_ <;>
          intro event hmem <;> rw [List.mem_singleton.mp hmem]
        · exact decide_eq_true rfl
        · rfl
      · rename_i hlive
        have hgo : r.stopped T = false := eq_false_of_ne_true hlive
        cases outcome with
        | accepted =>
          have hnext := Story.begun (t := t) htold (Story.foundAccepted hordinary)
          exact h.suspend hT hne (List.append_assoc ..) nofun hnext (by simp [Event.tells]) fun _ _ _ => hgo
        | overloaded =>
          have hnext := Story.begun (t := t) htold (Story.foundOverloaded hordinary)
          exact h.suspend hT hne (List.append_assoc ..) nofun hnext (by simp [Event.tells]) fun _ _ _ => hgo

theorem Kept.rollback (h : r.Kept) (hT : r.tasks[t]? = some T) (hne : T.point ≠ .settled) (htold : own t r.log = [])
    (durability : Durability) : ((r.tell (.recorded t durability)).rollback t T).Kept := by
  have hnext : Story t T.request.recoverCancelled _ _ := Story.begun htold (.rollingBack durability)
  exact h.suspend hT hne (List.append_assoc ..) nofun hnext (by simp [Event.tells]) (by simp [Event.proceeds])

theorem Kept.recordedAccepted (h : r.Kept) (hT : r.tasks[t]? = some T) (hpoint : T.point = .recordingAccepted)
    (result : Option OutcomeRecordResult) : (r.recordedAccepted t T result).Kept := by
  have hne : T.point ≠ .settled := by rw [hpoint]; nofun
  have hstory := h.told.story t T hT
  rw [hpoint] at hstory
  generalize htold : own t r.log = told at hstory
  cases hstory with
  | recordingAccepted hrecover =>
  cases result with
  | none => exact h.release hT hne
  | some result =>
    cases result with
    | unknown => exact h.release hT hne
    | recorded durability =>
      unfold Resolver.recordedAccepted
      dsimp only
      split
      · exact h.rollback hT hne htold durability
      · rename_i hlive
        have hgo : r.stopped T = false := eq_false_of_ne_true hlive
        have hnext := Story.begun (t := t) htold (Story.ackingRecovered durability hrecover)
        refine h.suspend hT hne ?_ nofun hnext (by simp [Event.tells]) fun _ _ _ => hgo
        rw [Resolver.tell, Resolver.tell, Resolver.tell, List.append_assoc, List.append_assoc]
        rfl

theorem Kept.recordedOverloaded (h : r.Kept) (hT : r.tasks[t]? = some T) (hpoint : T.point = .recordingOverloaded)
    (result : Option OutcomeRecordResult) : (r.recordedOverloaded t T result).Kept := by
  have hne : T.point ≠ .settled := by rw [hpoint]; nofun
  have hstory := h.told.story t T hT
  rw [hpoint] at hstory
  generalize htold : own t r.log = told at hstory
  cases hstory with
  | recordingOverloaded hordinary =>
  cases result with
  | none => exact h.release hT hne
  | some result =>
    cases result with
    | unknown => exact h.release hT hne
    | recorded durability =>
      unfold Resolver.recordedOverloaded
      dsimp only
      split
      · exact h.rollback hT hne htold durability
      · rename_i hlive
        obtain ⟨hlive, hdurable⟩ := not_or.mp hlive
        have hgo : r.stopped T = false := eq_false_of_ne_true hlive
        obtain rfl := not_not.mp hdurable
        have hnext := Story.begun (t := t) htold (Story.recordedOverloaded hordinary)
        refine h.suspend hT hne ?_ nofun hnext (by simp [Event.tells]) fun _ _ _ => hgo
        rw [Resolver.tell, Resolver.tell, Resolver.tell, List.append_assoc, List.append_assoc]
        rfl

theorem Kept.acked (h : r.Kept) (hT : r.tasks[t]? = some T) (hpoint : T.point = .ackingRecovered)
    (result : Option Bool) : (r.acked t T result).Kept := by
  have hne : T.point ≠ .settled := by rw [hpoint]; nofun
  have hstory := h.told.story t T hT
  rw [hpoint] at hstory
  generalize htold : own t r.log = told at hstory
  cases hstory with
  | ackingRecovered durability hrecover =>
  unfold Resolver.acked
  split
  · rename_i hlive
    have hgo : r.stopped T = false := by simpa using (Bool.and_eq_true_iff.mp hlive).1
    have hnext : Story t T.request.recoverCancelled .recovered (own t r.log ++ [.cancelledRecovered t]) := by
      rw [htold]
      exact .recovered durability hrecover
    exact h.suspend hT hne rfl nofun hnext (by simp [Event.tells]) fun _ _ _ => hgo
  · exact h.release hT hne

/-! ### Calls from outside -/

theorem Kept.cancel (h : r.Kept) (hlt : t < r.tasks.length) : (r.cancel t).Kept := by
  have hget {s : Nat} {S : ActiveTask} (hS : (r.cancel t).tasks[s]? = some S) : ∃ S₀, r.tasks[s]? = some S₀ ∧
      S.request = S₀.request ∧ S.released = S₀.released ∧ S.point = S₀.point ∧ S.cancelled = (S₀.cancelled || s == t) := by
    rw [Resolver.cancel, List.getElem?_modify] at hS
    split at hS
    · rename_i heq
      obtain ⟨S₀, hS₀, rfl⟩ := Option.map_eq_some_iff.mp hS
      exact ⟨S₀, hS₀, rfl, rfl, rfl, by simp [heq]⟩
    · rename_i hne
      have hne' : s ≠ t := fun heq => hne heq.symm
      have hS : r.tasks[s]? = some S := by simpa using hS
      exact ⟨S, hS, rfl, rfl, rfl, by simp [hne']⟩
  have hown (s : Nat) : own s (r.cancel t).log = own s r.log := by
    rw [Resolver.cancel, own_append]
    exact List.append_nil _
  have hold {event : Event} (hmem : event ∈ (r.cancel t).log) : event ∈ r.log ∨ event = .cancelled t :=
    (List.mem_append.mp hmem).imp_right List.mem_singleton.mp
  refine ⟨h.indexed.sameBooks (cancel_books r t), fun s S hS => ?_, fun s hs => ?_, fun s S hS => ?_, fun s S hS hmem => ?_,
    fun hmem => ?_, ?_⟩
  · obtain ⟨S₀, hS₀, hrequest, -, hpoint, -⟩ := hget hS
    rw [hrequest, hpoint, hown]
    exact h.told.story s S₀ hS₀
  · rw [Resolver.cancel, List.length_modify] at hs
    obtain ⟨hnil, hcancel⟩ := h.told.unborn s hs
    refine ⟨(hown s).trans hnil, fun hmem => ?_⟩
    obtain hmem | heq := hold hmem
    · exact hcancel hmem
    · obtain rfl := Event.cancelled.inj heq
      exact absurd hlt (Nat.not_lt.mpr hs)
  · obtain ⟨S₀, hS₀, -, hreleased, hpoint, -⟩ := hget hS
    rw [hreleased, hpoint]
    exact h.told.released s S₀ hS₀
  · obtain ⟨S₀, hS₀, -, -, -, hcancelled⟩ := hget hS
    rw [hcancelled]
    obtain hmem | heq := hold hmem
    · rw [h.told.cancelled s S₀ hS₀ hmem, Bool.true_or]
    · rw [Event.cancelled.inj heq, beq_self_eq_true, Bool.or_true]
  · exact h.told.disposed ((hold hmem).resolve_right fun heq => by cases heq)
  · exact h.told.lawful.snoc fun _ hs => by cases hs

theorem length_cancel (r : Resolver) (t : Nat) : (r.cancel t).tasks.length = r.tasks.length := List.length_modify ..

/-- The tasks that the index of sessions names are there. -/
theorem Kept.values (h : r.Kept) : ∀ t ∈ r.activeBySession.values, t < r.tasks.length := by
  intro t hmem
  obtain ⟨token, hget⟩ := OrderedMap.mem_values.mp hmem
  obtain ⟨T, hT, -⟩ := (h.indexed.sessions token t).mp hget
  exact (List.getElem?_eq_some_iff.mp hT).1

theorem Kept.cancelAll (h : r.Kept) {l : List Nat} (hl : ∀ t ∈ l, t < r.tasks.length) : (l.foldl Resolver.cancel r).Kept := by
  induction l generalizing r with
  | nil => exact h
  | cons t l ih =>
    refine ih (h.cancel (hl t List.mem_cons_self)) fun s hs => ?_
    rw [length_cancel]
    exact hl s (.tail _ hs)

theorem Kept.invalidateSession (h : r.Kept) (sessionToken : Retention.SessionToken) :
    (r.invalidateSession sessionToken).2.Kept := by
  unfold Resolver.invalidateSession
  split
  · exact h
  · rename_i t hget
    split
    · exact h
    · exact h.cancel (h.values t (OrderedMap.mem_values.mpr ⟨sessionToken, hget⟩))

theorem Kept.invalidateTasks (h : r.Kept) (accountId : String) {l : List Nat} (hl : ∀ t ∈ l, t < r.tasks.length) (n : Nat) :
    (l.foldl (invalidateTask accountId) (n, r)).2.Kept := by
  induction l generalizing r n with
  | nil => exact h
  | cons t l ih =>
    rw [List.foldl_cons, invalidateTask]
    split
    · refine ih (h.cancel (hl t List.mem_cons_self)) (fun s hs => ?_) (n + 1)
      rw [length_cancel]
      exact hl s (.tail _ hs)
    · exact ih h (fun s hs => hl s (.tail _ hs)) n

theorem Kept.stop (h : r.Kept) : ({ r with disposed := true, log := r.log ++ [.disposed] } : Resolver).Kept := by
  have hown (t : Nat) : own t (r.log ++ [.disposed]) = own t r.log := by
    rw [own_append]
    exact List.append_nil _
  have hold {t : Nat} (hmem : Event.cancelled t ∈ r.log ++ [.disposed]) : .cancelled t ∈ r.log :=
    (List.mem_append.mp hmem).resolve_right (by simp)
  refine ⟨h.indexed.sameBooks ⟨rfl, rfl, rfl, rfl, rfl, rfl, rfl⟩, fun t T hT => ?_, fun t ht => ?_, h.told.released,
    fun t T hT hmem => ?_, fun _ => rfl, ?_⟩
  · dsimp only
    rw [hown]
    exact h.told.story t T hT
  · exact ⟨(hown t).trans (h.told.unborn t ht).1, fun hmem => (h.told.unborn t ht).2 (hold hmem)⟩
  · exact h.told.cancelled t T hT (hold hmem)
  · exact h.told.lawful.snoc nofun

theorem Kept.dispose (h : r.Kept) : r.dispose.2.Kept := by
  unfold Resolver.dispose
  split
  · exact h
  · exact h.stop.cancelAll h.values

theorem Kept.start (h : r.Kept) {retained : Retained} (hindexed : (r.start retained).Indexed) : (r.start retained).Kept := by
  refine ⟨hindexed, fun t T hT => ?_, fun t ht => ?_, fun t T hT => ?_, fun t T hT hmem => ?_, h.told.disposed,
    h.told.lawful⟩
  · obtain hT | ⟨rfl, rfl⟩ := getElem?_snoc.mp hT
    · exact h.told.story t T hT
    · have hnil : own r.tasks.length (r.start retained).log = [] := (h.told.unborn _ (Nat.le_refl _)).1
      rw [hnil]
      dsimp only
      cases hrecover : retained.recoverCancelled with
      | true => exact .recordingAccepted rfl
      | false => exact .lookingUp rfl
  · refine h.told.unborn t (Nat.le_of_succ_le ?_)
    rwa [Resolver.start, List.length_append] at ht
  · obtain hT | ⟨-, rfl⟩ := getElem?_snoc.mp hT
    · exact h.told.released t T hT
    · dsimp only
      cases retained.recoverCancelled <;> decide
  · obtain hT | ⟨rfl, rfl⟩ := getElem?_snoc.mp hT
    · exact h.told.cancelled t T hT hmem
    · exact absurd hmem (h.told.unborn _ (Nat.le_refl _)).2

theorem Kept.tryStart (h : r.Kept) (request : OverflowResolutionRequest) : (r.tryStart request).2.Kept := by
  unfold Resolver.tryStart
  split
  · exact h
  · split
    · exact h
    · split
      · exact h
      · rename_i hsession
        split
        · exact h
        · rename_i hclaim
          split
          · exact h
          · rename_i hcount
            split
            · exact h
            · rename_i hbytes
              exact h.start (h.indexed.start (Bool.not_eq_true _ ▸ hsession) (Bool.not_eq_true _ ▸ hclaim)
                (Nat.lt_of_not_le hcount) (Int.not_lt.mp hbytes))

end Resolver

open Resolver

theorem Resolver.Kept.step {r r' : Resolver} {a : Action} (h : r.Kept) (hs : step r a = some r') : r'.Kept := by
  cases a with
  | tryStart request =>
    obtain rfl := Option.some.inj hs
    exact h.tryStart request
  | invalidateSession sessionToken =>
    obtain rfl := Option.some.inj hs
    exact h.invalidateSession sessionToken
  | invalidateAccount accountId =>
    obtain rfl := Option.some.inj hs
    exact h.invalidateTasks accountId h.values 0
  | dispose =>
    obtain rfl := Option.some.inj hs
    exact h.dispose
  | lookedUp t result =>
    obtain ⟨T, hT, hs⟩ := Option.bind_eq_some_iff.mp hs
    split at hs
    · obtain rfl := Option.some.inj hs
      exact h.lookedUp hT ‹_› result
    · cases hs
  | recorded t result =>
    obtain ⟨T, hT, hs⟩ := Option.bind_eq_some_iff.mp hs
    split at hs
    · obtain rfl := Option.some.inj hs
      exact h.recordedAccepted hT ‹_› result
    · obtain rfl := Option.some.inj hs
      exact h.recordedOverloaded hT ‹_› result
    · cases hs
  | rolledBack t threw =>
    obtain ⟨T, hT, hs⟩ := Option.bind_eq_some_iff.mp hs
    split at hs
    · rename_i hpoint
      obtain rfl := Option.some.inj hs
      exact h.release hT (by rw [hpoint]; nofun)
    · cases hs
  | sent t result =>
    obtain ⟨T, hT, hs⟩ := Option.bind_eq_some_iff.mp hs
    split at hs
    · obtain rfl := Option.some.inj hs
      exact h.acked hT ‹_› result
    · rename_i hpoint
      obtain rfl := Option.some.inj hs
      exact h.release hT (by rw [hpoint]; nofun)
    · cases hs
  | returned t threw =>
    obtain ⟨T, hT, hs⟩ := Option.bind_eq_some_iff.mp hs
    split at hs
    · rename_i hpoint
      obtain rfl := Option.some.inj hs
      exact h.release hT (by rw [hpoint]; nofun)
    · cases hs

end Webchannel.Overflow
