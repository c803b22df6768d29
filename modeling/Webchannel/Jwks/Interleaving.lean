import Webchannel.Jwks.Cache

/-!
# Interleavings of the key-set cache

What one step can do to a call, to a load and to the cache; then what holds in every run.
-/

namespace Webchannel.Jwks

namespace JWKSCache

variable {s t : JWKSCache} {i op ttlMs : Nat}

/-! ## Functions -/

theorem setOperation_self (s : JWKSCache) (op : Nat) (operation : Operation) :
    (s.setOperation op operation).operations op = operation := Function.update_self _ _ _

theorem setOperation_of_ne {op' : Nat} (h : op' ≠ op) (operation : Operation) :
    (s.setOperation op operation).operations op' = s.operations op' := Function.update_of_ne h _ _

/-- What the promise of a load is, whoever waits for it. -/
structure SameLoads (s t : JWKSCache) : Prop where
  cache : t.cache = s.cache
  inflight : t.inflightRefetch = s.inflightRefetch
  opened : t.opened = s.opened
  promise : ∀ op, (t.operations op).promise = (s.operations op).promise
  aborted : ∀ op, (t.operations op).aborted = (s.operations op).aborted
  subscribers : ∀ op, (s.operations op).subscribers ≤ (t.operations op).subscribers

theorem SameLoads.refl (s : JWKSCache) : SameLoads s s := ⟨rfl, rfl, rfl, fun _ => rfl, fun _ => rfl, fun _ => le_rfl⟩

theorem SameLoads.trans {s t u : JWKSCache} (h : SameLoads s t) (h' : SameLoads t u) : SameLoads s u where
  cache := h'.cache.trans h.cache
  inflight := h'.inflight.trans h.inflight
  opened := h'.opened.trans h.opened
  promise op := (h'.promise op).trans (h.promise op)
  aborted op := (h'.aborted op).trans (h.aborted op)
  subscribers op := (h.subscribers op).trans (h'.subscribers op)

theorem setOperation_sameLoads {operation : Operation} (hp : operation.promise = (s.operations op).promise)
    (ha : operation.aborted = (s.operations op).aborted) (hn : (s.operations op).subscribers ≤ operation.subscribers) :
    SameLoads s (s.setOperation op operation) := by
  refine ⟨rfl, rfl, rfl, fun op' => ?_, fun op' => ?_, fun op' => ?_⟩
  · by_cases h : op' = op
    · subst h
      rw [setOperation_self, hp]
    · rw [setOperation_of_ne h]
  · by_cases h : op' = op
    · subst h
      rw [setOperation_self, ha]
    · rw [setOperation_of_ne h]
  · by_cases h : op' = op
    · subst h
      rw [setOperation_self]
      exact hn
    · rw [setOperation_of_ne h]

theorem react_sameLoads (s : JWKSCache) (op : Nat) (job : Job) : SameLoads s (s.react op job) := by
  unfold react
  split
  · exact ⟨rfl, rfl, rfl, fun _ => rfl, fun _ => rfl, fun _ => le_rfl⟩
  · exact setOperation_sameLoads rfl rfl le_rfl

theorem react_calls (s : JWKSCache) (op : Nat) (job : Job) : (s.react op job).calls = s.calls := by
  unfold react
  split <;> rfl

theorem setPhase_sameLoads (s : JWKSCache) (i : Nat) (phase : Phase) : SameLoads s (s.setPhase i phase) :=
  ⟨rfl, rfl, rfl, fun _ => rfl, fun _ => rfl, fun _ => le_rfl⟩

theorem enqueue_sameLoads (s : JWKSCache) (job : Job) : SameLoads s (s.enqueue job) :=
  ⟨rfl, rfl, rfl, fun _ => rfl, fun _ => rfl, fun _ => le_rfl⟩

theorem subscribe_sameLoads (s : JWKSCache) (op : Nat) : SameLoads s (s.subscribe op) :=
  setOperation_sameLoads rfl rfl (Nat.le_succ _)

theorem subscribe_pos (s : JWKSCache) (op : Nat) : 0 < ((s.subscribe op).operations op).subscribers := by
  unfold subscribe
  rw [setOperation_self]
  exact Nat.succ_pos _

/-- Waiting for a load changes the phase of the call alone. -/
theorem raceAbort_spec (s : JWKSCache) (i op : Nat) :
    SameLoads s (s.raceAbort i op) ∧
      ∃ raced, (raced = none ∨ raced = some (.error .abort)) ∧
        (s.raceAbort i op).calls = Function.update s.calls i { s.calls i with phase := .loading op raced } := by
  unfold raceAbort
  split
  · refine ⟨(setPhase_sameLoads s i _).trans (react_sameLoads _ _ _), none, .inl rfl, ?_⟩
    rw [react_calls]
    rfl
  · split
    · exact ⟨(setPhase_sameLoads s i _).trans (enqueue_sameLoads _ _), _, .inr rfl, rfl⟩
    · have hlisten : SameLoads s ({ s with listeners := s.listeners ++ [i] }.setPhase i (.loading op none)) :=
        ⟨rfl, rfl, rfl, fun _ => rfl, fun _ => rfl, fun _ => le_rfl⟩
      refine ⟨hlisten.trans (react_sameLoads _ _ _), none, .inl rfl, ?_⟩
      rw [react_calls]
      rfl

/-- A load that nobody has opened has no promise yet. -/
def Unopened (s : JWKSCache) : Prop := ∀ op, s.opened ≤ op → (s.operations op).promise = none

/-- The load that a call joins: the one in flight, or a new one. -/
structure Joins (s t : JWKSCache) (op : Nat) : Prop where
  which : s.inflightRefetch = some op ∨ s.inflightRefetch = none ∧ op = s.opened
  inflight : t.inflightRefetch = some op
  joined : 0 < (t.operations op).subscribers
  cache : t.cache = s.cache
  promise : ∀ op', (t.operations op').promise = (s.operations op').promise
  aborted : ∀ op', op' < s.opened → (t.operations op').aborted = (s.operations op').aborted
  opened : s.opened ≤ t.opened ∧ (s.inflightRefetch = none → t.opened = s.opened + 1) ∧
    (s.inflightRefetch ≠ none → t.opened = s.opened)

theorem loadFresh_spec (hnew : s.Unopened) (i : Nat) :
    ∃ op raced, Joins s (s.loadFresh i) op ∧ (raced = none ∨ raced = some (.error .abort)) ∧
      (s.loadFresh i).calls = Function.update s.calls i { s.calls i with phase := .loading op raced } := by
  unfold loadFresh
  cases hflight : s.inflightRefetch with
  | some op =>
    obtain ⟨hsame, raced, hraced, hcalls⟩ := raceAbort_spec (s.subscribe op) i op
    have hpos := (subscribe_pos s op).trans_le (hsame.subscribers op)
    have hsame := (subscribe_sameLoads s op).trans hsame
    refine ⟨op, raced, ⟨.inl hflight, hsame.inflight.trans hflight, hpos, hsame.cache, hsame.promise, fun op' _ => hsame.aborted op',
      hsame.opened.ge, fun h => ?_, fun _ => hsame.opened⟩, hraced, hcalls⟩
    rw [hflight] at h
    cases h
  | none =>
    obtain ⟨hsame, raced, hraced, hcalls⟩ := raceAbort_spec (s.openOperation.subscribe s.opened) i s.opened
    have hpos := (subscribe_pos s.openOperation s.opened).trans_le (hsame.subscribers s.opened)
    have hsame := (subscribe_sameLoads s.openOperation s.opened).trans hsame
    have hother : ∀ op', op' ≠ s.opened → s.openOperation.operations op' = s.operations op' := fun op' h =>
      Function.update_of_ne h _ _
    refine ⟨s.opened, raced, ⟨.inr ⟨hflight, rfl⟩, hsame.inflight, hpos, hsame.cache, fun op' => ?_, fun op' hlt => ?_, ?_, ?_, ?_⟩,
      hraced, hcalls⟩
    · rw [hsame.promise]
      by_cases h : op' = s.opened
      · subst h
        exact (congrArg Operation.promise (Function.update_self _ _ _)).trans (hnew _ le_rfl).symm
      · rw [hother op' h]
    · rw [hsame.aborted, hother op' (Nat.ne_of_lt hlt)]
    · exact (Nat.le_succ _).trans hsame.opened.ge
    · exact fun _ => hsame.opened
    · exact fun h => absurd hflight h

/-- Leaving a load changes no promise; a load that loses its last call is aborted and no longer in flight. -/
theorem unsubscribe_spec (s : JWKSCache) (op : Nat) :
    (s.unsubscribe op).calls = s.calls ∧ (s.unsubscribe op).cache = s.cache ∧ (s.unsubscribe op).opened = s.opened ∧
      (∀ op', ((s.unsubscribe op).operations op').promise = (s.operations op').promise) ∧
      (∀ op', op' ≠ op → ((s.unsubscribe op).operations op').aborted = (s.operations op').aborted ∧
        ((s.unsubscribe op).operations op').subscribers = (s.operations op').subscribers) ∧
      ((s.unsubscribe op).inflightRefetch = s.inflightRefetch ∧
          ((s.unsubscribe op).operations op).aborted = (s.operations op).aborted ∧
          0 < ((s.unsubscribe op).operations op).subscribers ∨
        ((s.unsubscribe op).operations op).aborted = true ∧
          (s.unsubscribe op).inflightRefetch = if s.inflightRefetch = some op then none else s.inflightRefetch) := by
  unfold unsubscribe
  split
  · refine ⟨rfl, rfl, rfl, fun op' => ?_, fun op' h => ?_, .inr ⟨?_, rfl⟩⟩
    · by_cases h : op' = op
      · subst h
        have hself := setOperation_self s op' { s.operations op' with subscribers := 0, aborted := true }
        exact (congrArg Operation.promise hself :)
      · exact congrArg Operation.promise (setOperation_of_ne h _)
    · exact ⟨congrArg Operation.aborted (setOperation_of_ne h _), congrArg Operation.subscribers (setOperation_of_ne h _)⟩
    · exact congrArg Operation.aborted (setOperation_self s op _)
  · rename_i hcount
    refine ⟨rfl, rfl, rfl, fun op' => ?_, fun op' h => ?_, .inl ⟨rfl, ?_, ?_⟩⟩
    · by_cases h : op' = op
      · subst h
        rw [setOperation_self]
      · rw [setOperation_of_ne h]
    · rw [setOperation_of_ne h]
      exact ⟨rfl, rfl⟩
    · rw [setOperation_self]
    · rw [setOperation_self]
      exact Nat.pos_of_ne_zero hcount

end JWKSCache

/-! ## Calls -/

def Outcome.keySet? : Outcome → Option KeySet
  | .key _ doc => some doc
  | .keySet doc => some doc
  | .notFound doc => some doc
  | .failed _ => none
  | .invalidKid => none

/-- The set that a call holds. -/
def Phase.keySet? : Phase → Option KeySet
  | .reading cached => cached
  | .loading _ (some (.ok doc)) => some doc
  | .loading _ _ => none
  | .loaded (.ok doc) => some doc
  | .loaded (.error _) => none
  | .done outcome => outcome.keySet?

namespace JWKSCache

variable {s t : JWKSCache} {i op ttlMs : Nat} {resumed : Option Nat}

/-- The call goes to `loadFresh` when it is resumed. -/
def wantsLoad (s : JWKSCache) (i : Nat) : Bool :=
  match (s.calls i).request, (s.calls i).phase with
  | .getKey kid, .reading (some doc) => (findKey doc kid).isNone && (s.calls i).missed.isNone
  | .getKey _, .reading none => true
  | .warm signal, .reading none => !s.isAborted signal
  | .getKey kid, .loaded (.ok doc) => (findKey doc kid).isNone && (s.calls i).missed.isNone
  | _, _ => false

/-- What the call `i` can be after one step from `s` that resumes the call `resumed`. -/
inductive Progress (ttlMs : Nat) (resumed : Option Nat) (s : JWKSCache) (i : Nat) : Call → Prop
  | same : Progress ttlMs resumed s i (s.calls i)
  | started (request : Request) (phase : Phase) (hi : i = s.called)
      (hphase : phase = .reading (s.maybeLoadFromCache ttlMs) ∨ ∃ outcome, phase = .done outcome ∧ outcome.keySet? = none) :
      Progress ttlMs resumed s i { request, startedAtMs := s.now, step := s.steps, phase }
  | joined (missed : Option (KeySet × Nat)) (op : Nat) (raced : Option Settled) (hresumed : resumed = some i)
      (hwants : s.wantsLoad i = true)
      (hop : s.inflightRefetch = some op ∨ s.inflightRefetch = none ∧ op = s.opened)
      (hraced : raced = none ∨ raced = some (.error .abort))
      (hmissed : missed = (s.calls i).missed ∨ ∃ kid doc, (s.calls i).request = .getKey kid ∧
        (s.calls i).phase.keySet? = some doc ∧ findKey doc kid = none ∧ missed = some (doc, s.steps)) :
      Progress ttlMs resumed s i { s.calls i with missed, phase := .loading op raced }
  | raced (op : Nat) (result : Settled) (h : (s.calls i).phase = .loading op none)
      (hresult : result = .error .abort ∨ (s.operations op).promise = some result) :
      Progress ttlMs resumed s i { s.calls i with phase := .loading op (some result) }
  | loaded (op : Nat) (raced : Option Settled) (result : Settled) (h : (s.calls i).phase = .loading op raced)
      (hresult : (s.operations op).promise = some result ∨ raced = some result) :
      Progress ttlMs resumed s i { s.calls i with phase := .loaded result }
  | finished (outcome : Outcome) (hkeys : ∀ doc, outcome.keySet? = some doc → (s.calls i).phase.keySet? = some doc)
      (hfound : ∀ doc, outcome = .notFound doc →
        ∃ kid, (s.calls i).request = .getKey kid ∧ findKey doc kid = none ∧ (s.calls i).missed ≠ none) :
      Progress ttlMs resumed s i { s.calls i with phase := .done outcome }

theorem Progress.of_jobs {jobs : List Job} {call : Call} (h : Progress ttlMs resumed { s with jobs } i call) :
    Progress ttlMs resumed s i call := by
  cases h with
  | same => exact .same
  | started request phase hi hphase => exact .started request phase hi hphase
  | joined missed op raced hresumed hwants hop hraced hmissed =>
    exact .joined missed op raced hresumed hwants hop hraced hmissed
  | raced op result h hresult => exact .raced op result h hresult
  | loaded op raced result h hresult => exact .loaded op raced result h hresult
  | finished outcome hkeys hfound => exact .finished outcome hkeys hfound

theorem progress_update {call : Call} (h : Progress ttlMs resumed s i call) (ht : t.calls = Function.update s.calls i call) (j : Nat) :
    Progress ttlMs resumed s j (t.calls j) := by
  rw [ht]
  by_cases hj : j = i
  · subst hj
    rw [Function.update_self]
    exact h
  · rw [Function.update_of_ne hj]
    exact .same

theorem progress_same (ht : t.calls = s.calls) (j : Nat) : Progress ttlMs resumed s j (t.calls j) := by
  rw [ht]
  exact .same

theorem examine_progress (hnew : s.Unopened) {kid : JsString} {doc : KeySet} (hrequest : (s.calls i).request = .getKey kid)
    (hphase : (s.calls i).phase = .reading (some doc) ∨ (s.calls i).phase = .loaded (.ok doc)) (j : Nat) :
    Progress ttlMs (some i) s j ((s.examine i kid doc).calls j) := by
  have hkeys : (s.calls i).phase.keySet? = some doc := by
    obtain h | h := hphase <;> rw [h] <;> rfl
  unfold examine
  split
  · refine progress_update (.finished _ (fun d h => ?_) (fun d h => ?_)) rfl j
    · rw [hkeys]
      exact h
    · cases h
  · rename_i hfind hmissed
    refine progress_update (.finished _ (fun d h => ?_) (fun d h => ?_)) rfl j
    · rw [hkeys]
      exact h
    · cases h
      exact ⟨kid, hrequest, hfind, by rw [hmissed]; exact fun h => by cases h⟩
  · rename_i hfind hmissed
    obtain ⟨op, raced, hjoins, hraced, hcalls⟩ :=
      loadFresh_spec (s := { s with cache := none }.setCall i { s.calls i with missed := some (doc, s.steps) }) hnew i
    have hself : ({ s with cache := none }.setCall i { s.calls i with missed := some (doc, s.steps) }).calls i =
        { s.calls i with missed := some (doc, s.steps) } := Function.update_self _ _ _
    have hcalls' : (({ s with cache := none }.setCall i { s.calls i with missed := some (doc, s.steps) }).loadFresh i).calls =
        Function.update s.calls i { s.calls i with missed := some (doc, s.steps), phase := .loading op raced } := by
      rw [hcalls, hself]
      exact Function.update_idem _ _ _
    have hwants : s.wantsLoad i = true := by
      unfold wantsLoad
      obtain h | h := hphase <;> rw [hrequest, h] <;> dsimp only <;> rw [hfind, hmissed] <;> rfl
    exact progress_update
      (.joined _ op raced rfl hwants hjoins.which hraced (.inr ⟨kid, doc, hrequest, hkeys, hfind, rfl⟩)) hcalls' j

theorem loadFresh_progress (hnew : s.Unopened) (hwants : s.wantsLoad i = true) (j : Nat) :
    Progress ttlMs (some i) s j ((s.loadFresh i).calls j) := by
  obtain ⟨op, raced, hjoins, hraced, hcalls⟩ := loadFresh_spec hnew i
  exact progress_update (.joined _ op raced rfl hwants hjoins.which hraced (.inl rfl)) hcalls j

theorem resume_progress (hnew : s.Unopened) (i j : Nat) : Progress ttlMs (some i) s j ((s.resume i).calls j) := by
  unfold resume
  split
  · rename_i kid doc hrequest hphase
    exact examine_progress hnew hrequest (.inl hphase) j
  · rename_i kid hrequest hphase
    refine loadFresh_progress hnew ?_ j
    unfold wantsLoad
    rw [hrequest, hphase]
  · rename_i signal cached hrequest hphase
    split
    · exact progress_update (.finished _ (fun d h => by cases h) (fun d h => by cases h)) rfl j
    · rename_i haborted
      split
      · refine progress_update (.finished _ (fun d h => ?_) (fun d h => by cases h)) rfl j
        rw [hphase]
        exact h
      · refine loadFresh_progress hnew ?_ j
        unfold wantsLoad
        rw [hrequest, hphase]
        dsimp only
        rw [Bool.eq_false_iff.mpr haborted]
        rfl
  · rename_i op raced hphase
    split
    · rename_i result hresult
      have hcalls : (((s.unsubscribe op).setPhase i (.loaded result)).enqueue (.resume i)).calls =
          Function.update s.calls i { s.calls i with phase := .loaded result } := by
        obtain ⟨hsame, -⟩ := unsubscribe_spec s op
        unfold enqueue setPhase setCall
        dsimp only
        rw [hsame]
      refine progress_update (.loaded op raced result hphase ?_) hcalls j
      split_ifs at hresult
      · exact .inl hresult
      · exact .inr hresult
    · exact .same
  · exact progress_update (.finished _ (fun d h => by cases h) (fun d h => by cases h)) rfl j
  · rename_i kid doc hrequest hphase
    exact examine_progress hnew hrequest (.inr hphase) j
  · rename_i hphase
    refine progress_update (.finished _ (fun d h => ?_) (fun d h => by cases h)) rfl j
    rw [hphase]
    exact h
  · exact .same

theorem relay_progress (i j : Nat) : Progress ttlMs resumed s j ((s.relay i).calls j) := by
  unfold relay
  split
  · rename_i op hphase
    cases hpromise : (s.operations op).promise with
    | none =>
      have hcalls : Function.update s.calls i { s.calls i with phase := .loading op none } = s.calls := by
        rw [← hphase]
        exact Function.update_eq_self _ _
      exact progress_same hcalls j
    | some result => exact progress_update (.raced op result hphase (.inr hpromise)) rfl j
  · exact .same

theorem rejectRace_cases (phase : Phase) :
    phase.rejectRace = phase ∨ ∃ op, phase = .loading op none ∧ phase.rejectRace = .loading op (some (.error .abort)) := by
  unfold Phase.rejectRace
  split
  · rename_i op
    exact .inr ⟨op, rfl, rfl⟩
  · exact .inl rfl

theorem abort_progress (signal j : Nat) : Progress ttlMs resumed s j ((s.abort signal).calls j) := by
  unfold abort
  dsimp only
  split
  · obtain h | ⟨op, hphase, h⟩ := rejectRace_cases (s.calls j).phase
    · rw [h]
      exact .same
    · rw [h]
      exact .raced op _ hphase (.inl rfl)
  · exact .same

theorem start_progress (request : Request) (j : Nat) : Progress ttlMs resumed s j ((s.start ttlMs request).calls j) := by
  unfold start
  dsimp only
  split
  · exact progress_update (.started _ _ rfl (.inr ⟨_, rfl, rfl⟩)) rfl j
  · split
    · exact progress_update (.started _ _ rfl (.inr ⟨_, rfl, rfl⟩)) rfl j
    · exact progress_update (.started _ _ rfl (.inl rfl)) rfl j

theorem settle_calls (s : JWKSCache) (op : Nat) (loaded : Option (List (Json JsonNumber))) :
    (s.settle op loaded).calls = s.calls := by
  cases loaded <;> rfl

theorem runJob_progress (hnew : s.Unopened) {jobs : List Job} {job : Job} (hjobs : s.jobs = job :: jobs) (j : Nat) :
    Progress ttlMs (s.resumed .job) s j (({ s with jobs }.runJob job).calls j) := by
  apply @Progress.of_jobs s j ttlMs _ jobs
  cases job with
  | onFinally op =>
    refine progress_same ?_ j
    dsimp only [runJob]
    split <;> rfl
  | relay i => exact relay_progress i j
  | resume i =>
    have hresumed : s.resumed .job = some i := by
      unfold JWKSCache.resumed
      rw [hjobs]
    rw [hresumed]
    exact resume_progress (s := { s with jobs }) hnew i j

/-- The calls after a step. -/
theorem step_progress (hnew : s.Unopened) {a : Action} (h : step ttlMs s a = some t) (j : Nat) :
    Progress ttlMs (s.resumed a) s j (t.calls j) := by
  unfold step at h
  dsimp only at h
  split at h
  · cases h
    exact start_progress _ j
  · cases h
    exact abort_progress _ j
  · split at h
    · cases h
      exact progress_same (settle_calls _ _ _) j
    · cases h
  · cases h
    exact .same
  · split at h
    · rename_i hjobs
      cases h
      exact runJob_progress hnew hjobs j
    · cases h

/-! ## Loads -/

/-- A load that starts, ends or is left. -/
structure Flight (s : JWKSCache) : Prop where
  unopened : s.Unopened
  bound : ∀ op, s.inflightRefetch = some op → op < s.opened
  joined : ∀ op, s.inflightRefetch = some op → 0 < (s.operations op).subscribers
  /-- A load that has neither settled nor been aborted is the one in flight. -/
  single : ∀ op, op < s.opened → (s.operations op).promise = none → (s.operations op).aborted = false →
    s.inflightRefetch = some op

theorem SameLoads.flight (h : SameLoads s t) (hs : Flight s) : Flight t where
  unopened op hop := (h.promise op).trans (hs.unopened op (by rw [← h.opened]; exact hop))
  bound op hop := by
    rw [h.inflight] at hop
    rw [h.opened]
    exact hs.bound op hop
  joined op hop := (hs.joined op (by rw [← h.inflight]; exact hop)).trans_le (h.subscribers op)
  single op hop hpromise haborted := by
    rw [h.opened] at hop
    rw [h.promise] at hpromise
    rw [h.aborted] at haborted
    rw [h.inflight]
    exact hs.single op hop hpromise haborted

theorem Joins.flight (h : Joins s t op) (hs : Flight s) : Flight t := by
  have hlt : op < t.opened := by
    obtain hin | ⟨hnone, rfl⟩ := h.which
    · exact (hs.bound op hin).trans_le h.opened.1
    · rw [h.opened.2.1 hnone]
      exact Nat.lt_succ_self _
  refine ⟨fun op' hop' => ?_, fun op' hop' => ?_, fun op' hop' => ?_, fun op' hop' hpromise haborted => ?_⟩
  · rw [h.promise]
    exact hs.unopened op' (h.opened.1.trans hop')
  · rw [h.inflight] at hop'
    cases hop'
    exact hlt
  · rw [h.inflight] at hop'
    cases hop'
    exact h.joined
  · rw [h.inflight]
    rw [h.promise] at hpromise
    by_cases hold : op' < s.opened
    · rw [h.aborted op' hold] at haborted
      obtain hin | ⟨hnone, rfl⟩ := h.which
      · exact hin.symm.trans (hs.single op' hold hpromise haborted)
      · have hin := hs.single op' hold hpromise haborted
        rw [hnone] at hin
        cases hin
    · obtain hin | ⟨hnone, rfl⟩ := h.which
      · rw [h.opened.2.2 (by rw [hin]; exact fun h => by cases h)] at hop'
        exact absurd hop' hold
      · rw [h.opened.2.1 hnone] at hop'
        rw [Nat.le_antisymm (Nat.lt_succ_iff.mp hop') (Nat.not_lt.mp hold)]

theorem unsubscribe_flight (hs : Flight s) (op : Nat) : Flight (s.unsubscribe op) := by
  obtain ⟨-, -, hopened, hpromise, hother, hcase⟩ := unsubscribe_spec s op
  refine ⟨fun op' hop' => ?_, fun op' hop' => ?_, fun op' hop' => ?_, fun op' hop' hp ha => ?_⟩
  · rw [hpromise]
    exact hs.unopened op' (by rw [← hopened]; exact hop')
  · rw [hopened]
    obtain ⟨hin, -⟩ | ⟨-, hin⟩ := hcase
    · exact hs.bound op' (hin.symm.trans hop')
    · rw [hin] at hop'
      split_ifs at hop'
      exact hs.bound op' hop'
  · obtain ⟨hin, -, hpos⟩ | ⟨-, hin⟩ := hcase
    · by_cases heq : op' = op
      · rw [heq]
        exact hpos
      · rw [(hother op' heq).2]
        exact hs.joined op' (hin.symm.trans hop')
    · rw [hin] at hop'
      split_ifs at hop' with hcur
      have heq : op' ≠ op := fun heq => hcur (heq ▸ hop')
      rw [(hother op' heq).2]
      exact hs.joined op' hop'
  · rw [hopened] at hop'
    rw [hpromise] at hp
    by_cases heq : op' = op
    · subst heq
      obtain ⟨hin, hsame, -⟩ | ⟨habort, -⟩ := hcase
      · rw [hsame] at ha
        exact hin.trans (hs.single op' hop' hp ha)
      · rw [habort] at ha
        cases ha
    · rw [(hother op' heq).1] at ha
      have hsingle := hs.single op' hop' hp ha
      obtain ⟨hin, -⟩ | ⟨-, hin⟩ := hcase
      · exact hin.trans hsingle
      · rw [hin, if_neg ?_, hsingle]
        rw [hsingle]
        exact fun h => heq (Option.some.inj h)

/-- What one step does to the loads and the cache. -/
structure LoadStep (s t : JWKSCache) : Prop where
  flight : Flight t
  steps : t.steps = s.steps + 1
  promise : ∀ op, (t.operations op).promise = (s.operations op).promise ∨
    (s.operations op).promise = none ∧ op < s.opened ∧
      ((∃ keys, (t.operations op).promise = some (.ok { keys, load := op, loadedAtMs := s.now, step := s.steps })) ∨
        (t.operations op).promise = some (.error (.load s.steps (s.operations op).aborted)) ∧
          ((s.operations op).aborted = false → t.cache = none ∧ t.inflightRefetch = some op))
  cache : t.cache = s.cache ∨ t.cache = none ∨
    ∃ doc op, t.cache = some (doc, doc.loadedAtMs) ∧ (s.operations op).promise = none ∧ (t.operations op).promise = some (.ok doc)
  inflight : t.inflightRefetch = s.inflightRefetch ∨ t.inflightRefetch = none ∨
    s.inflightRefetch = none ∧ t.inflightRefetch = some s.opened

/-- A step that settles no load. -/
structure Quiet (s t : JWKSCache) : Prop where
  flight : Flight t
  promise : ∀ op, (t.operations op).promise = (s.operations op).promise
  cache : t.cache = s.cache ∨ t.cache = none
  inflight : t.inflightRefetch = s.inflightRefetch ∨ t.inflightRefetch = none ∨
    s.inflightRefetch = none ∧ t.inflightRefetch = some s.opened

theorem SameLoads.quiet (h : SameLoads s t) (hs : Flight s) : Quiet s t :=
  ⟨h.flight hs, h.promise, .inl h.cache, .inl h.inflight⟩

theorem Joins.quiet (h : Joins s t op) (hs : Flight s) : Quiet s t := by
  refine ⟨h.flight hs, h.promise, .inl h.cache, ?_⟩
  obtain hin | ⟨hnone, rfl⟩ := h.which
  · exact .inl (h.inflight.trans hin.symm)
  · exact .inr (.inr ⟨hnone, h.inflight⟩)

theorem Quiet.loadStep (h : Quiet s t) : LoadStep s { t with steps := s.steps + 1 } where
  flight := ⟨h.flight.unopened, h.flight.bound, h.flight.joined, h.flight.single⟩
  steps := rfl
  promise op := .inl (h.promise op)
  cache := h.cache.imp_right .inl
  inflight := h.inflight

theorem examine_quiet (hs : Flight s) (i : Nat) (kid : JsString) (doc : KeySet) : Quiet s (s.examine i kid doc) := by
  unfold examine
  split
  · exact (setPhase_sameLoads s i _).quiet hs
  · exact (setPhase_sameLoads s i _).quiet hs
  · obtain ⟨op, raced, hjoins, -, -⟩ :=
      loadFresh_spec (s := { s with cache := none }.setCall i { s.calls i with missed := some (doc, s.steps) }) hs.unopened i
    have hquiet := hjoins.quiet ⟨hs.unopened, hs.bound, hs.joined, hs.single⟩
    exact ⟨hquiet.flight, hquiet.promise, hquiet.cache.elim (fun h => .inr h) .inr, hquiet.inflight⟩

theorem loadFresh_quiet (hs : Flight s) (i : Nat) : Quiet s (s.loadFresh i) := by
  obtain ⟨op, raced, hjoins, -, -⟩ := loadFresh_spec hs.unopened i
  exact hjoins.quiet hs

theorem unsubscribe_quiet (hs : Flight s) (op : Nat) : Quiet s (s.unsubscribe op) := by
  obtain ⟨-, hcache, -, hpromise, -, hcase⟩ := unsubscribe_spec s op
  refine ⟨unsubscribe_flight hs op, hpromise, .inl hcache, ?_⟩
  obtain ⟨hin, -⟩ | ⟨-, hin⟩ := hcase
  · exact .inl hin
  · rw [hin]
    split_ifs
    · exact .inr (.inl rfl)
    · exact .inl rfl

theorem resume_quiet (hs : Flight s) (i : Nat) : Quiet s (s.resume i) := by
  unfold resume
  split
  · exact examine_quiet hs i _ _
  · exact loadFresh_quiet hs i
  · split
    · exact (setPhase_sameLoads s i _).quiet hs
    · split
      · exact (setPhase_sameLoads s i _).quiet hs
      · exact loadFresh_quiet hs i
  · rename_i op raced hphase
    split
    · have hleft := unsubscribe_quiet hs op
      exact ⟨⟨hleft.flight.unopened, hleft.flight.bound, hleft.flight.joined, hleft.flight.single⟩, hleft.promise, hleft.cache, hleft.inflight⟩
    · exact (SameLoads.refl s).quiet hs
  · exact (setPhase_sameLoads s i _).quiet hs
  · exact examine_quiet hs i _ _
  · exact (setPhase_sameLoads s i _).quiet hs
  · exact (SameLoads.refl s).quiet hs

theorem runJob_quiet (hs : Flight s) (job : Job) : Quiet s (s.runJob job) := by
  cases job with
  | onFinally op =>
    dsimp only [runJob]
    split
    · rename_i hcond
      -- while a load is in flight some call has joined it
      exact absurd hcond.2 (Nat.pos_iff_ne_zero.mp (hs.joined op hcond.1))
    · exact (SameLoads.refl s).quiet hs
  | relay i =>
    dsimp only [runJob]
    unfold relay
    split
    · exact ⟨⟨hs.unopened, hs.bound, hs.joined, hs.single⟩, fun _ => rfl, .inl rfl, .inl rfl⟩
    · exact (SameLoads.refl s).quiet hs
  | resume i => exact resume_quiet hs i

theorem settle_operations (s : JWKSCache) (op : Nat) (loaded : Option (List (Json JsonNumber))) (op' : Nat) :
    ((s.settle op loaded).operations op').aborted = (s.operations op').aborted ∧
      ((s.settle op loaded).operations op').subscribers = (s.operations op').subscribers ∧
      (op' ≠ op → ((s.settle op loaded).operations op').promise = (s.operations op').promise) := by
  by_cases h : op' = op
  · subst h
    cases loaded <;> unfold settle <;> dsimp only <;> rw [setOperation_self] <;>
      exact ⟨rfl, rfl, fun h => absurd rfl h⟩
  · cases loaded <;> unfold settle <;> dsimp only <;> rw [setOperation_of_ne h] <;> exact ⟨rfl, rfl, fun _ => rfl⟩

theorem settle_promise (s : JWKSCache) (op : Nat) (loaded : Option (List (Json JsonNumber))) :
    ((s.settle op loaded).operations op).promise =
      match loaded with
      | some keys => some (.ok { keys, load := op, loadedAtMs := s.now, step := s.steps })
      | none => some (.error (.load s.steps (s.operations op).aborted)) := by
  cases loaded <;> unfold settle <;> dsimp only <;> rw [setOperation_self]

theorem settle_loadStep (hs : Flight s) (hop : op < s.opened) (hpending : (s.operations op).promise = none)
    (loaded : Option (List (Json JsonNumber))) : LoadStep s { s.settle op loaded with steps := s.steps + 1 } := by
  have hflight : (s.settle op loaded).inflightRefetch = s.inflightRefetch := by cases loaded <;> rfl
  have hopened : (s.settle op loaded).opened = s.opened := by cases loaded <;> rfl
  refine ⟨⟨fun op' h => ?_, fun op' h => ?_, fun op' h => ?_, fun op' h hp ha => ?_⟩, rfl, fun op' => ?_, ?_, .inl hflight⟩
  · have hle : s.opened ≤ op' := hopened ▸ h
    exact ((settle_operations s op loaded op').2.2 (Nat.ne_of_gt (hop.trans_le hle))).trans (hs.unopened op' hle)
  · exact hopened ▸ hs.bound op' (hflight.symm.trans h)
  · exact (hs.joined op' (hflight.symm.trans h)).trans_eq (settle_operations s op loaded op').2.1.symm
  · have ha' : (s.operations op').aborted = false := (settle_operations s op loaded op').1.symm.trans ha
    have hne : op' ≠ op := by
      rintro rfl
      have hset := settle_promise s op' loaded
      rw [show ((s.settle op' loaded).operations op').promise = none from hp] at hset
      cases loaded <;> cases hset
    have hp' : (s.operations op').promise = none := ((settle_operations s op loaded op').2.2 hne).symm.trans hp
    exact hflight.trans (hs.single op' (hopened ▸ h) hp' ha')
  · by_cases hne : op' = op
    · subst hne
      refine .inr ⟨hpending, hop, ?_⟩
      cases loaded with
      | some keys => exact .inl ⟨keys, settle_promise s op' (some keys)⟩
      | none =>
        refine .inr ⟨settle_promise s op' none, fun ha => ?_⟩
        have hin := hs.single op' hop hpending ha
        exact ⟨if_pos hin, hflight.trans hin⟩
    · exact .inl ((settle_operations s op loaded op').2.2 hne)
  · cases loaded with
    | some keys =>
      by_cases hcur : (s.operations op).aborted = false ∧ s.inflightRefetch = some op
      · exact .inr (.inr ⟨_, op, if_pos hcur, hpending, settle_promise s op (some keys)⟩)
      · exact .inl (if_neg hcur)
    | none =>
      by_cases hcur : s.inflightRefetch = some op
      · exact .inr (.inl (if_pos hcur))
      · exact .inl (if_neg hcur)

theorem start_sameLoads (s : JWKSCache) (request : Request) : SameLoads s (s.start ttlMs request) := by
  unfold start
  dsimp only
  split
  · exact ⟨rfl, rfl, rfl, fun _ => rfl, fun _ => rfl, fun _ => le_rfl⟩
  · split <;> exact ⟨rfl, rfl, rfl, fun _ => rfl, fun _ => rfl, fun _ => le_rfl⟩

theorem abort_sameLoads (s : JWKSCache) (signal : Nat) : SameLoads s (s.abort signal) :=
  ⟨rfl, rfl, rfl, fun _ => rfl, fun _ => rfl, fun _ => le_rfl⟩

theorem advance_sameLoads (s : JWKSCache) (ms : Nat) : SameLoads s { s with now := s.now + ms } :=
  ⟨rfl, rfl, rfl, fun _ => rfl, fun _ => rfl, fun _ => le_rfl⟩

/-- The loads and the cache after a step. -/
theorem step_loadStep (hs : Flight s) {a : Action} (h : step ttlMs s a = some t) : LoadStep s t := by
  unfold step at h
  dsimp only at h
  split at h
  · cases h
    exact ((start_sameLoads s _).quiet hs).loadStep
  · cases h
    exact ((abort_sameLoads s _).quiet hs).loadStep
  · split at h
    · rename_i hop hpending
      cases h
      exact settle_loadStep hs (of_decide_eq_true hop) hpending _
    · cases h
  · cases h
    exact ((advance_sameLoads s _).quiet hs).loadStep
  · split at h
    · rename_i job jobs hjobs
      cases h
      have hquiet := runJob_quiet (s := { s with jobs }) ⟨hs.unopened, hs.bound, hs.joined, hs.single⟩ job
      exact Quiet.loadStep ⟨hquiet.flight, hquiet.promise, hquiet.cache, hquiet.inflight⟩
    · cases h

/-! ## Where a set comes from -/

/-- The sets within reach of a call: the one it holds, and the one its load has brought. -/
def Reaches (s : JWKSCache) (i : Nat) (doc : KeySet) : Prop :=
  (s.calls i).phase.keySet? = some doc ∨
    ∃ op raced, (s.calls i).phase = .loading op raced ∧ (s.operations op).promise = some (.ok doc)

/-- A step that settles a load touches no call. -/
theorem step_promises_or_calls (hs : Flight s) {a : Action} (h : step ttlMs s a = some t) :
    (∀ op, (t.operations op).promise = (s.operations op).promise) ∨ t.calls = s.calls := by
  unfold step at h
  dsimp only at h
  split at h
  · cases h
    exact .inl (start_sameLoads s _).promise
  · rename_i signal
    cases h
    exact .inl (abort_sameLoads s signal).promise
  · split at h
    · cases h
      exact .inr (settle_calls s _ _)
    · cases h
  · cases h
    exact .inr rfl
  · split at h
    · rename_i job jobs _
      cases h
      exact .inl (runJob_quiet (s := { s with jobs }) ⟨hs.unopened, hs.bound, hs.joined, hs.single⟩ job).promise
    · cases h

/-- What holds of every set in reach of a call, whatever its phase, holds after a step when it holds of
what the load settles with, of the cache at the start, and of a settled load that is joined. -/
theorem reaches_step {P : Call → KeySet → Prop} (hP : ∀ call phase doc, P call doc → P { call with phase } doc)
    (hs : Flight s) {a : Action} (h : step ttlMs s a = some t) {i : Nat} (hold : ∀ doc, Reaches s i doc → P (s.calls i) doc)
    (hsettled : ∀ op raced doc, (s.calls i).phase = .loading op raced → (s.operations op).promise = none →
      (t.operations op).promise = some (.ok doc) → P (s.calls i) doc)
    (hcache : ∀ doc, s.maybeLoadFromCache ttlMs = some doc → (t.calls i).step = s.steps → (t.calls i).startedAtMs = s.now →
      (t.calls i).missed = none → P (t.calls i) doc)
    (hjoin : ∀ op doc, s.resumed a = some i → s.wantsLoad i = true → s.inflightRefetch = some op → (s.operations op).promise = some (.ok doc) →
      (t.calls i).step = (s.calls i).step → P (t.calls i) doc) :
    ∀ doc, Reaches t i doc → P (t.calls i) doc := by
  intro doc hreach
  obtain hpromise | hcalls := step_promises_or_calls hs h
  · have hprogress := step_progress hs.unopened h i
    unfold Reaches at hreach
    generalize t.calls i = call at hprogress hcache hjoin hreach ⊢
    obtain hkeys | ⟨op, raced, hphase, hdoc⟩ := hreach
    · cases hprogress with
      | same => exact hold doc (.inl hkeys)
      | started request phase hi hphase =>
        obtain rfl | ⟨outcome, rfl, hnone⟩ := hphase
        · exact hcache doc hkeys rfl rfl rfl
        · rw [show (Phase.done outcome).keySet? = none from hnone] at hkeys
          cases hkeys
      | joined missed op raced hresumed hwants hop hraced hmissed =>
        obtain rfl | rfl := hraced <;> cases hkeys
      | raced op result h hresult =>
        obtain rfl | hresult := hresult
        · cases hkeys
        · cases result with
          | error e => cases hkeys
          | ok d =>
            cases hkeys
            exact hP _ _ _ (hold doc (.inr ⟨op, none, h, hresult⟩))
      | loaded op raced result h hresult =>
        cases result with
        | error e => cases hkeys
        | ok d =>
          cases hkeys
          obtain hresult | rfl := hresult
          · exact hP _ _ _ (hold doc (.inr ⟨op, raced, h, hresult⟩))
          · exact hP _ _ _ (hold doc (.inl (by rw [h]; rfl)))
      | finished outcome hheld hfound => exact hP _ _ _ (hold doc (.inl (hheld doc hkeys)))
    · rw [hpromise] at hdoc
      cases hprogress with
      | same => exact hold doc (.inr ⟨op, raced, hphase, hdoc⟩)
      | started request phase hi hphase' => obtain rfl | ⟨outcome, rfl, -⟩ := hphase' <;> cases hphase
      | joined missed op' raced' hresumed hwants hop hraced hmissed =>
        cases hphase
        obtain hin | ⟨-, rfl⟩ := hop
        · exact hjoin op doc hresumed hwants hin hdoc rfl
        · rw [hs.unopened _ le_rfl] at hdoc
          cases hdoc
      | raced op' result h hresult =>
        cases hphase
        exact hP _ _ _ (hold doc (.inr ⟨op, none, h, hdoc⟩))
      | loaded op' raced' result h hresult => cases hphase
      | finished outcome hheld hfound => cases hphase
  · unfold Reaches at hreach
    rw [hcalls] at hreach ⊢
    obtain hkeys | ⟨op, raced, hphase, hdoc⟩ := hreach
    · exact hold doc (.inl hkeys)
    · obtain hsame | ⟨hpending, -⟩ := (step_loadStep hs h).promise op
      · exact hold doc (.inr ⟨op, raced, hphase, hsame.symm.trans hdoc⟩)
      · exact hsettled op raced doc hphase hpending hdoc

/-! ## Bookkeeping -/

/-- `doc` is what its load brought. -/
def Brought (s : JWKSCache) (doc : KeySet) : Prop := (s.operations doc.load).promise = some (.ok doc)

/-- A promise that has settled stays as it is. -/
theorem LoadStep.settled (h : LoadStep s t) {op : Nat} {result : Settled} (hop : (s.operations op).promise = some result) :
    (t.operations op).promise = some result := by
  obtain hsame | ⟨hpending, -⟩ := h.promise op
  · exact hsame.trans hop
  · rw [hpending] at hop
    cases hop

/-- What a load settles with names the load and the step. -/
theorem LoadStep.settles (h : LoadStep s t) {op : Nat} {doc : KeySet} (hpending : (s.operations op).promise = none)
    (hop : (t.operations op).promise = some (.ok doc)) : doc.load = op ∧ doc.step = s.steps := by
  obtain hsame | ⟨-, -, ⟨keys, hok⟩ | ⟨herror, -⟩⟩ := h.promise op
  · rw [hsame, hpending] at hop
    cases hop
  · rw [hok] at hop
    cases hop
    exact ⟨rfl, rfl⟩
  · rw [herror] at hop
    cases hop

structure Sources (s : JWKSCache) : Prop where
  flight : Flight s
  loaded : ∀ op doc, (s.operations op).promise = some (.ok doc) → doc.load = op ∧ doc.step < s.steps
  failed : ∀ op m aborted, (s.operations op).promise = some (.error (.load m aborted)) → m < s.steps
  cached : ∀ doc fetchedAtMs, s.cache = some (doc, fetchedAtMs) → Brought s doc ∧ fetchedAtMs = doc.loadedAtMs
  held : ∀ i doc, Reaches s i doc → Brought s doc
  past : ∀ i, (s.calls i).step < s.steps
  missed : ∀ i first m, (s.calls i).missed = some (first, m) → Brought s first ∧ first.step < m ∧ m < s.steps ∧
    ∃ kid, (s.calls i).request = .getKey kid ∧ findKey first kid = none

theorem Sources.initial : Sources {} where
  flight := ⟨fun _ _ => rfl, fun _ h => (by cases h), fun _ h => (by cases h), fun _ h => absurd h (Nat.not_lt_zero _)⟩
  loaded _ _ h := by cases h
  failed _ _ _ h := by cases h
  cached _ _ h := by cases h
  held _ _ h := by
    obtain h | ⟨_, _, h, -⟩ := h <;> cases h
  past _ := Nat.zero_lt_one
  missed _ _ _ h := by cases h

theorem maybeLoadFromCache_cached {doc : KeySet} (h : s.maybeLoadFromCache ttlMs = some doc) :
    ∃ fetchedAtMs, s.cache = some (doc, fetchedAtMs) ∧ s.now - fetchedAtMs < ttlMs := by
  unfold maybeLoadFromCache at h
  split at h
  · rename_i doc' fetchedAtMs hcache
    split_ifs at h with hfresh
    cases h
    exact ⟨fetchedAtMs, hcache, hfresh⟩
  · cases h

theorem Sources.step (hs : Sources s) {a : Action} (h : step ttlMs s a = some t) : Sources t := by
  have hload := step_loadStep hs.flight h
  have hprogress := step_progress hs.flight.unopened h
  have hlt : s.steps < t.steps := by
    rw [hload.steps]
    exact Nat.lt_succ_self _
  refine ⟨hload.flight, ?_, ?_, ?_, ?_, ?_, ?_⟩
  · intro op doc hop
    obtain hsame | ⟨hpending, -⟩ := hload.promise op
    · obtain ⟨hname, hstep⟩ := hs.loaded op doc (hsame.symm.trans hop)
      exact ⟨hname, hstep.trans hlt⟩
    · obtain ⟨hname, hstep⟩ := hload.settles hpending hop
      exact ⟨hname, hstep.trans_lt hlt⟩
  · intro op m aborted hop
    obtain hsame | ⟨-, -, ⟨keys, hok⟩ | ⟨herror, -⟩⟩ := hload.promise op
    · exact (hs.failed op m aborted (hsame.symm.trans hop)).trans hlt
    · rw [hok] at hop
      cases hop
    · rw [herror] at hop
      cases hop
      exact hlt
  · intro doc fetchedAtMs hcache
    obtain hsame | hnone | ⟨doc', op, hnew, hpending, hop⟩ := hload.cache
    · obtain ⟨hbrought, hat⟩ := hs.cached doc fetchedAtMs (hsame.symm.trans hcache)
      exact ⟨hload.settled hbrought, hat⟩
    · rw [hnone] at hcache
      cases hcache
    · rw [hnew] at hcache
      cases hcache
      obtain ⟨rfl, -⟩ := hload.settles hpending hop
      exact ⟨hop, rfl⟩
  · intro i
    refine reaches_step (P := fun _ doc => Brought t doc) (fun _ _ _ h => h) hs.flight h
      (fun doc hreach => hload.settled (hs.held i doc hreach)) ?_ ?_ ?_
    · intro op raced doc _ hpending hop
      obtain ⟨rfl, -⟩ := hload.settles hpending hop
      exact hop
    · intro doc hcache _ _ _
      obtain ⟨fetchedAtMs, hcache, -⟩ := maybeLoadFromCache_cached hcache
      exact hload.settled (hs.cached doc fetchedAtMs hcache).1
    · intro op doc _ _ _ hop _
      obtain ⟨rfl, -⟩ := hs.loaded op doc hop
      exact hload.settled hop
  · intro i
    have hcall := hprogress i
    generalize t.calls i = call at hcall ⊢
    cases hcall with
    | started request phase hi hphase => exact hlt
    | _ => exact (hs.past i).trans hlt
  · intro i first m hmissed
    have hkept : ∀ {call : Call}, call.missed = some (first, m) → call.missed = (s.calls i).missed →
        call.request = (s.calls i).request → Brought t first ∧ first.step < m ∧ m < t.steps ∧
          ∃ kid, call.request = .getKey kid ∧ findKey first kid = none := by
      intro call hmissed hsame hrequest
      obtain ⟨hbrought, hbefore, hstep, hkid⟩ := hs.missed i first m (hsame.symm.trans hmissed)
      rw [hrequest]
      exact ⟨hload.settled hbrought, hbefore, hstep.trans hlt, hkid⟩
    have hcall := hprogress i
    generalize t.calls i = call at hcall hmissed ⊢
    cases hcall with
    | same => exact hkept hmissed rfl rfl
    | started request phase hi hphase => cases hmissed
    | joined missed op raced hresumed hwants hop hraced hwhich =>
      obtain hsame | ⟨kid, doc, hrequest, hheld, hfind, hnew⟩ := hwhich
      · exact hkept hmissed hsame rfl
      · obtain rfl : missed = some (first, m) := hmissed
        cases hnew
        have hbrought := hs.held i first (.inl hheld)
        exact ⟨hload.settled hbrought, (hs.loaded _ _ hbrought).2, hlt, kid, hrequest, hfind⟩
    | raced op result hphase hresult => exact hkept hmissed rfl rfl
    | loaded op raced result hphase hresult => exact hkept hmissed rfl rfl
    | finished outcome hheld hfound => exact hkept hmissed rfl rfl

/-! ## Fresh, fail-closed, looked up twice -/

/-- The set is from within `ttlMs` before the call, or from a load that settled during it. -/
def FreshFor (ttlMs : Nat) (call : Call) (doc : KeySet) : Prop :=
  call.startedAtMs ≤ doc.loadedAtMs + ttlMs ∨ call.step < doc.step

/-- The set came after the miss. -/
def AfterMiss (call : Call) (doc : KeySet) : Prop := ∀ first m, call.missed = some (first, m) → m < doc.step

/-- The set came after the failure at the step `m`, where the call did. -/
def AfterFailure (m : Nat) (call : Call) (doc : KeySet) : Prop := m < call.step → m < doc.step

/-- After the failure at the step `m` no older set is left to be found. -/
structure Closed (m : Nat) (s : JWKSCache) : Prop where
  cache : ∀ doc fetchedAtMs, s.cache = some (doc, fetchedAtMs) → m < doc.step
  inflight : ∀ op doc, s.inflightRefetch = some op → (s.operations op).promise = some (.ok doc) → m < doc.step
  calls : ∀ i doc, Reaches s i doc → AfterFailure m (s.calls i) doc

theorem closed_step (hs : Sources s) {a : Action} (h : step ttlMs s a = some t) {m : Nat} (hm : m < s.steps)
    (hclosed : Closed m s) : Closed m t := by
  have hload := step_loadStep hs.flight h
  refine ⟨?_, ?_, ?_⟩
  · intro doc fetchedAtMs hcache
    obtain hsame | hnone | ⟨doc', op, hnew, hpending, hop⟩ := hload.cache
    · exact hclosed.cache doc fetchedAtMs (hsame.symm.trans hcache)
    · rw [hnone] at hcache
      cases hcache
    · rw [hnew] at hcache
      cases hcache
      rw [(hload.settles hpending hop).2]
      exact hm
  · intro op doc hin hop
    obtain hsame | ⟨hpending, -⟩ := hload.promise op
    · have hop' := hsame.symm.trans hop
      obtain hkept | hnone | ⟨-, hnew⟩ := hload.inflight
      · exact hclosed.inflight op doc (hkept.symm.trans hin) hop'
      · rw [hnone] at hin
        cases hin
      · rw [hnew] at hin
        cases hin
        rw [hs.flight.unopened _ le_rfl] at hop'
        cases hop'
    · rw [(hload.settles hpending hop).2]
      exact hm
  · intro i
    refine reaches_step (P := AfterFailure m) (fun _ _ _ h => h) hs.flight h (hclosed.calls i) ?_ ?_ ?_
    · intro op raced doc _ hpending hop _
      rw [(hload.settles hpending hop).2]
      exact hm
    · intro doc hcache _ _ _ _
      obtain ⟨fetchedAtMs, hcache, -⟩ := maybeLoadFromCache_cached hcache
      exact hclosed.cache doc fetchedAtMs hcache
    · intro op doc _ _ hin hop _ _
      exact hclosed.inflight op doc hin hop

/-- The failure of a load that was not aborted closes the cache. -/
theorem closed_of_failure (hs : Sources s) {a : Action} (h : step ttlMs s a = some t) {op : Nat}
    (hpending : (s.operations op).promise = none) {m : Nat} (hop : (t.operations op).promise = some (.error (.load m false))) :
    Closed m t := by
  have hload := step_loadStep hs.flight h
  obtain hsame | ⟨-, -, ⟨keys, hok⟩ | ⟨herror, hclear⟩⟩ := hload.promise op
  · rw [hsame, hpending] at hop
    cases hop
  · rw [hok] at hop
    cases hop
  · rw [herror] at hop
    simp only [Option.some.injEq, Except.error.injEq, Failure.load.injEq] at hop
    obtain ⟨rfl, haborted⟩ := hop
    obtain ⟨hcache, hin⟩ := hclear haborted
    refine ⟨fun doc fetchedAtMs h => ?_, fun op' doc h h' => ?_, fun i doc _ hlater => ?_⟩
    · rw [hcache] at h
      cases h
    · rw [hin] at h
      cases h
      rw [herror] at h'
      cases h'
    · have hpast := (hs.step h).past i
      rw [hload.steps] at hpast
      exact absurd (Nat.lt_succ_iff.mp hpast) (Nat.not_le.mpr hlater)

/-- Every failure of a load that was not aborted has closed the cache. -/
def FailClosed (s : JWKSCache) : Prop := ∀ op m, (s.operations op).promise = some (.error (.load m false)) → Closed m s

theorem failClosed_step (hs : Sources s) {a : Action} (h : step ttlMs s a = some t) (hclosed : FailClosed s) : FailClosed t := by
  intro op m hop
  obtain hsame | ⟨hpending, -⟩ := (step_loadStep hs.flight h).promise op
  · have hop' := hsame.symm.trans hop
    exact closed_step hs h (hs.failed op m false hop') (hclosed op m hop')
  · exact closed_of_failure hs h hpending hop

/-- The step joins no load that has settled. -/
def joinsPending (s : JWKSCache) (a : Action) : Bool :=
  match s.resumed a, s.inflightRefetch with
  | some i, some op => !s.wantsLoad i || (s.operations op).promise.isNone
  | _, _ => true

theorem joinsPending_spec {a : Action} (h : s.joinsPending a = true) {i op : Nat} (hresumed : s.resumed a = some i)
    (hwants : s.wantsLoad i = true) (hin : s.inflightRefetch = some op) : (s.operations op).promise = none := by
  unfold joinsPending at h
  rw [hresumed, hin] at h
  dsimp only at h
  rw [hwants] at h
  exact Option.isNone_iff_eq_none.mp h

theorem fresh_step (hs : Sources s) {a : Action} (hok : s.joinsPending a = true) (h : step ttlMs s a = some t)
    (hfresh : ∀ i doc, Reaches s i doc → FreshFor ttlMs (s.calls i) doc) (i : Nat) :
    ∀ doc, Reaches t i doc → FreshFor ttlMs (t.calls i) doc := by
  refine reaches_step (P := FreshFor ttlMs) (fun _ _ _ h => h) hs.flight h (hfresh i) ?_ ?_ ?_
  · intro op raced doc _ hpending hop
    refine .inr ?_
    rw [((step_loadStep hs.flight h).settles hpending hop).2]
    exact hs.past i
  · intro doc hcache _ hstarted _
    obtain ⟨fetchedAtMs, hcache, hage⟩ := maybeLoadFromCache_cached hcache
    obtain rfl := (hs.cached doc fetchedAtMs hcache).2
    refine .inl ?_
    rw [hstarted]
    omega
  · intro op doc hresumed hwants hin hop _
    rw [joinsPending_spec hok hresumed hwants hin] at hop
    cases hop

theorem afterMiss_step (hs : Sources s) {a : Action} (hok : s.joinsPending a = true) (h : step ttlMs s a = some t)
    (hmiss : ∀ i doc, Reaches s i doc → AfterMiss (s.calls i) doc) (i : Nat) :
    ∀ doc, Reaches t i doc → AfterMiss (t.calls i) doc := by
  refine reaches_step (P := AfterMiss) (fun _ _ _ h => h) hs.flight h (hmiss i) ?_ ?_ ?_
  · intro op raced doc _ hpending hop first m hmissed
    rw [((step_loadStep hs.flight h).settles hpending hop).2]
    exact (hs.missed i first m hmissed).2.2.1
  · intro doc _ _ _ hnone first m hmissed
    rw [hnone] at hmissed
    cases hmissed
  · intro op doc hresumed hwants hin hop _
    rw [joinsPending_spec hok hresumed hwants hin] at hop
    cases hop

/-- A call that reports a miss has looked twice. -/
def LookedTwice (s : JWKSCache) : Prop :=
  ∀ i doc, (s.calls i).phase = .done (.notFound doc) →
    ∃ kid, (s.calls i).request = .getKey kid ∧ findKey doc kid = none ∧ (s.calls i).missed ≠ none

theorem lookedTwice_step (hnew : s.Unopened) {a : Action} (h : step ttlMs s a = some t) (hlooked : LookedTwice s) :
    LookedTwice t := by
  intro i doc hphase
  have hcall := step_progress hnew h i
  generalize t.calls i = call at hcall hphase ⊢
  cases hcall with
  | same => exact hlooked i doc hphase
  | started request phase hi hstart =>
    obtain rfl | ⟨outcome, rfl, hnone⟩ := hstart
    · cases hphase
    · cases hphase
      cases hnone
  | joined missed op raced hresumed hwants hop hraced hmissed => cases hphase
  | raced op result h hresult => cases hphase
  | loaded op raced result h hresult => cases hphase
  | finished outcome hheld hfound =>
    cases hphase
    exact hfound doc rfl

/-- What callers rely on. -/
structure Sound (ttlMs : Nat) (s : JWKSCache) : Prop where
  fresh : ∀ i jwk doc, (s.calls i).phase = .done (.key jwk doc) →
    Brought s doc ∧ ((s.calls i).startedAtMs ≤ doc.loadedAtMs + ttlMs ∨ (s.calls i).step < doc.step)
  failClosed : ∀ op m, (s.operations op).promise = some (.error (.load m false)) →
    ∀ i jwk doc, (s.calls i).phase = .done (.key jwk doc) → m < (s.calls i).step → m < doc.step
  single : ∀ op op', op < s.opened → op' < s.opened → (s.operations op).promise = none → (s.operations op).aborted = false →
    (s.operations op').promise = none → (s.operations op').aborted = false → op = op'
  secondLook : ∀ i second, (s.calls i).phase = .done (.notFound second) →
    ∃ kid first m, (s.calls i).request = .getKey kid ∧ (s.calls i).missed = some (first, m) ∧ findKey first kid = none ∧
      findKey second kid = none ∧ Brought s first ∧ Brought s second ∧ first.load ≠ second.load ∧ m < second.step

end JWKSCache

end Webchannel.Jwks
