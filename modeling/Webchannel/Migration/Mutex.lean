import Mathlib.Logic.Function.Basic
import Webchannel.Lib.Runs

/-!
# The account mutex of the legacy migration

`withAccountMutex` of any number of processes over one directory, one filesystem step at a time.
The mutex is a file that a hard link publishes without replacing; a stale one is read, its owner
probed, and then linked aside and unlinked by its path. A process may die at any point, and its
pid is not used again.
-/

namespace Webchannel.Migration

open Webchannel.Runs

abbrev Pid := Nat

abbrev Token := Nat

/-- What stands at the path of the mutex. -/
inductive AccountMutexFile where
  | owned (ownerPid : Pid) (token : Token)
  /-- not a mutex of version 1 -/
  | invalid
  deriving DecidableEq, Repr

/-- The next filesystem step of a process, with its attempt and its token. -/
inductive Phase where
  | outside
  /-- `atomicWritePrivateFile` without replacing -/
  | publish (attempt : Nat) (token : Token)
  /-- `readAccountMutex` of the acquisition -/
  | read (attempt : Nat) (token : Token)
  /-- `processIsAlive` -/
  | probe (attempt : Nat) (token : Token) (ownerPid : Pid)
  /-- the two steps of `archiveFileNoReplace` -/
  | link (attempt : Nat) (token : Token)
  | unlink (attempt : Nat) (token : Token)
  /-- the action -/
  | inside (token : Token)
  /-- `readAccountMutex` of the release -/
  | check (token : Token)
  | remove (token : Token)
  deriving DecidableEq, Repr

/-- How a filesystem call ends, apart from EEXIST and ENOENT: it may fail before or after its
effect. -/
inductive Outcome where
  | ok
  | failed
  | failedLate
  deriving DecidableEq, Repr

structure World where
  path : Option AccountMutexFile
  /-- stale files that were linked aside -/
  archives : List AccountMutexFile
  phase : Pid → Phase
  alive : Pid → Bool

inductive Action where
  /-- a call of `withAccountMutex` draws its token -/
  | enter (p : Pid) (token : Token)
  | act (p : Pid) (outcome : Outcome)
  | die (p : Pid)
  deriving DecidableEq, Repr

namespace World

variable (w : World)

def go (p : Pid) (phase : Phase) : World := { w with phase := Function.update w.phase p phase }

@[simp] theorem go_phase (p : Pid) (phase : Phase) : (w.go p phase).phase = Function.update w.phase p phase := rfl

def maxAttempts : Nat := 4

def retry (p : Pid) (attempt : Nat) (token : Token) : World :=
  w.go p (if attempt + 1 < maxAttempts then .publish (attempt + 1) token else .outside)

/-- One step of a live process; every error that the code does not handle leaves the call. -/
def act (p : Pid) (outcome : Outcome) : World :=
  match w.phase p with
  | .outside => w
  | .publish attempt token =>
    match outcome, w.path with
    | .failed, _ => w.go p .outside
    | _, some _ => w.go p (.read attempt token)
    | .ok, none => { w with path := some (.owned p token) }.go p (.inside token)
    -- The link is made and the temporary name cannot be removed.
    | .failedLate, none => { w with path := some (.owned p token) }.go p .outside
  | .read attempt token =>
    match outcome, w.path with
    | .ok, some (.owned ownerPid _) => w.go p (.probe attempt token ownerPid)
    | _, _ => w.go p .outside
  | .probe attempt token ownerPid =>
    if w.alive ownerPid then w.go p .outside else w.go p (.link attempt token)
  | .link attempt token =>
    match outcome, w.path with
    | .failed, _ => w.go p .outside
    | _, none => w.retry p attempt token
    | .ok, some file => { w with archives := file :: w.archives }.go p (.unlink attempt token)
    | .failedLate, some file => { w with archives := file :: w.archives }.go p .outside
  | .unlink attempt token =>
    match outcome with
    | .failed => w.go p .outside
    | _ => { w with path := none }.retry p attempt token
  | .inside token => w.go p (.check token)
  | .check token =>
    if outcome = .ok ∧ w.path = some (.owned p token) then w.go p (.remove token) else w.go p .outside
  | .remove _ =>
    match outcome with
    | .failed => w.go p .outside
    | _ => { w with path := none }.go p .outside

end World

def step (w : World) : Action → Option World
  | .enter p token =>
    if w.alive p = true ∧ w.phase p = .outside then some (w.go p (.publish 0 token)) else none
  | .act p outcome => if w.alive p = true then some (w.act p outcome) else none
  | .die p => some { w with alive := Function.update w.alive p false }

/-- Nobody is in a call yet; the path may hold anything. -/
def initial (alive : Pid → Bool) (path : Option AccountMutexFile) : World := ⟨path, [], fun _ => .outside, alive⟩

/-- A takeover unlinks only what a dead process left: the file at the path is still a stale one. -/
def Careful (w : World) (a : Action) : Prop :=
  ∀ p outcome attempt token, a = .act p outcome → outcome ≠ .failed → w.phase p = .unlink attempt token →
    ∀ ownerPid token', w.path = some (.owned ownerPid token') → w.alive ownerPid = false

/-! ## The owner of the path -/

/-- The process has the mutex: from the publication to its own unlink. -/
def Phase.holds : Phase → Option Token
  | .inside token | .check token | .remove token => some token
  | _ => none

/-- A live process that has the mutex finds its own file at the path. -/
def Owned (w : World) : Prop :=
  ∀ p token, w.alive p = true → (w.phase p).holds = some token → w.path = some (.owned p token)

theorem owned_initial (alive : Pid → Bool) (path : Option AccountMutexFile) : Owned (initial alive path) := by
  intro p token _ h
  cases h

/-- A step of `p` keeps the owner if nobody else has the mutex or the path is left alone. -/
theorem owned_go {w : World} {p : Pid} {phase : Phase} {path : Option AccountMutexFile}
    (hothers : ∀ q token, q ≠ p → w.alive q = true → (w.phase q).holds = some token →
      path = some (.owned q token))
    (hp : ∀ token, phase.holds = some token → path = some (.owned p token)) :
    Owned ({ w with path := path }.go p phase) := by
  intro q token hq hh
  rw [World.go_phase] at hh
  by_cases heq : q = p
  · subst heq
    rw [Function.update_self] at hh
    exact hp token hh
  · rw [Function.update_of_ne heq] at hh
    exact hothers q token heq hq hh

theorem owned_stay {w : World} {p : Pid} {phase : Phase} (h : Owned w)
    (hp : ∀ token, phase.holds = some token → w.path = some (.owned p token)) : Owned (w.go p phase) :=
  owned_go (fun q token _ hq hh => h q token hq hh) hp

theorem owned_leave {w : World} (h : Owned w) (p : Pid) : Owned (w.go p .outside) :=
  owned_stay h fun _ hh => by cases hh

theorem holds_retry (attempt : Nat) (token : Token) :
    (if attempt + 1 < World.maxAttempts then Phase.publish (attempt + 1) token else .outside).holds = none := by
  split <;> rfl

theorem owned_die {w : World} (h : Owned w) (p : Pid) :
    Owned { w with alive := Function.update w.alive p false } := by
  intro q token hq hh
  have hdead : Function.update w.alive p false q = true := hq
  by_cases heq : q = p
  · subst heq
    rw [Function.update_self] at hdead
    cases hdead
  · rw [Function.update_of_ne heq] at hdead
    exact h q token hdead hh

theorem owned_act {w : World} (h : Owned w) {p : Pid} {outcome : Outcome} (halive : w.alive p = true)
    (hcareful : Careful w (.act p outcome)) : Owned (w.act p outcome) := by
  -- Where the path is empty or holds a dead process's file, nobody alive has the mutex.
  have hfree (hpath : ∀ q token, w.path = some (.owned q token) → w.alive q = false)
      (path : Option AccountMutexFile) (q : Pid) (token : Token) (hq : w.alive q = true)
      (hh : (w.phase q).holds = some token) : path = some (.owned q token) := by
    rw [hpath q token (h q token hq hh)] at hq
    cases hq
  unfold World.act
  cases hphase : w.phase p with
  | outside => exact h
  | publish attempt token =>
    cases hpath : w.path with
    | some file =>
      cases outcome with
      | failed => exact owned_leave h p
      | _ => exact owned_stay h fun _ hh => by cases hh
    | none =>
      have hnobody := hfree fun q token hq => by rw [hpath] at hq; cases hq
      cases outcome with
      | failed => exact owned_leave h p
      | ok =>
        refine owned_go (fun q token _ => hnobody _ q token) fun token' hh => ?_
        cases hh
        rfl
      | failedLate => exact owned_go (fun q token _ => hnobody _ q token) fun _ hh => by cases hh
  | read attempt token =>
    cases outcome with
    | ok =>
      cases hpath : w.path with
      | none => exact owned_leave h p
      | some file =>
        cases file with
        | invalid => exact owned_leave h p
        | owned ownerPid token' => exact owned_stay h fun _ hh => by cases hh
    | _ => exact owned_leave h p
  | probe attempt token ownerPid =>
    dsimp only
    split
    · exact owned_leave h p
    · exact owned_stay h fun _ hh => by cases hh
  | link attempt token =>
    have hretry : Owned (w.retry p attempt token) :=
      owned_stay h fun _ hh => by rw [holds_retry] at hh; cases hh
    have hlinked (file : AccountMutexFile) {phase : Phase} (hp : phase.holds = none) :
        Owned ({ w with archives := file :: w.archives }.go p phase) := by
      refine owned_stay h fun _ hh => ?_
      rw [hp] at hh
      cases hh
    dsimp only
    split
    · exact owned_leave h p
    · exact hretry
    · exact hlinked _ rfl
    · exact hlinked _ rfl
  | unlink attempt token =>
    have hremoved (hne : outcome ≠ .failed) : Owned ({ w with path := none }.retry p attempt token) := by
      refine owned_go (fun q token' _ => hfree (hcareful p outcome attempt token rfl hne hphase) _ q token')
        fun _ hh => ?_
      rw [holds_retry] at hh
      cases hh
    cases outcome with
    | failed => exact owned_leave h p
    | ok => exact hremoved (by simp)
    | failedLate => exact hremoved (by simp)
  | inside token =>
    refine owned_stay h fun token' hh => h p token' halive ?_
    rw [hphase]
    exact hh
  | check token =>
    dsimp only
    split
    · refine owned_stay h fun token' hh => h p token' halive ?_
      rw [hphase]
      exact hh
    · exact owned_leave h p
  | remove token =>
    have hown : w.path = some (.owned p token) := h p token halive (by rw [hphase]; rfl)
    have hremoved : Owned ({ w with path := none }.go p .outside) := by
      refine owned_go (fun q token' hne hq hh => ?_) fun _ hh => by cases hh
      have hother := h q token' hq hh
      rw [hown] at hother
      cases hother
      exact absurd rfl hne
    cases outcome with
    | failed => exact owned_leave h p
    | _ => exact hremoved

theorem owned_step {w t : World} {a : Action} (h : Owned w) (hcareful : Careful w a)
    (hstep : step w a = some t) : Owned t := by
  cases a with
  | enter p token =>
    obtain ⟨_, rfl⟩ := Option.ite_none_right_eq_some.mp hstep |>.imp_right Option.some.inj
    exact owned_stay h fun _ hh => by cases hh
  | act p outcome =>
    obtain ⟨halive, rfl⟩ := Option.ite_none_right_eq_some.mp hstep |>.imp_right Option.some.inj
    exact owned_act h halive hcareful
  | die p =>
    cases hstep
    exact owned_die h p

/-! ## Exclusion -/

/-- A live process is in the action of `withAccountMutex`. -/
def Inside (w : World) (p : Pid) : Prop := w.alive p = true ∧ ∃ token, w.phase p = .inside token

/-- At most one live process is in the action, and a release finds its own file at the path. -/
structure Exclusive (w : World) : Prop where
  one : ∀ p q, Inside w p → Inside w q → p = q
  release : ∀ p token, w.alive p = true → w.phase p = .remove token → w.path = some (.owned p token)

theorem Owned.exclusive {w : World} (h : Owned w) : Exclusive w := by
  refine ⟨fun p q hp hq => ?_, fun p token hp hphase => h p token hp (by rw [hphase]; rfl)⟩
  obtain ⟨hpa, token, hpi⟩ := hp
  obtain ⟨hqa, token', hqi⟩ := hq
  have hpath := h p token hpa (by rw [hpi]; rfl)
  rw [h q token' hqa (by rw [hqi]; rfl)] at hpath
  cases hpath
  rfl

/-- In every run whose takeovers unlink only stale files the mutex excludes. -/
theorem accountMutex_exclusive {alive : Pid → Bool} {path : Option AccountMutexFile} {w : World}
    (hrun : ReachedBy step Careful (initial alive path) w) : Exclusive w := by
  have howned : Owned w := hrun.invariant (owned_initial alive path)
    fun _ _ _ hs hcareful hstep => owned_step hs hcareful hstep
  exact howned.exclusive

/-- Process 2 takes over the mutex that the dead process 9 has left. -/
theorem accountMutex_exclusive_takeover :
    ∃ w, ReachedBy step Careful (initial (· ≠ 9) (some (.owned 9 0))) w ∧ Inside w 2 ∧ Exclusive w := by
  have hopened : ReachedBy step Careful (initial (· ≠ 9) (some (.owned 9 0)))
    (initial (· ≠ 9) (some (.owned 9 0))) := .start
  have hentered := hopened.step (a := .enter 2 22) (fun _ _ _ _ h => by cases h) rfl
  have hread := hentered.step (a := .act 2 .ok) (by rintro _ _ _ _ ⟨⟩ _ h; cases h) rfl
  have hprobe := hread.step (a := .act 2 .ok) (by rintro _ _ _ _ ⟨⟩ _ h; cases h) rfl
  have hlink := hprobe.step (a := .act 2 .ok) (by rintro _ _ _ _ ⟨⟩ _ h; cases h) rfl
  have hunlink := hlink.step (a := .act 2 .ok) (by rintro _ _ _ _ ⟨⟩ _ h; cases h) rfl
  have hpublish := hunlink.step (a := .act 2 .ok) (by rintro _ _ _ _ ⟨⟩ _ _ _ _ ⟨⟩; rfl) rfl
  have hinside := hpublish.step (a := .act 2 .ok) (by rintro _ _ _ _ ⟨⟩ _ h; cases h) rfl
  exact ⟨_, hinside, ⟨rfl, 22, rfl⟩, accountMutex_exclusive hinside⟩

/-- Processes 1 and 2 have both read the dead owner; 1 archives the file that 2 has published in the
meantime. -/
theorem overtaken_takeover_admits_two :
    ¬ ∀ w, Reached step (initial (· ≠ 9) (some (.owned 9 0))) w → Exclusive w := by
  intro h
  have hexec : (exec step (initial (· ≠ 9) (some (.owned 9 0))) [.enter 1 11, .enter 2 22, .act 1 .ok,
      .act 2 .ok, .act 1 .ok, .act 2 .ok, .act 1 .ok, .act 2 .ok, .act 2 .ok, .act 2 .ok, .act 2 .ok,
      .act 1 .ok, .act 1 .ok, .act 1 .ok]).map (fun w => decide (w.alive 1 = true ∧ w.alive 2 = true ∧
        w.phase 1 = .inside 11 ∧ w.phase 2 = .inside 22)) = some true := rfl
  obtain ⟨w, hw, hin⟩ := exists_reached_of_exec hexec
  obtain ⟨h1, h2, hp1, hp2⟩ := of_decide_eq_true hin
  cases (h w hw).one 1 2 ⟨h1, 11, hp1⟩ ⟨h2, 22, hp2⟩

end Webchannel.Migration
