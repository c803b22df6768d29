import Mathlib.Logic.Relation

/-!
# Runs of a transition system

A system is a partial step function: `none` means that the action is not
enabled. A run is a list of actions, and a state is reached by a run all of
whose steps meet a side condition `ok`. With `ok` always true these are the
reachable states of the system.
-/

namespace Webchannel.Runs

variable {σ τ α β : Type*}

/-- Execute the actions in order; `none` means that one of them was not enabled. -/
def exec (step : σ → α → Option σ) : σ → List α → Option σ
  | s, [] => some s
  | s, a :: rest => (step s a).bind (exec step · rest)

/-- The states reached from `start` by steps that each meet `ok` in the state before them. -/
inductive ReachedBy (step : σ → α → Option σ) (ok : σ → α → Prop) (start : σ) : σ → Prop where
  | start : ReachedBy step ok start start
  | step {s t : σ} {a : α} : ReachedBy step ok start s → ok s a → step s a = some t →
      ReachedBy step ok start t

/-- Every reachable state, with no condition on the steps. -/
def Reached (step : σ → α → Option σ) (start : σ) : σ → Prop :=
  ReachedBy step (fun _ _ => True) start

variable {next : σ → α → Option σ} {ok ok' : σ → α → Prop} {init s t : σ}

theorem Reached.start : Reached next s s := ReachedBy.start

theorem Reached.step {a : α} (h : Reached next init s) (hs : next s a = some t) :
    Reached next init t := ReachedBy.step h trivial hs

/-- A property of the start that every admitted step keeps holds in every state reached. -/
theorem ReachedBy.invariant {I : σ → Prop} (h : ReachedBy next ok init s) (h₀ : I init)
    (hstep : ∀ s a t, I s → ok s a → next s a = some t → I t) : I s := by
  induction h with
  | start => exact h₀
  | step _ hok hs ih => exact hstep _ _ _ ih hok hs

theorem ReachedBy.mono (h : ReachedBy next ok init s) (hle : ∀ s a, ok s a → ok' s a) :
    ReachedBy next ok' init s := by
  induction h with
  | start => exact .start
  | step _ hok hs ih => exact .step ih (hle _ _ hok) hs

theorem ReachedBy.trans (h₁ : ReachedBy next ok init s) (h₂ : ReachedBy next ok s t) :
    ReachedBy next ok init t := by
  induction h₂ with
  | start => exact h₁
  | step _ hok hs ih => exact .step ih hok hs

/-- Induction over runs may use any invariant that holds of every reachable state. -/
theorem ReachedBy.strengthen {I : σ → Prop} (h : ReachedBy next ok init s)
    (hI : ∀ s, ReachedBy next ok init s → I s) :
    ReachedBy next (fun s a => ok s a ∧ I s) init s := by
  induction h with
  | start => exact .start
  | step hr hok hs ih => exact .step ih ⟨hok, hI _ hr⟩ hs

theorem reached_of_exec {as : List α} (h : exec next s as = some t) : Reached next s t := by
  induction as generalizing s with
  | nil =>
    obtain rfl : s = t := by simpa [exec] using h
    exact .start
  | cons a rest ih =>
    obtain ⟨u, hu, ht⟩ := Option.bind_eq_some_iff.mp h
    exact ReachedBy.trans (ReachedBy.step .start trivial hu) (ih ht)

/-- A run that can be executed, ending in a state where the test `p` succeeds. -/
theorem exists_reached_of_exec {as : List α} {p : σ → Bool}
    (h : (exec next s as).map p = some true) : ∃ t, Reached next s t ∧ p t = true := by
  obtain ⟨t, ht, hp⟩ := Option.map_eq_some_iff.mp h
  exact ⟨t, reached_of_exec ht, hp⟩

/-- The same for a run whose steps are tested for the side condition. -/
theorem exists_reachedBy_of_exec [∀ s a, Decidable (ok s a)] {as : List α} {p : σ → Bool}
    (h : (exec (fun s a => if ok s a then next s a else none) s as).map p = some true) :
    ∃ t, ReachedBy next ok s t ∧ p t = true := by
  obtain ⟨t, ht, hp⟩ := Option.map_eq_some_iff.mp h
  refine ⟨t, ?_, hp⟩
  clear h hp
  induction as generalizing s with
  | nil =>
    obtain rfl : s = t := by simpa [exec] using ht
    exact .start
  | cons a rest ih =>
    obtain ⟨u, hu, ht⟩ := Option.bind_eq_some_iff.mp ht
    dsimp only at hu
    split at hu
    · exact ReachedBy.trans (.step .start ‹_› hu) (ih ht)
    · cases hu

end Webchannel.Runs
