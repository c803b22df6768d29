import Webchannel.Lib.Runs
import Mathlib.Logic.Relation

/-!
# Programs whose environment calls back

Single-threaded code over a shared state. A program runs without interruption until it asks
the environment for a value or makes a callout. During a callout the environment has control
and may run any of the code's entries, which may make callouts of their own, before it lets
the suspended program go on. A run is a sequence of such moves, so a statement about every
run covers every way in which callbacks re-enter the code.

The rules prove an invariant that holds whenever the environment has control. It is indexed:
the index says what the suspended programs still have to do, and an entry that starts while
they wait has to keep the invariant at their index.
-/

namespace Webchannel.Reentrant

open Webchannel.Runs

/-- `step` changes the state and goes on with the new one, `ask` takes a value that the
environment chooses at once, `note` is an action that can be observed, `callout` is one during
which the environment has control, and `iter` repeats its body until it leaves the loop. -/
inductive Prog (σ Ask : Type) (Answer : Ask → Type) (Out : Type) : Type → Type 1 where
  | done {α : Type} (a : α) : Prog σ Ask Answer Out α
  | step {α : Type} (f : σ → σ) (k : σ → Prog σ Ask Answer Out α) : Prog σ Ask Answer Out α
  | ask {α : Type} (q : Ask) (k : Answer q → Prog σ Ask Answer Out α) : Prog σ Ask Answer Out α
  | note {α : Type} (e : Out) (k : Prog σ Ask Answer Out α) : Prog σ Ask Answer Out α
  | callout {α : Type} (e : Out) (k : Prog σ Ask Answer Out α) : Prog σ Ask Answer Out α
  | iter {α β γ : Type} (body : β → Prog σ Ask Answer Out (β ⊕ γ)) (b : β)
      (k : γ → Prog σ Ask Answer Out α) : Prog σ Ask Answer Out α

variable {σ Ask : Type} {Answer : Ask → Type} {Out Entry ω α β γ : Type}

namespace Prog

def bind : Prog σ Ask Answer Out α → (α → Prog σ Ask Answer Out β) → Prog σ Ask Answer Out β
  | .done a, g => g a
  | .step f k, g => .step f fun s => (k s).bind g
  | .ask q k, g => .ask q fun a => (k a).bind g
  | .note e k, g => .note e (k.bind g)
  | .callout e k, g => .callout e (k.bind g)
  | .iter body b k, g => .iter body b fun c => (k c).bind g

instance : Monad (Prog σ Ask Answer Out) where
  pure := .done
  bind := bind

def get : Prog σ Ask Answer Out σ := .step id .done

def modify (f : σ → σ) : Prog σ Ask Answer Out Unit := .step f fun _ => .done ()

def query (q : Ask) : Prog σ Ask Answer Out (Answer q) := .ask q .done

def record (e : Out) : Prog σ Ask Answer Out Unit := .note e (.done ())

def call (e : Out) : Prog σ Ask Answer Out Unit := .callout e (.done ())

/-- A loop over a list that is known when it starts. -/
def each (body : β → Prog σ Ask Answer Out Unit) : List β → Prog σ Ask Answer Out Unit
  | [] => pure ()
  | b :: bs => do
    body b
    each body bs

/-- Repeat `body` from `b` until it returns a result. -/
def loop (body : β → Prog σ Ask Answer Out (β ⊕ γ)) (b : β) : Prog σ Ask Answer Out γ :=
  .iter body b .done

def onlyIf (b : Bool) (p : Prog σ Ask Answer Out Unit) : Prog σ Ask Answer Out Unit :=
  if b then p else pure ()

def onSome (o : Option β) (p : β → Prog σ Ask Answer Out Unit) : Prog σ Ask Answer Out Unit :=
  match o with
  | none => pure ()
  | some b => p b

def whileTrue (cond : σ → Bool) (body : Prog σ Ask Answer Out Unit) : Prog σ Ask Answer Out Unit :=
  loop (fun _ => do
    if cond (← get) then
      body
      pure (.inl ())
    else pure (.inr ())) ()

/-- One round of a loop, then the rest of it. -/
def unroll (body : β → Prog σ Ask Answer Out (β ⊕ γ)) (b : β)
    (k : γ → Prog σ Ask Answer Out α) : Prog σ Ask Answer Out α :=
  (body b).bind fun
    | .inl b' => .iter body b' k
    | .inr c => k c

end Prog

/-- The entries of the code. `admits` says which of them the environment may run; its first
argument tells whether no program is suspended. -/
structure Machine (σ Ask : Type) (Answer : Ask → Type) (Out Entry : Type) where
  body : Entry → Prog σ Ask Answer Out Unit
  admits : Bool → σ → Entry → Bool

/-- The environment has control when nothing is running. The suspended programs are kept
innermost first, the actions observed so far latest first. -/
structure Config (σ Ask : Type) (Answer : Ask → Type) (Out : Type) where
  state : σ
  trace : List Out
  running : Option (Prog σ Ask Answer Out Unit)
  stack : List (Prog σ Ask Answer Out Unit)

inductive Move (Ask : Type) (Answer : Ask → Type) (Entry : Type) where
  | tick
  | answer (q : Ask) (a : Answer q)
  | enter (e : Entry)
  | resume

namespace Config

def start (s : σ) : Config σ Ask Answer Out := ⟨s, [], none, []⟩

/-- No program of the code is running or suspended. -/
def Idle (c : Config σ Ask Answer Out) : Prop := c.running.isNone = true ∧ c.stack.isEmpty = true

instance (c : Config σ Ask Answer Out) : Decidable c.Idle :=
  inferInstanceAs (Decidable (_ ∧ _))

/-- The running program is about to do the action. -/
def Acts (c : Config σ Ask Answer Out) (e : Out) : Prop :=
  ∃ k, c.running = some (.note e k) ∨ c.running = some (.callout e k)

def tick (c : Config σ Ask Answer Out) : Option (Config σ Ask Answer Out) :=
  match c.running with
  | some (.done _) => some { c with running := none }
  | some (.step f k) => some { c with state := f c.state, running := some (k (f c.state)) }
  | some (.note e k) => some { c with trace := e :: c.trace, running := some k }
  | some (.callout e k) => some { c with trace := e :: c.trace, running := none, stack := k :: c.stack }
  | some (.iter body b k) => some { c with running := some (Prog.unroll body b k) }
  | some (.ask _ _) => none
  | none => none

def answer [DecidableEq Ask] (c : Config σ Ask Answer Out) (q : Ask) (a : Answer q) :
    Option (Config σ Ask Answer Out) :=
  match c.running with
  | some (.ask q' k) => if h : q = q' then some { c with running := some (k (h ▸ a)) } else none
  | _ => none

def enter (m : Machine σ Ask Answer Out Entry) (c : Config σ Ask Answer Out) (e : Entry) :
    Option (Config σ Ask Answer Out) :=
  if c.running.isNone && m.admits c.stack.isEmpty c.state e then
    some { c with running := some (m.body e) }
  else none

def resume (c : Config σ Ask Answer Out) : Option (Config σ Ask Answer Out) :=
  match c.running, c.stack with
  | none, k :: rest => some { c with running := some k, stack := rest }
  | _, _ => none

def step [DecidableEq Ask] (m : Machine σ Ask Answer Out Entry) (c : Config σ Ask Answer Out) :
    Move Ask Answer Entry → Option (Config σ Ask Answer Out)
  | .tick => c.tick
  | .answer q a => c.answer q a
  | .enter e => c.enter m e
  | .resume => c.resume

end Config

/-! The environment's moves touch neither the state nor what was observed. -/

namespace Config

variable {c c' : Config σ Ask Answer Out}

theorem state_trace_of_answer [DecidableEq Ask] {q : Ask} {a : Answer q}
    (h : c.answer q a = some c') : c.state = c'.state ∧ c.trace = c'.trace := by
  unfold answer at h
  split at h
  · split at h
    · obtain rfl := Option.some.inj h
      exact ⟨rfl, rfl⟩
    · cases h
  · cases h

theorem state_trace_of_enter {m : Machine σ Ask Answer Out Entry} {e : Entry}
    (h : c.enter m e = some c') : c.state = c'.state ∧ c.trace = c'.trace := by
  unfold enter at h
  split at h
  · obtain rfl := Option.some.inj h
    exact ⟨rfl, rfl⟩
  · cases h

theorem state_trace_of_resume (h : c.resume = some c') :
    c.state = c'.state ∧ c.trace = c'.trace := by
  unfold resume at h
  split at h
  · obtain rfl := Option.some.inj h
    exact ⟨rfl, rfl⟩
  · cases h

end Config

/-! ### Scripted runs

What a program does between two decisions of the environment is determined, so a run is given
by the decisions alone. -/

namespace Config

/-- Let the running program go on until the environment has to decide. -/
def advance : Nat → Config σ Ask Answer Out → Config σ Ask Answer Out
  | 0, c => c
  | n + 1, c => match c.tick with
    | some c' => advance n c'
    | none => c

def play [DecidableEq Ask] (m : Machine σ Ask Answer Out Entry) (fuel : Nat)
    (ok : Config σ Ask Answer Out → Move Ask Answer Entry → Bool) :
    Config σ Ask Answer Out → List (Move Ask Answer Entry) → Option (Config σ Ask Answer Out)
  | c, [] => some (c.advance fuel)
  | c, mv :: moves =>
    if ok (c.advance fuel) mv then ((c.advance fuel).step m mv).bind (play m fuel ok · moves) else none

section Play

variable [DecidableEq Ask] {m : Machine σ Ask Answer Out Entry}
  {ok : Config σ Ask Answer Out → Move Ask Answer Entry → Prop} (hok : ∀ c, ok c .tick)
include hok

theorem reachedBy_advance (n : Nat) (c : Config σ Ask Answer Out) :
    ReachedBy (Config.step m) ok c (c.advance n) := by
  induction n generalizing c with
  | zero => exact .start
  | succ n ih =>
    unfold advance
    split
    · rename_i c' hc'
      exact ReachedBy.trans (.step .start (hok c) hc') (ih c')
    · exact .start

theorem reachedBy_play {fuel : Nat} {test : Config σ Ask Answer Out → Move Ask Answer Entry → Bool}
    (htest : ∀ c mv, test c mv = true → ok c mv) {moves : List (Move Ask Answer Entry)}
    {c c' : Config σ Ask Answer Out} (h : play m fuel test c moves = some c') :
    ReachedBy (Config.step m) ok c c' := by
  induction moves generalizing c with
  | nil =>
    obtain rfl := Option.some.inj h
    exact reachedBy_advance hok fuel c
  | cons mv moves ih =>
    unfold play at h
    split at h
    · rename_i hmv
      obtain ⟨d, hd, hplay⟩ := Option.bind_eq_some_iff.mp h
      have hstep := ReachedBy.step .start (htest _ _ hmv) hd
      exact ((reachedBy_advance hok fuel c).trans hstep).trans (ih hplay)
    · cases h

/-- A scripted run that ends in a configuration where the test `p` succeeds. -/
theorem exists_reachedBy_of_play {fuel : Nat}
    {test : Config σ Ask Answer Out → Move Ask Answer Entry → Bool}
    (htest : ∀ c mv, test c mv = true → ok c mv) {moves : List (Move Ask Answer Entry)}
    {c : Config σ Ask Answer Out} {p : Config σ Ask Answer Out → Bool}
    (h : (play m fuel test c moves).map p = some true) :
    ∃ c', ReachedBy (Config.step m) ok c c' ∧ p c' = true := by
  obtain ⟨c', hc', hp⟩ := Option.map_eq_some_iff.mp h
  exact ⟨c', reachedBy_play hok htest hc', hp⟩

end Play

end Config

/-! ### Contracts -/

/-- What the code promises and what it is promised. `inv` holds while the environment has
control, `changes` relates the states before and after every single step, `atAct` holds at every
action; `okAnswer` and `okEnter` restrict the moves of the runs that are spoken about. -/
structure Contract (σ Ask : Type) (Answer : Ask → Type) (Out Entry ω : Type) where
  inv : ω → σ → List Out → Prop
  changes : σ → σ → Prop
  atAct : Out → σ → List Out → Prop
  okAnswer : σ → (q : Ask) → Answer q → Prop
  okEnter : Bool → σ → List Out → Entry → Prop
  base : ω
  changes_refl : ∀ s, changes s s

namespace Contract

variable (C : Contract σ Ask Answer Out Entry ω)

/-- What any number of steps may do. -/
def Later : σ → σ → Prop := Relation.ReflTransGen C.changes

/-- The moves of the runs that the contract speaks about. -/
def Ok (c : Config σ Ask Answer Out) : Move Ask Answer Entry → Prop
  | .answer q a => C.okAnswer c.state q a
  | .enter e => C.okEnter c.stack.isEmpty c.state c.trace e
  | _ => True

/-- The program keeps the contract and ends in `Q`. During a callout the invariant holds at an
index of the program's choice, and that is all it knows when it goes on; a loop has an
invariant of its own. -/
def Safe : {α : Type} → Prog σ Ask Answer Out α → (α → σ → List Out → Prop) → σ → List Out → Prop
  | _, .done a, Q, s, t => Q a s t
  | _, .step f k, Q, s, t => C.changes s (f s) ∧ Safe (k (f s)) Q (f s) t
  | _, .ask q k, Q, s, t => ∀ a, C.okAnswer s q a → Safe (k a) Q s t
  | _, .note e k, Q, s, t => C.atAct e s t ∧ Safe k Q s (e :: t)
  | _, .callout e k, Q, s, t => C.atAct e s t ∧ ∃ w, C.inv w s (e :: t) ∧
      ∀ s' t', C.Later s s' → e :: t <:+ t' → C.inv w s' t' → Safe k Q s' t'
  | _, .iter (β := β) body b k, Q, s, t => ∃ J : β → σ → List Out → Prop, J b s t ∧
      ∀ b s t, J b s t → Safe (body b) (fun r s t => match r with
        | .inl b' => J b' s t
        | .inr c => Safe (k c) Q s t) s t

variable {C} {s : σ} {t : List Out} {Q Q' : α → σ → List Out → Prop} {R : β → σ → List Out → Prop}

theorem Safe.mono {p : Prog σ Ask Answer Out α} (h : C.Safe p Q s t)
    (hQ : ∀ a s t, Q a s t → Q' a s t) : C.Safe p Q' s t := by
  induction p generalizing s t with
  | done a => exact hQ a s t h
  | step f k ih => exact ⟨h.1, ih _ h.2 hQ⟩
  | ask q k ih => exact fun a ha => ih a (h a ha) hQ
  | note e k ih => exact ⟨h.1, ih h.2 hQ⟩
  | callout e k ih =>
    obtain ⟨hat, w, hw, hk⟩ := h
    exact ⟨hat, w, hw, fun s' t' hl ht hi => ih (hk s' t' hl ht hi) hQ⟩
  | iter body b k ihbody ihk =>
    obtain ⟨J, hJ, hbody⟩ := h
    refine ⟨J, hJ, fun b s t hb => ihbody b (hbody b s t hb) ?_⟩
    rintro (b' | c) s t hr
    · exact hr
    · exact ihk c hr hQ

theorem Safe.bind {p : Prog σ Ask Answer Out α} {g : α → Prog σ Ask Answer Out β}
    (h : C.Safe p (fun a => C.Safe (g a) R) s t) : C.Safe (p.bind g) R s t := by
  induction p generalizing s t with
  | done a => exact h
  | step f k ih => exact ⟨h.1, ih _ h.2⟩
  | ask q k ih => exact fun a ha => ih a (h a ha)
  | note e k ih => exact ⟨h.1, ih h.2⟩
  | callout e k ih =>
    obtain ⟨hat, w, hw, hk⟩ := h
    exact ⟨hat, w, hw, fun s' t' hl ht hi => ih (hk s' t' hl ht hi)⟩
  | iter body b k _ ihk =>
    obtain ⟨J, hJ, hbody⟩ := h
    refine ⟨J, hJ, fun b s t hb => (hbody b s t hb).mono ?_⟩
    rintro (b' | c) s t hr
    · exact hr
    · exact ihk c hr

/-- A loop that keeps the contract still does so after one round. -/
theorem Safe.unroll {body : β → Prog σ Ask Answer Out (β ⊕ γ)} {b : β}
    {k : γ → Prog σ Ask Answer Out α} (h : C.Safe (.iter body b k) Q s t) :
    C.Safe (Prog.unroll body b k) Q s t := by
  obtain ⟨J, hJ, hbody⟩ := h
  apply Safe.bind
  refine (hbody b s t hJ).mono ?_
  rintro (b' | c) s t hr
  · exact ⟨J, hr, hbody⟩
  · exact hr

/-! ### Every run keeps the contract -/

variable (C) in
/-- The suspended programs, from the state in which the innermost one was suspended: each may
go on once the invariant holds at the index it waits for, and ends at the index of the next. -/
def Waits : List (Prog σ Ask Answer Out Unit) → ω → σ → List Out → Prop
  | [], w, _, _ => w = C.base
  | k :: rest, w, s, t => ∃ w', (∀ s' t', C.Later s s' → t <:+ t' → C.inv w s' t' →
      C.Safe k (fun _ => C.inv w') s' t') ∧ Waits rest w' s t

theorem Waits.later {stack : List (Prog σ Ask Answer Out Unit)} {w : ω} {s' : σ} {t' : List Out}
    (h : C.Waits stack w s t) (hs : C.Later s s') (ht : t <:+ t') : C.Waits stack w s' t' := by
  induction stack generalizing w with
  | nil => exact h
  | cons k rest ih =>
    obtain ⟨w', hk, hrest⟩ := h
    refine ⟨w', fun s'' t'' hs' ht' => ?_, ih hrest⟩
    exact hk s'' t'' (hs.trans hs') (ht.trans ht')

variable (C) in
/-- The invariant of the configurations of a run. -/
def Kept (c : Config σ Ask Answer Out) : Prop :=
  ∃ w, C.Waits c.stack w c.state c.trace ∧ match c.running with
    | none => C.inv w c.state c.trace
    | some p => C.Safe p (fun _ => C.inv w) c.state c.trace

/-- Every entry keeps the invariant at every index it may find. -/
def Honours (m : Machine σ Ask Answer Out Entry) (C : Contract σ Ask Answer Out Entry ω) : Prop :=
  ∀ e top w s t, m.admits top s e = true → C.okEnter top s t e → (top = true → w = C.base) →
    C.inv w s t → C.Safe (m.body e) (fun _ => C.inv w) s t

theorem Kept.tick {c c' : Config σ Ask Answer Out} (h : C.Kept c) (hc : c.tick = some c') :
    C.Kept c' := by
  obtain ⟨s, t, _ | p, stack⟩ := c
  · cases hc
  obtain ⟨w, hwaits, hp⟩ := h
  cases p with
  | done a =>
    obtain rfl := Option.some.inj hc
    exact ⟨w, hwaits, hp⟩
  | step f k =>
    obtain rfl := Option.some.inj hc
    exact ⟨w, hwaits.later (.single hp.1) List.suffix_rfl, hp.2⟩
  | ask q k => cases hc
  | note e k =>
    obtain rfl := Option.some.inj hc
    exact ⟨w, hwaits.later .refl (List.suffix_cons e t), hp.2⟩
  | callout e k =>
    obtain rfl := Option.some.inj hc
    obtain ⟨-, w', hw', hk⟩ := hp
    exact ⟨w', ⟨w, hk, hwaits.later .refl (List.suffix_cons e t)⟩, hw'⟩
  | iter body b k =>
    obtain rfl := Option.some.inj hc
    exact ⟨w, hwaits, Safe.unroll hp⟩

theorem Kept.answer [DecidableEq Ask] {c c' : Config σ Ask Answer Out} {q : Ask} {a : Answer q}
    (h : C.Kept c) (ha : C.okAnswer c.state q a) (hc : c.answer q a = some c') : C.Kept c' := by
  obtain ⟨s, t, _ | p, stack⟩ := c
  · cases hc
  obtain ⟨w, hwaits, hp⟩ := h
  cases p with
  | ask q' k =>
    simp only [Config.answer] at hc
    split at hc
    · rename_i hq
      subst hq
      obtain rfl := Option.some.inj hc
      exact ⟨w, hwaits, hp a ha⟩
    · cases hc
  | _ => cases hc

theorem Kept.enter {m : Machine σ Ask Answer Out Entry} {c c' : Config σ Ask Answer Out} {e : Entry}
    (hm : Honours m C) (h : C.Kept c) (he : C.okEnter c.stack.isEmpty c.state c.trace e)
    (hc : c.enter m e = some c') : C.Kept c' := by
  obtain ⟨s, t, _ | p, stack⟩ := c
  · simp only [Config.enter, Option.isNone_none, Bool.true_and] at hc
    split at hc
    · rename_i hadmits
      obtain rfl := Option.some.inj hc
      obtain ⟨w, hwaits, hw⟩ := h
      refine ⟨w, hwaits, hm e _ w s t hadmits he ?_ hw⟩
      intro htop
      cases stack with
      | nil => exact hwaits
      | cons k rest => cases htop
    · cases hc
  · simp [Config.enter] at hc

theorem Kept.resume {c c' : Config σ Ask Answer Out} (h : C.Kept c) (hc : c.resume = some c') :
    C.Kept c' := by
  obtain ⟨s, t, _ | p, stack⟩ := c
  · cases stack with
    | nil => cases hc
    | cons k rest =>
      obtain rfl := Option.some.inj hc
      obtain ⟨w, ⟨w', hk, hrest⟩, hw⟩ := h
      exact ⟨w', hrest, hk s t .refl List.suffix_rfl hw⟩
  · cases hc

theorem Kept.step [DecidableEq Ask] {m : Machine σ Ask Answer Out Entry}
    {c c' : Config σ Ask Answer Out} {mv : Move Ask Answer Entry} (hm : Honours m C) (h : C.Kept c)
    (hok : C.Ok c mv) (hc : c.step m mv = some c') : C.Kept c' := by
  cases mv with
  | tick => exact h.tick hc
  | answer q a => exact h.answer hok hc
  | enter e => exact h.enter hm hok hc
  | resume => exact h.resume hc

section Runs

variable [DecidableEq Ask] {m : Machine σ Ask Answer Out Entry} {s₀ : σ} {c : Config σ Ask Answer Out}
  (hm : Honours m C) (h₀ : C.inv C.base s₀ [])
  (hc : ReachedBy (Config.step m) C.Ok (Config.start s₀) c)
include hm h₀ hc

theorem kept_of_reached : C.Kept c := by
  refine hc.invariant (I := C.Kept) ⟨C.base, rfl, h₀⟩ ?_
  intro c mv c' hk hok hstep
  exact hk.step hm hok hstep

/-- Whenever nothing of the code is on the stack, the invariant holds at the base index. -/
theorem inv_of_idle (hidle : c.Idle) : C.inv C.base c.state c.trace := by
  obtain ⟨w, hwaits, hw⟩ := kept_of_reached hm h₀ hc
  obtain ⟨s, t, running, stack⟩ := c
  obtain ⟨hrunning, hstack⟩ := hidle
  obtain rfl := List.isEmpty_iff.mp hstack
  obtain rfl := Option.isNone_iff_eq_none.mp hrunning
  obtain rfl : w = C.base := hwaits
  exact hw

/-- Whenever the environment has control, the invariant holds at some index. -/
theorem inv_of_control (hcontrol : c.running = none) : ∃ w, C.inv w c.state c.trace := by
  obtain ⟨w, -, hw⟩ := kept_of_reached hm h₀ hc
  rw [hcontrol] at hw
  exact ⟨w, hw⟩

/-- Every step of the code changes the state only as the contract says. -/
theorem changes_of_step {c' : Config σ Ask Answer Out} {mv : Move Ask Answer Entry}
    (hstep : c.step m mv = some c') : C.changes c.state c'.state := by
  obtain ⟨w, -, hw⟩ := kept_of_reached hm h₀ hc
  obtain ⟨s, t, running, stack⟩ := c
  cases mv with
  | tick =>
    cases running with
    | none => cases hstep
    | some p =>
      cases p with
      | step f k =>
        obtain rfl := Option.some.inj hstep
        exact hw.1
      | ask q k => cases hstep
      | _ =>
        obtain rfl := Option.some.inj hstep
        exact C.changes_refl s
  | answer q a =>
    obtain ⟨hs, -⟩ := Config.state_trace_of_answer hstep
    exact hs ▸ C.changes_refl s
  | enter e =>
    obtain ⟨hs, -⟩ := Config.state_trace_of_enter hstep
    exact hs ▸ C.changes_refl s
  | resume =>
    obtain ⟨hs, -⟩ := Config.state_trace_of_resume hstep
    exact hs ▸ C.changes_refl s

theorem atAct_of_acts {e : Out} (he : c.Acts e) : C.atAct e c.state c.trace := by
  obtain ⟨k, hk⟩ := he
  obtain ⟨w, -, hw⟩ := kept_of_reached hm h₀ hc
  rcases hk with hk | hk <;> rw [hk] at hw <;> exact hw.1

/-- A property of the state that every change keeps. -/
theorem state_of_reached {P : σ → Prop} (hstart : P s₀) (hstep : ∀ s s', C.changes s s' → P s → P s') : P c.state := by
  refine (hc.invariant (I := fun c => ReachedBy (Config.step m) C.Ok (Config.start s₀) c ∧ P c.state) ⟨.start, hstart⟩ ?_).2
  rintro c mv c' ⟨hreached, hP⟩ hok hmove
  exact ⟨.step hreached hok hmove, hstep _ _ (changes_of_step hm h₀ hreached hmove) hP⟩

/-- A property of what was observed that every action keeps. -/
theorem trace_of_reached {P : List Out → Prop} (hnil : P [])
    (hact : ∀ e s t, C.atAct e s t → P t → P (e :: t)) : P c.trace := by
  refine (hc.invariant (I := fun c => C.Kept c ∧ P c.trace) ⟨⟨C.base, rfl, h₀⟩, hnil⟩ ?_).2
  rintro c mv c' ⟨hk, hP⟩ hok hstep
  refine ⟨hk.step hm hok hstep, ?_⟩
  obtain ⟨w, -, hw⟩ := hk
  obtain ⟨s, t, running, stack⟩ := c
  cases mv with
  | tick =>
    cases running with
    | none => cases hstep
    | some p =>
      cases p with
      | note e k =>
        obtain rfl := Option.some.inj hstep
        exact hact e s t hw.1 hP
      | callout e k =>
        obtain rfl := Option.some.inj hstep
        exact hact e s t hw.1 hP
      | ask q k => cases hstep
      | _ =>
        obtain rfl := Option.some.inj hstep
        exact hP
  | answer q a =>
    obtain ⟨-, ht⟩ := Config.state_trace_of_answer hstep
    exact ht ▸ hP
  | enter e =>
    obtain ⟨-, ht⟩ := Config.state_trace_of_enter hstep
    exact ht ▸ hP
  | resume =>
    obtain ⟨-, ht⟩ := Config.state_trace_of_resume hstep
    exact ht ▸ hP

end Runs

/-! ### Rules -/

/-- From states and callouts that meet `P`, the program keeps the contract and ends in `Q`. -/
def Spec (C : Contract σ Ask Answer Out Entry ω) (P : σ → List Out → Prop)
    (p : Prog σ Ask Answer Out α) (Q : α → σ → List Out → Prop) : Prop :=
  ∀ s t, P s t → C.Safe p Q s t

variable {P P' : σ → List Out → Prop} {p : Prog σ Ask Answer Out α}
  {g : α → Prog σ Ask Answer Out β}

theorem Spec.pre (h : C.Spec P p Q) (hP : ∀ s t, P' s t → P s t) : C.Spec P' p Q :=
  fun s t hs => h s t (hP s t hs)

theorem Spec.post (h : C.Spec P p Q) (hQ : ∀ a s t, Q a s t → Q' a s t) : C.Spec P p Q' :=
  fun s t hs => (h s t hs).mono hQ

/-- Code that is not reached. -/
theorem Spec.vacuous (h : ∀ s t, ¬ P s t) : C.Spec P p Q := fun s t hs => (h s t hs).elim

theorem Spec.pure {a : α} (h : ∀ s t, P s t → Q a s t) :
    C.Spec P (Pure.pure a : Prog σ Ask Answer Out α) Q := h

theorem Spec.bind (hp : C.Spec P p Q) (hg : ∀ a, C.Spec (Q a) (g a) R) : C.Spec P (p >>= g) R :=
  fun s t hs => Safe.bind ((hp s t hs).mono fun a s t hq => hg a s t hq)

/-- Code that reads the state first. -/
theorem Spec.get {g : σ → Prog σ Ask Answer Out β}
    (h : ∀ v, C.Spec (fun s t => s = v ∧ P s t) (g v) R) : C.Spec P (Prog.get >>= g) R :=
  fun s t hs => ⟨C.changes_refl s, h s s t ⟨rfl, hs⟩⟩

theorem Spec.modify {f : σ → σ} {Q : Unit → σ → List Out → Prop}
    (h : ∀ s t, P s t → C.changes s (f s) ∧ Q () (f s) t) : C.Spec P (Prog.modify f) Q := h

theorem Spec.query {q : Ask} {Q : Answer q → σ → List Out → Prop}
    (h : ∀ s t a, P s t → C.okAnswer s q a → Q a s t) : C.Spec P (Prog.query q) Q :=
  fun s t hs a ha => h s t a hs ha

theorem Spec.record {e : Out} {Q : Unit → σ → List Out → Prop}
    (h : ∀ s t, P s t → C.atAct e s t ∧ Q () s (e :: t)) : C.Spec P (Prog.record e) Q := h

/-- A callout: give up the invariant at an index, get it back in a later state. -/
theorem Spec.call {e : Out} {Q : Unit → σ → List Out → Prop}
    (h : ∀ s t, P s t → C.atAct e s t ∧ ∃ w, C.inv w s (e :: t) ∧
      ∀ s' t', C.Later s s' → e :: t <:+ t' → C.inv w s' t' → Q () s' t') :
    C.Spec P (Prog.call e) Q := h

theorem Spec.ite {c : Prop} [Decidable c] {p' : Prog σ Ask Answer Out α}
    (h : c → C.Spec P p Q) (h' : ¬ c → C.Spec P p' Q) : C.Spec P (if c then p else p') Q := by
  split
  · exact h ‹_›
  · exact h' ‹_›

/-- A loop over a list; the invariant speaks about what is left of it. -/
theorem Spec.each {body : β → Prog σ Ask Answer Out Unit} {J : List β → σ → List Out → Prop}
    {bs : List β} (h : ∀ b bs, C.Spec (J (b :: bs)) (body b) fun _ => J bs) :
    C.Spec (J bs) (Prog.each body bs) fun _ => J [] := by
  induction bs with
  | nil => exact Spec.pure fun _ _ hJ => hJ
  | cons b bs ih => exact Spec.bind (h b bs) fun _ => ih

theorem Spec.loop {body : β → Prog σ Ask Answer Out (β ⊕ γ)} {J : β → σ → List Out → Prop}
    {Q : γ → σ → List Out → Prop} {b : β}
    (h : ∀ b, C.Spec (J b) (body b) fun r s t => match r with
      | .inl b' => J b' s t
      | .inr c => Q c s t) :
    C.Spec (J b) (Prog.loop body b) Q :=
  fun _ _ hs => ⟨J, hs, h⟩

theorem Spec.onlyIf {b : Bool} {p : Prog σ Ask Answer Out Unit} {Q : Unit → σ → List Out → Prop}
    (h : b = true → C.Spec P p Q) (h' : b = false → ∀ s t, P s t → Q () s t) :
    C.Spec P (Prog.onlyIf b p) Q := by
  cases b with
  | false => exact Spec.pure (h' rfl)
  | true => exact h rfl

theorem Spec.whileTrue {cond : σ → Bool} {body : Prog σ Ask Answer Out Unit}
    (h : C.Spec (fun s t => P s t ∧ cond s = true) body fun _ => P) :
    C.Spec P (Prog.whileTrue cond body) fun _ s t => P s t ∧ cond s = false := by
  refine Spec.loop (J := fun _ => P) fun _ => Spec.get fun v => ?_
  refine Spec.ite (fun hv => Spec.bind (h.pre ?_) fun _ => Spec.pure fun _ _ hP => hP) fun hv =>
    Spec.pure ?_
  · rintro s t ⟨rfl, hs⟩
    exact ⟨hs, hv⟩
  · rintro s t ⟨rfl, hs⟩
    exact ⟨hs, Bool.eq_false_iff.mpr hv⟩

/-! ### Programs that keep a property -/

/-- The program may start and end wherever `P` holds. -/
def Keeps (C : Contract σ Ask Answer Out Entry ω) (P : σ → List Out → Prop)
    (p : Prog σ Ask Answer Out α) : Prop := C.Spec P p fun _ => P

theorem Keeps.pure (a : α) : C.Keeps P (Pure.pure a : Prog σ Ask Answer Out α) :=
  Spec.pure fun _ _ h => h

theorem Keeps.bind (hp : C.Keeps P p) (hg : ∀ a, C.Keeps P (g a)) : C.Keeps P (p >>= g) :=
  Spec.bind hp hg

theorem Keeps.get {g : σ → Prog σ Ask Answer Out β} (h : ∀ v, C.Keeps P (g v)) :
    C.Keeps P (Prog.get >>= g) :=
  Spec.get fun v => (h v).pre fun _ _ hs => hs.2

theorem Keeps.read : C.Keeps P Prog.get := Keeps.get (g := Pure.pure) fun _ => Keeps.pure _

theorem Keeps.query (q : Ask) : C.Keeps P (Prog.query q) := Spec.query fun _ _ _ h _ => h

theorem Keeps.ite {c : Prop} [Decidable c] {p' : Prog σ Ask Answer Out α} (h : C.Keeps P p)
    (h' : C.Keeps P p') : C.Keeps P (if c then p else p') :=
  Spec.ite (fun _ => h) fun _ => h'

theorem Keeps.onlyIf {b : Bool} {p : Prog σ Ask Answer Out Unit} (h : C.Keeps P p) :
    C.Keeps P (Prog.onlyIf b p) :=
  Spec.onlyIf (fun _ => h) fun _ _ _ hP => hP

theorem Keeps.onSome {o : Option β} {p : β → Prog σ Ask Answer Out Unit} (h : ∀ b, C.Keeps P (p b)) :
    C.Keeps P (Prog.onSome o p) := by
  cases o with
  | none => exact Keeps.pure ()
  | some b => exact h b

theorem Keeps.each {body : β → Prog σ Ask Answer Out Unit} {bs : List β}
    (h : ∀ b, C.Keeps P (body b)) : C.Keeps P (Prog.each body bs) :=
  Spec.each (J := fun _ => P) fun b _ => h b

theorem Keeps.loop {body : β → Prog σ Ask Answer Out (β ⊕ γ)} {b : β}
    (h : ∀ b, C.Keeps P (body b)) : C.Keeps P (Prog.loop body b) :=
  Spec.loop (J := fun _ => P) fun b => (h b).post fun
    | .inl _, _, _, hP => hP
    | .inr _, _, _, hP => hP

theorem Keeps.whileTrue {cond : σ → Bool} {body : Prog σ Ask Answer Out Unit} (h : C.Keeps P body) :
    C.Keeps P (Prog.whileTrue cond body) :=
  (Spec.whileTrue (h.pre fun _ _ hP => hP.1)).post fun _ _ _ hP => hP.1

end Contract

end Webchannel.Reentrant
