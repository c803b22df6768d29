import Webchannel.Lib.Reentrant
import Mathlib.Data.List.Forall2

/-!
# Watched runs

A run together with an observation that is folded over it: the answers that the code is given,
the actions that it takes, and the entries that begin and end. A watched program does what the
program does and keeps the observation up to date, so an invariant can speak of what the run
did. Callouts that return at once give the environment no control.
-/

namespace Webchannel.Reentrant

open Webchannel.Runs

structure Observer (σ Ask : Type) (Answer : Ask → Type) (Out Entry γ : Type) where
  answered : σ → (q : Ask) → Answer q → γ → γ
  acted : σ → Out → γ → γ
  entered : Entry → γ → γ
  left : γ → γ
  returns : Out → Bool

variable {σ Ask : Type} {Answer : Ask → Type} {Out Entry γ ω α β δ : Type}

namespace Prog

variable (o : Observer σ Ask Answer Out Entry γ)

def watch : {α : Type} → Prog σ Ask Answer Out α → Prog (σ × γ) Ask Answer Out α
  | _, .done a => .done a
  | _, .step f k => .step (fun x => (f x.1, x.2)) fun x => (k x.1).watch
  | _, .ask q k => .ask q fun a => .step (fun x => (x.1, o.answered x.1 q a x.2)) fun _ => (k a).watch
  | _, .note e k => .step (fun x => (x.1, o.acted x.1 e x.2)) fun _ => .note e k.watch
  | _, .callout e k => .step (fun x => (x.1, o.acted x.1 e x.2)) fun _ =>
      if o.returns e then .note e k.watch else .callout e k.watch
  | _, .iter body b k => .iter (fun b => (body b).watch) b fun c => (k c).watch

theorem watch_bind (p : Prog σ Ask Answer Out α) (g : α → Prog σ Ask Answer Out β) :
    (p.bind g).watch o = (p.watch o).bind fun a => (g a).watch o := by
  induction p with
  | done a => rfl
  | step f k ih => exact congrArg (Prog.step _) (funext fun x => ih x.1 g)
  | ask q k ih => exact congrArg (Prog.ask q) (funext fun a => congrArg (Prog.step _) (funext fun _ => ih a g))
  | note e k ih => exact congrArg (Prog.step _) (funext fun _ => congrArg (Prog.note e) (ih g))
  | callout e k ih =>
    refine congrArg (Prog.step _) (funext fun _ => ?_)
    show (if o.returns e then Prog.note e ((k.bind g).watch o) else .callout e ((k.bind g).watch o)) =
      (if o.returns e then Prog.note e (k.watch o) else .callout e (k.watch o)).bind _
    split
    · exact congrArg (Prog.note e) (ih g)
    · exact congrArg (Prog.callout e) (ih g)
  | iter body b k _ ih => exact congrArg (Prog.iter _ b) (funext fun c => ih c g)

theorem bind_assoc (p : Prog σ Ask Answer Out α) (g : α → Prog σ Ask Answer Out β)
    (h : β → Prog σ Ask Answer Out δ) : (p.bind g).bind h = p.bind fun a => (g a).bind h := by
  induction p with
  | done a => rfl
  | step f k ih => exact congrArg (Prog.step f) (funext fun s => ih s g)
  | ask q k ih => exact congrArg (Prog.ask q) (funext fun a => ih a g)
  | note e k ih => exact congrArg (Prog.note e) (ih g)
  | callout e k ih => exact congrArg (Prog.callout e) (ih g)
  | iter body b k _ ih => exact congrArg (Prog.iter body b) (funext fun c => ih c g)

end Prog

/-- The entries keep the observation of what is called: it learns of an entry when it begins and
when it ends. -/
def Machine.watch (m : Machine σ Ask Answer Out Entry) (o : Observer σ Ask Answer Out Entry γ) :
    Machine (σ × γ) Ask Answer Out Entry where
  body e := do
    Prog.modify fun x => (x.1, o.entered e x.2)
    (m.body e).watch o
    Prog.modify fun x => (x.1, o.left x.2)
  admits top x e := m.admits top x.1 e

/-! ### Forgetting the observation -/

section Erase

variable (o : Observer σ Ask Answer Out Entry γ)

/-- How an entry ends. -/
def Observer.leave : Prog (σ × γ) Ask Answer Out Unit := Prog.modify fun x => (x.1, o.left x.2)

/-- What is left of a watched entry, and what is left of the entry. -/
inductive Erases : Prog (σ × γ) Ask Answer Out Unit → Prog σ Ask Answer Out Unit → Prop where
  | watch (p : Prog σ Ask Answer Out Unit) : Erases ((p.watch o).bind fun _ => o.leave) p
  | observe {p' p} (h : σ × γ → γ) (hp : Erases p' p) : Erases (.step (fun x => (x.1, h x)) fun _ => p') p
  | note {p' p} (e : Out) (hp : Erases p' p) : Erases (.note e p') (.note e p)
  | callout {p' p} (e : Out) (hp : Erases p' p) : Erases (.callout e p') (.callout e p)
  | returns {p' p} (e : Out) (hp : Erases p' p) : Erases (.note e p') (.callout e p)
  | done : Erases (.done ()) (.done ())

/-- The two configurations differ in the observation only. -/
structure Config.Erased (c : Config (σ × γ) Ask Answer Out) (d : Config σ Ask Answer Out) : Prop where
  state : c.state.1 = d.state
  trace : c.trace = d.trace
  running : Option.Rel (Erases o) c.running d.running
  stack : List.Forall₂ (Erases o) c.stack d.stack

namespace Config.Erased

variable {o} [DecidableEq Ask] {m : Machine σ Ask Answer Out Entry} {c c' : Config (σ × γ) Ask Answer Out}
  {d : Config σ Ask Answer Out}

omit [DecidableEq Ask] in
theorem start (s : σ) (g : γ) :
    Erased o (Config.start (s, g) : Config (σ × γ) Ask Answer Out) (Config.start s) :=
  ⟨rfl, rfl, .none, .nil⟩

theorem tick (h : c.Erased o d) (hc : c.tick = some c') :
    ∃ d', Reached (Config.step m) d d' ∧ c'.Erased o d' := by
  obtain ⟨⟨s, g⟩, t, running, stack⟩ := c
  obtain ⟨s', t', running', stack'⟩ := d
  obtain ⟨rfl : s = s', rfl : t = t', hrunning, hstack⟩ := h
  cases hrunning with
  | none => cases hc
  | @some _ p hp =>
    cases hp with
    | watch =>
      cases p with
      | done a =>
        obtain rfl := Option.some.inj hc
        exact ⟨_, .start, rfl, rfl, .some .done, hstack⟩
      | step f k =>
        obtain rfl := Option.some.inj hc
        exact ⟨_, .step (a := .tick) .start rfl, rfl, rfl, .some (.watch _), hstack⟩
      | ask q k => cases hc
      | note e k =>
        obtain rfl := Option.some.inj hc
        exact ⟨_, .start, rfl, rfl, .some (.note e (.watch k)), hstack⟩
      | callout e k =>
        obtain rfl := Option.some.inj hc
        refine ⟨_, .start, rfl, rfl, .some ?_, hstack⟩
        show Erases o ((if o.returns e then Prog.note e (k.watch o) else .callout e (k.watch o)).bind _) _
        split
        · exact .returns e (.watch k)
        · exact .callout e (.watch k)
      | iter body b k =>
        obtain rfl := Option.some.inj hc
        refine ⟨_, .step (a := .tick) .start rfl, rfl, rfl, .some ?_, hstack⟩
        have hround : Prog.unroll (fun b => (body b).watch o) b (fun c => ((k c).watch o).bind fun _ => o.leave) =
            ((Prog.unroll body b k).watch o).bind fun _ => o.leave := by
          rw [Prog.unroll, Prog.unroll, Prog.watch_bind, Prog.bind_assoc]
          congr 1
          funext r
          cases r <;> rfl
        show Erases o (Prog.unroll _ b _) (Prog.unroll body b k)
        rw [hround]
        exact .watch _
    | observe h hp =>
      obtain rfl := Option.some.inj hc
      exact ⟨_, .start, rfl, rfl, .some hp, hstack⟩
    | note e hp =>
      obtain rfl := Option.some.inj hc
      exact ⟨_, .step (a := .tick) .start rfl, rfl, rfl, .some hp, hstack⟩
    | callout e hp =>
      obtain rfl := Option.some.inj hc
      exact ⟨_, .step (a := .tick) .start rfl, rfl, rfl, .none, .cons hp hstack⟩
    | returns e hp =>
      obtain rfl := Option.some.inj hc
      exact ⟨_, .step (a := .resume) (.step (a := .tick) .start rfl) rfl, rfl, rfl, .some hp, hstack⟩
    | done =>
      obtain rfl := Option.some.inj hc
      exact ⟨_, .step (a := .tick) .start rfl, rfl, rfl, .none, hstack⟩

theorem answer {q : Ask} {a : Answer q} (h : c.Erased o d) (hc : c.answer q a = some c') :
    ∃ d', Reached (Config.step m) d d' ∧ c'.Erased o d' := by
  obtain ⟨⟨s, g⟩, t, running, stack⟩ := c
  obtain ⟨s', t', running', stack'⟩ := d
  obtain ⟨rfl : s = s', rfl : t = t', hrunning, hstack⟩ := h
  cases hrunning with
  | none => cases hc
  | @some _ p hp =>
    cases hp with
    | watch =>
      cases p with
      | ask q' k =>
        simp only [Config.answer, Prog.watch, Prog.bind] at hc
        split at hc
        · rename_i hq
          subst hq
          obtain rfl := Option.some.inj hc
          exact ⟨_, .step (a := .answer q a) .start (dif_pos rfl), rfl, rfl, .some (.observe _ (.watch _)), hstack⟩
        · cases hc
      | callout e k => cases hc
      | _ => cases hc
    | _ => cases hc

theorem enter {e : Entry} (h : c.Erased o d) (hc : c.enter (m.watch o) e = some c') :
    ∃ d', Reached (Config.step m) d d' ∧ c'.Erased o d' := by
  obtain ⟨⟨s, g⟩, t, running, stack⟩ := c
  obtain ⟨s', t', running', stack'⟩ := d
  obtain ⟨rfl : s = s', rfl : t = t', hrunning, hstack⟩ := h
  have hempty : stack'.isEmpty = stack.isEmpty := by
    cases hstack <;> rfl
  cases hrunning with
  | none =>
    simp only [Config.enter] at hc
    split at hc
    · rename_i hadmits
      obtain rfl := Option.some.inj hc
      refine ⟨⟨s, t, some (m.body e), stack'⟩, .step (a := .enter e) .start ?_, rfl, rfl,
        .some (.observe _ (.watch _)), hstack⟩
      exact if_pos (hempty ▸ hadmits)
    · cases hc
  | some hp => cases hc

theorem resume (h : c.Erased o d) (hc : c.resume = some c') :
    ∃ d', Reached (Config.step m) d d' ∧ c'.Erased o d' := by
  obtain ⟨⟨s, g⟩, t, running, stack⟩ := c
  obtain ⟨s', t', running', stack'⟩ := d
  obtain ⟨rfl : s = s', rfl : t = t', hrunning, hstack⟩ := h
  cases hrunning with
  | none =>
    cases hstack with
    | nil => cases hc
    | cons hp hrest =>
      obtain rfl := Option.some.inj hc
      exact ⟨_, .step (a := .resume) .start rfl, rfl, rfl, .some hp, hrest⟩
  | some hp => cases hc

/-- Every watched run is a run of the machine. -/
theorem of_reachedBy {ok : Config (σ × γ) Ask Answer Out → Move Ask Answer Entry → Prop} {s : σ} {g : γ}
    (h : ReachedBy (Config.step (m.watch o)) ok (.start (s, g)) c) :
    ∃ d, Reached (Config.step m) (.start s) d ∧ c.Erased o d := by
  refine h.invariant (I := fun c => ∃ d, Reached (Config.step m) (.start s) d ∧ c.Erased o d)
    ⟨_, .start, start s g⟩ ?_
  rintro c mv c' ⟨d, hd, herased⟩ - hstep
  obtain ⟨d', hd', herased'⟩ : ∃ d', Reached (Config.step m) d d' ∧ c'.Erased o d' := by
    cases mv with
    | tick => exact herased.tick hstep
    | answer q a => exact herased.answer hstep
    | enter e => exact herased.enter hstep
    | resume => exact herased.resume hstep
  exact ⟨d', ReachedBy.trans hd hd', herased'⟩

omit [DecidableEq Ask] in
/-- Nothing is on the stack of the one run just when nothing is on that of the other. -/
theorem idle_iff (h : c.Erased o d) : c.Idle ↔ d.Idle := by
  obtain ⟨⟨s, g⟩, t, running, stack⟩ := c
  obtain ⟨s', t', running', stack'⟩ := d
  obtain ⟨rfl : s = s', rfl : t = t', hrunning, hstack⟩ := h
  cases hrunning <;> cases hstack <;> simp [Config.Idle]

end Config.Erased

end Erase

/-! ### Rules -/

namespace Contract

variable (C : Contract (σ × γ) Ask Answer Out Entry ω) (o : Observer σ Ask Answer Out Entry γ)

/-- From states and observations that meet `P`, the watched program keeps the contract and ends
in `Q`. What was observed stands in for the trace. -/
def Meets (P : σ × γ → Prop) (p : Prog σ Ask Answer Out α) (Q : α → σ × γ → Prop) : Prop :=
  C.Spec (fun x _ => P x) (p.watch o) fun a x _ => Q a x

/-- The program may start and end wherever `P` holds. -/
def Preserves (P : σ × γ → Prop) (p : Prog σ Ask Answer Out α) : Prop := C.Meets o P p fun _ => P

variable {C o} {P P' : σ × γ → Prop} {p : Prog σ Ask Answer Out α} {Q Q' : α → σ × γ → Prop}
  {R : β → σ × γ → Prop} {g : α → Prog σ Ask Answer Out β}

theorem Meets.pre (h : C.Meets o P p Q) (hP : ∀ x, P' x → P x) : C.Meets o P' p Q :=
  Spec.pre h fun x _ => hP x

theorem Meets.post (h : C.Meets o P p Q) (hQ : ∀ a x, Q a x → Q' a x) : C.Meets o P p Q' :=
  Spec.post h fun a x _ => hQ a x

/-- A rule for each of the states that meet `P`. -/
theorem Meets.each_state (h : ∀ x, P x → C.Meets o (· = x) p Q) : C.Meets o P p Q :=
  fun x t hx => h x hx x t rfl

/-- What holds in every state that meets `P`, whatever the state is. -/
theorem Meets.of_fact {F : Prop} (hF : ∀ x, P x → F) (h : F → C.Meets o P p Q) : C.Meets o P p Q :=
  fun x t hx => h (hF x hx) x t hx

theorem Meets.pure {a : α} (h : ∀ x, P x → Q a x) : C.Meets o P (Pure.pure a : Prog σ Ask Answer Out α) Q :=
  Spec.pure fun x _ => h x

theorem Meets.bind (hp : C.Meets o P p Q) (hg : ∀ a, C.Meets o (Q a) (g a) R) : C.Meets o P (p >>= g) R := by
  show C.Spec _ ((p.bind g).watch o) _
  rw [Prog.watch_bind]
  exact Spec.bind hp hg

theorem Meets.get {g : σ → Prog σ Ask Answer Out β} (h : ∀ s, C.Meets o (fun x => x.1 = s ∧ P x) (g s) R) :
    C.Meets o P (Prog.get >>= g) R :=
  fun x t hx => ⟨C.changes_refl x, h x.1 x t ⟨rfl, hx⟩⟩

theorem Meets.modify {f : σ → σ} {Q : Unit → σ × γ → Prop}
    (h : ∀ s g, P (s, g) → C.changes (s, g) (f s, g) ∧ Q () (f s, g)) : C.Meets o P (Prog.modify f) Q :=
  fun x _ hx => h x.1 x.2 hx

theorem Meets.query {q : Ask} {Q : Answer q → σ × γ → Prop}
    (h : ∀ s g a, P (s, g) → C.okAnswer (s, g) q a →
      C.changes (s, g) (s, o.answered s q a g) ∧ Q a (s, o.answered s q a g)) :
    C.Meets o P (Prog.query q) Q :=
  fun x _ hx a ha => h x.1 x.2 a hx ha

theorem Meets.record {e : Out} {Q : Unit → σ × γ → Prop}
    (h : ∀ s g, P (s, g) → C.changes (s, g) (s, o.acted s e g) ∧ (∀ t, C.atAct e (s, o.acted s e g) t) ∧
      Q () (s, o.acted s e g)) : C.Meets o P (Prog.record e) Q :=
  fun x t hx => ⟨(h x.1 x.2 hx).1, (h x.1 x.2 hx).2.1 t, (h x.1 x.2 hx).2.2⟩

/-- A callout that returns at once. -/
theorem Meets.call_returns {e : Out} {Q : Unit → σ × γ → Prop} (he : o.returns e = true)
    (h : ∀ s g, P (s, g) → C.changes (s, g) (s, o.acted s e g) ∧ (∀ t, C.atAct e (s, o.acted s e g) t) ∧
      Q () (s, o.acted s e g)) : C.Meets o P (Prog.call e) Q := by
  intro x t hx
  refine ⟨(h x.1 x.2 hx).1, ?_⟩
  show C.Safe (if o.returns e then _ else _) _ _ _
  rw [if_pos he]
  exact ⟨(h x.1 x.2 hx).2.1 t, (h x.1 x.2 hx).2.2⟩

/-- A callout: give up the invariant at an index, get it back in a later state. -/
theorem Meets.call {e : Out} {Q : Unit → σ × γ → Prop} (he : o.returns e = false)
    (h : ∀ s g t, P (s, g) → C.changes (s, g) (s, o.acted s e g) ∧ C.atAct e (s, o.acted s e g) t ∧
      ∃ w, C.inv w (s, o.acted s e g) (e :: t) ∧ ∀ x' t', C.inv w x' t' → Q () x') :
    C.Meets o P (Prog.call e) Q := by
  intro x t hx
  obtain ⟨hchanges, hat, w, hw, hback⟩ := h x.1 x.2 t hx
  refine ⟨hchanges, ?_⟩
  show C.Safe (if o.returns e then _ else _) _ _ _
  rw [if_neg (Bool.eq_false_iff.mp he)]
  exact ⟨hat, w, hw, fun x' t' _ _ hinv => hback x' t' hinv⟩

theorem Meets.ite {c : Prop} [Decidable c] {p' : Prog σ Ask Answer Out α} (h : c → C.Meets o P p Q)
    (h' : ¬ c → C.Meets o P p' Q) : C.Meets o P (if c then p else p') Q := by
  split
  · exact h ‹_›
  · exact h' ‹_›

theorem Meets.onlyIf {b : Bool} {p : Prog σ Ask Answer Out Unit} {Q : Unit → σ × γ → Prop}
    (h : b = true → C.Meets o P p Q) (h' : b = false → ∀ x, P x → Q () x) : C.Meets o P (Prog.onlyIf b p) Q := by
  cases b with
  | false => exact Meets.pure (h' rfl)
  | true => exact h rfl

theorem Meets.loop {body : β → Prog σ Ask Answer Out (β ⊕ δ)} {J : β → σ × γ → Prop} {Q : δ → σ × γ → Prop} {b : β}
    (h : ∀ b, C.Meets o (J b) (body b) fun r x => match r with
      | .inl b' => J b' x
      | .inr c => Q c x) :
    C.Meets o (J b) (Prog.loop body b) Q :=
  fun _ _ hx => ⟨fun b x _ => J b x, hx, fun b x t hb => (h b x t hb).mono fun
    | .inl _, _, _, hJ => hJ
    | .inr _, _, _, hQ => hQ⟩

theorem Preserves.pure (a : α) : C.Preserves o P (Pure.pure a : Prog σ Ask Answer Out α) :=
  Meets.pure fun _ h => h

theorem Preserves.bind (hp : C.Preserves o P p) (hg : ∀ a, C.Preserves o P (g a)) : C.Preserves o P (p >>= g) :=
  Meets.bind hp hg

theorem Preserves.get {g : σ → Prog σ Ask Answer Out β} (h : ∀ s, C.Preserves o P (g s)) :
    C.Preserves o P (Prog.get >>= g) :=
  Meets.get fun s => (h s).pre fun _ hx => hx.2

theorem Preserves.ite {c : Prop} [Decidable c] {p' : Prog σ Ask Answer Out α} (h : C.Preserves o P p)
    (h' : C.Preserves o P p') : C.Preserves o P (if c then p else p') :=
  Meets.ite (fun _ => h) fun _ => h'

theorem Preserves.onlyIf {b : Bool} {p : Prog σ Ask Answer Out Unit} (h : C.Preserves o P p) :
    C.Preserves o P (Prog.onlyIf b p) :=
  Meets.onlyIf (fun _ => h) fun _ _ hP => hP

theorem Preserves.onSome {v : Option β} {p : β → Prog σ Ask Answer Out Unit} (h : ∀ b, C.Preserves o P (p b)) :
    C.Preserves o P (Prog.onSome v p) := by
  cases v with
  | none => exact Preserves.pure ()
  | some b => exact h b

theorem Preserves.each {body : β → Prog σ Ask Answer Out Unit} {bs : List β} (h : ∀ b, C.Preserves o P (body b)) :
    C.Preserves o P (Prog.each body bs) := by
  induction bs with
  | nil => exact Preserves.pure ()
  | cons b bs ih => exact Preserves.bind (h b) fun _ => ih

theorem Preserves.loop {body : β → Prog σ Ask Answer Out (β ⊕ δ)} {b : β} (h : ∀ b, C.Preserves o P (body b)) :
    C.Preserves o P (Prog.loop body b) :=
  Meets.loop (J := fun _ => P) fun b => (h b).post fun
    | .inl _, _, hP => hP
    | .inr _, _, hP => hP

/-- A loop whose body may rely on its condition. -/
theorem Preserves.whileTrue {cond : σ → Bool} {body : Prog σ Ask Answer Out Unit}
    (h : C.Meets o (fun x => P x ∧ cond x.1 = true) body fun _ => P) : C.Preserves o P (Prog.whileTrue cond body) := by
  refine Meets.loop (J := fun _ => P) fun _ => Meets.get fun s => Meets.ite (fun hs => ?_) fun _ => Meets.pure ?_
  · refine Meets.bind (h.pre ?_) fun _ => Meets.pure fun _ hP => hP
    rintro x ⟨rfl, hx⟩
    exact ⟨hx, hs⟩
  · exact fun x hx => hx.2

end Contract

end Webchannel.Reentrant
