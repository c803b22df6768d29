import Webchannel.Lib.Runs

/-!
# Programs that call their environment

Code that talks to its surroundings only through calls, as a tree: it is done, or it makes a
call and goes on with what comes back. Any call may throw. Nothing is assumed about the
answers, so a statement about every run of the tree is one about every environment. `Code`
adds the variables of the function and the exceptions it lets through; its rules of pre- and
postconditions speak about the calls made so far with their answers.
-/

namespace Webchannel.Program

open Webchannel.Runs

/-- `k none` is how the program goes on when the call throws. -/
inductive Prog (Call : Type) (Reply : Call → Type) (α : Type) : Type where
  | done (a : α)
  | ask (c : Call) (k : Option (Reply c) → Prog Call Reply α)

/-- A call with its answer. -/
structure Event (Call : Type) (Reply : Call → Type) where
  call : Call
  reply : Option (Reply call)

/-- The calls made so far, the latest one first. -/
abbrev Trace (Call : Type) (Reply : Call → Type) := List (Event Call Reply)

variable {Call : Type} {Reply : Call → Type} {σ α β : Type}

namespace Trace

/-- The call was made. -/
def Called (t : Trace Call Reply) (c : Call) : Prop := ∃ e ∈ t, e.call = c

/-- The call was made and did not throw. -/
def Returned (t : Trace Call Reply) (c : Call) : Prop := ∃ e ∈ t, e.call = c ∧ e.reply.isSome = true

instance [DecidableEq Call] (t : Trace Call Reply) (c : Call) : Decidable (t.Called c) :=
  inferInstanceAs (Decidable (∃ e ∈ t, e.call = c))

instance [DecidableEq Call] (t : Trace Call Reply) (c : Call) : Decidable (t.Returned c) :=
  inferInstanceAs (Decidable (∃ e ∈ t, e.call = c ∧ e.reply.isSome = true))

theorem called_cons {t : Trace Call Reply} {e : Event Call Reply} {c : Call} :
    Called (e :: t) c ↔ e.call = c ∨ t.Called c := by simp [Called]

theorem Returned.cons {t : Trace Call Reply} {c : Call} (e : Event Call Reply)
    (h : t.Returned c) : Returned (e :: t) c := by
  obtain ⟨e', he', hc⟩ := h
  exact ⟨e', .tail _ he', hc⟩

end Trace

namespace Prog

def bind : Prog Call Reply α → (α → Prog Call Reply β) → Prog Call Reply β
  | .done a, f => f a
  | .ask c k, f => .ask c fun r => (k r).bind f

/-- The answer that comes back must be one to the call that was made. -/
def step [DecidableEq Call] : Prog Call Reply α → Event Call Reply → Option (Prog Call Reply α)
  | .done _, _ => none
  | .ask c k, e => if h : e.call = c then some (k (h ▸ e.reply)) else none

end Prog

structure Config (Call : Type) (Reply : Call → Type) (α : Type) where
  prog : Prog Call Reply α
  trace : Trace Call Reply

namespace Config

def start (p : Prog Call Reply α) : Config Call Reply α := ⟨p, []⟩

def step [DecidableEq Call] (c : Config Call Reply α) (e : Event Call Reply) :
    Option (Config Call Reply α) :=
  (c.prog.step e).map (⟨·, e :: c.trace⟩)

end Config

/-- Code with variables `σ`. It returns a value or, with `none`, throws; either way the
variables keep what was written to them. -/
def Code (Call : Type) (Reply : Call → Type) (σ α : Type) := σ → Prog Call Reply (Option α × σ)

namespace Code

def bind (m : Code Call Reply σ α) (f : α → Code Call Reply σ β) : Code Call Reply σ β := fun s =>
  (m s).bind fun r => match r with
    | (some a, s) => f a s
    | (none, s) => .done (none, s)

instance : Monad (Code Call Reply σ) where
  pure a := fun s => .done (some a, s)
  bind := bind

def call (c : Call) : Code Call Reply σ (Reply c) := fun s => .ask c fun r => .done (r, s)

def throw : Code Call Reply σ α := fun s => .done (none, s)

def get : Code Call Reply σ σ := fun s => .done (some s, s)

def modify (f : σ → σ) : Code Call Reply σ Unit := fun s => .done (some (), f s)

/-- `try m catch`: whether it threw is part of the result. -/
def attempt (m : Code Call Reply σ α) : Code Call Reply σ (Option α) := fun s =>
  (m s).bind fun r => .done (some r.1, r.2)

/-- `try m finally last`: what `last` throws replaces the result. -/
def tryFinally (m : Code Call Reply σ α) (last : Code Call Reply σ Unit) : Code Call Reply σ α :=
  fun s => (m s).bind fun r => (last r.2).bind fun q => match q.1 with
    | some _ => .done (r.1, q.2)
    | none => .done (none, q.2)

/-- A loop over a list. -/
def each (body : β → Code Call Reply σ Unit) : List β → Code Call Reply σ Unit
  | [] => pure ()
  | b :: bs => do
    body b
    each body bs

/-- Does one of the calls answer `true`? The calls after it are not made. -/
def anyOf (test : β → Code Call Reply σ Bool) : List β → Code Call Reply σ Bool
  | [] => pure false
  | b :: bs => do
    if ← test b then pure true else anyOf test bs

end Code

/-! ### Rules -/

section Rules

variable (ok : Trace Call Reply → Event Call Reply → Prop) (P : Trace Call Reply → Prop)

/-- Whatever admitted answers come back, `P` holds after every call and `Q` at the end. -/
def Prog.Safe : Prog Call Reply α → (α → Trace Call Reply → Prop) → Trace Call Reply → Prop
  | .done a, Q, t => Q a t
  | .ask c k, Q, t => ∀ r, ok t ⟨c, r⟩ → P (⟨c, r⟩ :: t) ∧ (k r).Safe Q (⟨c, r⟩ :: t)

/-- From variables and calls that meet `I`, the code keeps to `P` and ends in `Q`. -/
def Spec (I : σ → Trace Call Reply → Prop) (m : Code Call Reply σ α)
    (Q : Option α → σ → Trace Call Reply → Prop) : Prop :=
  ∀ s t, I s t → (m s).Safe ok P (fun r => Q r.1 r.2) t

variable {ok P} {I J : σ → Trace Call Reply → Prop} {m : Code Call Reply σ α}
  {f : α → Code Call Reply σ β} {Q Q' : Option α → σ → Trace Call Reply → Prop}
  {K : Option β → σ → Trace Call Reply → Prop}

theorem Prog.Safe.mono {p : Prog Call Reply α} {t : Trace Call Reply}
    {R R' : α → Trace Call Reply → Prop} (h : p.Safe ok P R t) (hR : ∀ a t, R a t → R' a t) :
    p.Safe ok P R' t := by
  induction p generalizing t with
  | done a => exact hR a t h
  | ask c k ih =>
    intro r hr
    exact ⟨(h r hr).1, ih r (h r hr).2⟩

theorem Prog.Safe.bind {p : Prog Call Reply α} {g : α → Prog Call Reply β} {t : Trace Call Reply}
    {R : β → Trace Call Reply → Prop} (h : p.Safe ok P (fun a => (g a).Safe ok P R) t) :
    (p.bind g).Safe ok P R t := by
  induction p generalizing t with
  | done a => exact h
  | ask c k ih =>
    intro r hr
    exact ⟨(h r hr).1, ih r (h r hr).2⟩

/-- What the rules prove holds in every state of every admitted run. -/
theorem Prog.Safe.reached [DecidableEq Call] {p : Prog Call Reply α}
    {R : α → Trace Call Reply → Prop} (h : p.Safe ok P R []) (h₀ : P [])
    {c : Config Call Reply α}
    (hc : ReachedBy Config.step (fun c e => ok c.trace e) (Config.start p) c) :
    P c.trace ∧ c.prog.Safe ok P R c.trace := by
  refine hc.invariant (I := fun c => P c.trace ∧ c.prog.Safe ok P R c.trace) ⟨h₀, h⟩ ?_
  rintro ⟨p, t⟩ e c' ⟨-, hp⟩ hok hstep
  obtain ⟨p', hp', rfl⟩ := Option.map_eq_some_iff.mp hstep
  cases p with
  | done a => cases hp'
  | ask c k =>
    obtain ⟨c', r⟩ := e
    simp only [Prog.step] at hp'
    split at hp'
    · rename_i hcall
      cases hcall
      obtain rfl := Option.some.inj hp'
      exact hp r hok
    · cases hp'

/-- A fact that further calls cannot undo survives the whole program. -/
theorem Prog.Safe.frame {p : Prog Call Reply α} {t : Trace Call Reply}
    {R : α → Trace Call Reply → Prop} {F : Trace Call Reply → Prop}
    (hF : ∀ e t, F t → F (e :: t)) (h : p.Safe ok P R t) (ht : F t) :
    p.Safe ok P (fun a t => R a t ∧ F t) t := by
  induction p generalizing t with
  | done a => exact ⟨h, ht⟩
  | ask c k ih =>
    intro r hr
    exact ⟨(h r hr).1, ih r (h r hr).2 (hF _ t ht)⟩

theorem Spec.frame {F : Trace Call Reply → Prop} (h : Spec ok P I m Q)
    (hF : ∀ e t, F t → F (e :: t)) :
    Spec ok P (fun s t => I s t ∧ F t) m fun r s t => Q r s t ∧ F t :=
  fun s t hI => (h s t hI.1).frame hF hI.2

theorem Spec.pre (h : Spec ok P I m Q) (hI : ∀ s t, J s t → I s t) : Spec ok P J m Q :=
  fun s t hJ => h s t (hI s t hJ)

theorem Spec.post (h : Spec ok P I m Q) (hQ : ∀ r s t, Q r s t → Q' r s t) : Spec ok P I m Q' :=
  fun s t hI => (h s t hI).mono fun r => hQ r.1 r.2

theorem Spec.pure {a : α} (h : ∀ s t, I s t → Q (some a) s t) :
    Spec ok P I (Pure.pure a : Code Call Reply σ α) Q := h

theorem Spec.throw (h : ∀ s t, I s t → Q none s t) : Spec ok P I (Code.throw (α := α)) Q := h

theorem Spec.modify {g : σ → σ} {Q : Option Unit → σ → Trace Call Reply → Prop}
    (h : ∀ s t, I s t → Q (some ()) (g s) t) : Spec ok P I (Code.modify g) Q := h

theorem Spec.call {c : Call} {Q : Option (Reply c) → σ → Trace Call Reply → Prop}
    (h : ∀ s t r, I s t → ok t ⟨c, r⟩ → P (⟨c, r⟩ :: t) ∧ Q r s (⟨c, r⟩ :: t)) :
    Spec ok P I (Code.call c) Q :=
  fun s t hI r hr => h s t r hI hr

theorem Spec.bind (hm : Spec ok P I m Q) (hf : ∀ a, Spec ok P (Q (some a)) (f a) K)
    (hthrow : ∀ s t, Q none s t → K none s t) : Spec ok P I (m >>= f) K := by
  intro s t hI
  apply Prog.Safe.bind
  refine (hm s t hI).mono ?_
  rintro ⟨_ | a, s'⟩ t' hQ
  · exact hthrow s' t' hQ
  · exact hf a s' t' hQ

/-- Two pieces of code that keep an invariant, also when they throw. -/
theorem Spec.keep_bind (hm : Spec ok P I m fun _ => I) (hf : ∀ a, Spec ok P I (f a) fun _ => I) :
    Spec ok P I (m >>= f) fun _ => I :=
  Spec.bind hm hf fun _ _ hI => hI

/-- Code that reads its variables first. -/
theorem Spec.get {g : σ → Code Call Reply σ β} (h : ∀ v, Spec ok P (fun s t => s = v ∧ I s t) (g v) K) :
    Spec ok P I (Code.get >>= g) K :=
  fun s t hI => h s s t ⟨rfl, hI⟩

theorem Spec.attempt {Q : Option (Option α) → σ → Trace Call Reply → Prop}
    (hm : Spec ok P I m fun r => Q (some r)) : Spec ok P I (Code.attempt m) Q := by
  intro s t hI
  exact Prog.Safe.bind (hm s t hI)

theorem Spec.tryFinally {last : Code Call Reply σ Unit} (hm : Spec ok P I m Q)
    (hlast : ∀ r, Spec ok P (Q r) last fun q s t => Q' (q.bind fun _ => r) s t) :
    Spec ok P I (Code.tryFinally m last) Q' := by
  intro s t hI
  apply Prog.Safe.bind
  refine (hm s t hI).mono ?_
  intro r t' hQ
  apply Prog.Safe.bind
  refine (hlast r.1 r.2 t' hQ).mono ?_
  rintro ⟨_ | u, s'⟩ t'' hQ'
  · exact hQ'
  · exact hQ'

/-- A fact that speaks about neither the variables nor the calls. -/
theorem Spec.of_fact {p : Prop} (h : p → Spec ok P I m Q) : Spec ok P (fun s t => p ∧ I s t) m Q :=
  fun s t hI => h hI.1 s t hI.2

theorem Spec.ite {p : Prop} [Decidable p] {m' : Code Call Reply σ α} (h : p → Spec ok P I m Q)
    (h' : ¬ p → Spec ok P I m' Q) : Spec ok P I (if p then m else m') Q := by
  split
  · exact h ‹_›
  · exact h' ‹_›

/-- A loop over the positions of a list; the invariant speaks about how far it has come. -/
theorem Spec.each_zipIdx {body : β × Nat → Code Call Reply σ Unit} {bs : List β}
    {I : Nat → σ → Trace Call Reply → Prop} {J : σ → Trace Call Reply → Prop} {n : Nat}
    (h : ∀ b ∈ bs.zipIdx n, Spec ok P (I b.2) (body b) fun r s t => r.elim (J s t) fun _ =>
      I (b.2 + 1) s t) :
    Spec ok P (I n) (Code.each body (bs.zipIdx n)) fun r s t => r.elim (J s t) fun _ =>
      I (n + bs.length) s t := by
  induction bs generalizing n with
  | nil => exact Spec.pure fun _ _ hI => hI
  | cons b bs ih =>
    rw [List.zipIdx_cons] at h ⊢
    have hrest := ih fun b hb => h b (.tail _ hb)
    have hlen : n + (b :: bs).length = n + 1 + bs.length := by rw [List.length_cons]; omega
    rw [hlen]
    exact Spec.bind (h _ (.head _)) (fun _ => hrest) fun _ _ hJ => hJ

/-- A loop whose body keeps an invariant until it throws. -/
theorem Spec.each {body : β → Code Call Reply σ Unit} {bs : List β} {J : σ → Trace Call Reply → Prop}
    (h : ∀ b ∈ bs, Spec ok P I (body b) fun r s t => r.elim (J s t) fun _ => I s t) :
    Spec ok P I (Code.each body bs) fun r s t => r.elim (J s t) fun _ => I s t := by
  induction bs with
  | nil => exact Spec.pure fun _ _ hI => hI
  | cons b bs ih =>
    exact Spec.bind (h b (.head _)) (fun _ => ih fun b hb => h b (.tail _ hb)) fun _ _ hJ => hJ

theorem Spec.keep_each {body : β → Code Call Reply σ Unit} {bs : List β}
    (h : ∀ b ∈ bs, Spec ok P I (body b) fun _ => I) :
    Spec ok P I (Code.each body bs) fun _ => I := by
  induction bs with
  | nil => exact Spec.pure fun _ _ hI => hI
  | cons b bs ih => exact Spec.keep_bind (h b (.head _)) fun _ => ih fun b hb => h b (.tail _ hb)

/-- A loop that does not throw has established every fact its rounds establish. -/
theorem Spec.each_collect {body : β → Code Call Reply σ Unit} {bs : List β}
    {F : β → Trace Call Reply → Prop} (hF : ∀ b e t, F b t → F b (e :: t))
    (h : ∀ b ∈ bs, Spec ok P I (body b) fun r s t => I s t ∧ (r = some () → F b t)) :
    Spec ok P I (Code.each body bs) fun r s t => I s t ∧ (r = some () → ∀ b ∈ bs, F b t) := by
  induction bs with
  | nil => exact Spec.pure fun _ _ hI => ⟨hI, fun _ _ hb => by cases hb⟩
  | cons b bs ih =>
    refine Spec.bind (h b (.head _)) (fun _ => ?_) fun _ _ hI => ⟨hI.1, fun hr => by cases hr⟩
    have hrest := (ih fun b hb => h b (.tail _ hb)).frame (F := F b) (hF b)
    refine (hrest.pre fun _ _ hI => ⟨hI.1, hI.2 rfl⟩).post ?_
    rintro r s t ⟨⟨hI, hbs⟩, hb⟩
    refine ⟨hI, fun hr b' hb' => ?_⟩
    rcases List.mem_cons.mp hb' with rfl | hb'
    · exact hb
    · exact hbs hr b' hb'

/-- A search over a list whose test keeps an invariant. -/
theorem Spec.anyOf {test : β → Code Call Reply σ Bool} {bs : List β}
    (h : ∀ b ∈ bs, Spec ok P I (test b) fun _ => I) :
    Spec ok P I (Code.anyOf test bs) fun _ => I := by
  induction bs with
  | nil => exact Spec.pure fun _ _ hI => hI
  | cons b bs ih =>
    refine Spec.bind (h b (.head _)) (fun found => ?_) fun _ _ hI => hI
    exact Spec.ite (fun _ => Spec.pure fun _ _ hI => hI) fun _ => ih fun b hb => h b (.tail _ hb)

end Rules

/-! ### One run -/

/-- With these calls and answers, in the order they are made, the program comes to its end. -/
inductive Prog.RunsTo : Prog Call Reply α → List (Event Call Reply) → α → Prop where
  | done (a : α) : RunsTo (.done a) [] a
  | ask {c : Call} {k : Option (Reply c) → Prog Call Reply α} {r : Option (Reply c)} {es : List (Event Call Reply)} {a : α}
      (h : RunsTo (k r) es a) : RunsTo (.ask c k) (⟨c, r⟩ :: es) a

theorem Prog.RunsTo.bind {p : Prog Call Reply α} {g : α → Prog Call Reply β} {es es' : List (Event Call Reply)} {a : α} {b : β}
    (hp : p.RunsTo es a) (hg : (g a).RunsTo es' b) : (p.bind g).RunsTo (es ++ es') b := by
  induction hp with
  | done a => exact hg
  | ask h ih => exact .ask (ih hg)

theorem Prog.RunsTo.reached [DecidableEq Call] {p : Prog Call Reply α} {es : List (Event Call Reply)} {a : α}
    (h : p.RunsTo es a) (t : Trace Call Reply) : Reached Config.step ⟨p, t⟩ ⟨.done a, es.reverse ++ t⟩ := by
  induction h generalizing t with
  | done a => exact .start
  | @ask c k r es a h ih =>
    rw [List.reverse_cons, List.append_assoc]
    refine (ReachedBy.step (a := ⟨c, r⟩) .start trivial ?_).trans (ih (⟨c, r⟩ :: t))
    have hstep : (Prog.ask c k).step ⟨c, r⟩ = some (k r) := dif_pos rfl
    unfold Config.step
    rw [hstep]
    rfl

/-- A run of code that has variables. -/
def Code.RunsTo (m : Code Call Reply σ α) (s : σ) (es : List (Event Call Reply)) (r : Option α) (s' : σ) : Prop :=
  (m s).RunsTo es (r, s')

namespace Code.RunsTo

variable {s s' s'' : σ} {m : Code Call Reply σ α} {f : α → Code Call Reply σ β} {es es' : List (Event Call Reply)}

theorem pure (a : α) : Code.RunsTo (Pure.pure a : Code Call Reply σ α) s [] (some a) s := .done _

theorem call (c : Call) (r : Option (Reply c)) : Code.RunsTo (Code.call c) s [⟨c, r⟩] r s := .ask (.done _)

theorem bind {a : α} {r : Option β} (hm : m.RunsTo s es (some a) s') (hf : (f a).RunsTo s' es' r s'') :
    (m >>= f).RunsTo s (es ++ es') r s'' := Prog.RunsTo.bind hm hf

theorem attempt {r : Option α} (h : m.RunsTo s es r s') : (Code.attempt m).RunsTo s es (some r) s' := by
  have hrun := Prog.RunsTo.bind (g := fun r : Option α × σ => (.done (some r.1, r.2) : Prog Call Reply _)) h (.done _)
  rwa [List.append_nil] at hrun

end Code.RunsTo

end Webchannel.Program
