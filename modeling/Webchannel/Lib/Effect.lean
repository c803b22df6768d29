import Mathlib.Algebra.BigOperators.Group.List.Basic

/-!
# Stateful code that may throw

A method body is a computation over a mutable state that may throw. A throw
ends the computation but does not undo the writes made before it, so the
exception sits inside the state and not around it.
-/

namespace Webchannel.Effect

variable {ε σ α β : Type}

/-- What succeeds in sequence, succeeds in each part. -/
theorem of_bind_eq_ok {x : Except ε α} {f : α → Except ε β} {b : β} (h : x.bind f = .ok b) :
    ∃ a, x = .ok a ∧ f a = .ok b := by
  cases x with
  | error e => cases h
  | ok a => exact ⟨a, rfl, h⟩

/-- State of type `σ`, exceptions of type `ε`; the state survives a throw. -/
abbrev Eff (ε σ α : Type) := ExceptT ε (StateM σ) α

/-- Run a computation to its outcome and the state it leaves. -/
def exec (m : Eff ε σ α) (s : σ) : Except ε α × σ := m.run.run s

@[simp] theorem exec_pure (a : α) (s : σ) : exec (pure a : Eff ε σ α) s = (.ok a, s) := rfl

@[simp] theorem exec_throw (e : ε) (s : σ) : exec (throw e : Eff ε σ α) s = (.error e, s) := rfl

@[simp] theorem exec_get (s : σ) : exec (get : Eff ε σ σ) s = (.ok s, s) := rfl

@[simp] theorem exec_modify (f : σ → σ) (s : σ) :
    exec (modify f : Eff ε σ PUnit) s = (.ok ⟨⟩, f s) := rfl

/-- Sequencing: a throw skips the continuation and keeps the state. -/
theorem exec_bind (m : Eff ε σ α) (f : α → Eff ε σ β) (s : σ) :
    exec (m >>= f) s = match exec m s with
      | (.ok a, t) => exec (f a) t
      | (.error e, t) => (.error e, t) := by
  change (m.run >>= ExceptT.bindCont f).run s = _
  rcases h : exec m s with ⟨r, t⟩
  change m.run.run s = (r, t) at h
  rw [StateT.run_bind, h]
  cases r <;> rfl

theorem exec_bind_ok {m : Eff ε σ α} {f : α → Eff ε σ β} {s t : σ} {a : α}
    (h : exec m s = (.ok a, t)) : exec (m >>= f) s = exec (f a) t := by
  rw [exec_bind, h]

theorem exec_bind_error {m : Eff ε σ α} {f : α → Eff ε σ β} {s t : σ} {e : ε}
    (h : exec m s = (.error e, t)) : exec (m >>= f) s = (.error e, t) := by
  rw [exec_bind, h]

@[simp] theorem exec_ite (c : Prop) [Decidable c] (m n : Eff ε σ α) (s : σ) :
    exec (if c then m else n) s = if c then exec m s else exec n s := by
  split <;> rfl

/-- A handler runs in the state in which the exception was thrown. -/
theorem exec_tryCatch (m : Eff ε σ α) (h : ε → Eff ε σ α) (s : σ) :
    exec (tryCatch m h) s = match exec m s with
      | (.ok a, t) => (.ok a, t)
      | (.error e, t) => exec (h e) t := by
  rcases hm : exec m s with ⟨r, t⟩
  change m.run.run s = (r, t) at hm
  change ((m.run >>= fun r => match r with
    | .ok a => pure (.ok a)
    | .error e => (h e).run : StateM σ (Except ε α))).run s = _
  rw [StateT.run_bind, hm]
  cases r <;> rfl

/-- Run a computation whose outcome is looked at: it throws nothing itself. -/
def attempt (m : Eff ε σ α) : Eff ε σ (Except ε α) :=
  tryCatch (do let a ← m; pure (.ok a)) fun e => pure (.error e)

/-! ## Pre- and postconditions -/

/-- From a state with `P` the computation ends with `Q` of its value or `E` of its exception. -/
def Triple (P : σ → Prop) (m : Eff ε σ α) (Q : α → σ → Prop) (E : ε → σ → Prop) : Prop :=
  ∀ s, P s → match exec m s with
    | (.ok a, t) => Q a t
    | (.error e, t) => E e t

namespace Triple

variable {P P' : σ → Prop} {Q Q' : α → σ → Prop} {E E' : ε → σ → Prop}

theorem ok {m : Eff ε σ α} {s t : σ} {a : α} (h : Triple P m Q E) (hP : P s)
    (hm : exec m s = (.ok a, t)) : Q a t := by
  have := h s hP
  rw [hm] at this
  exact this

theorem error {m : Eff ε σ α} {s t : σ} {e : ε} (h : Triple P m Q E) (hP : P s)
    (hm : exec m s = (.error e, t)) : E e t := by
  have := h s hP
  rw [hm] at this
  exact this

theorem pure (a : α) (h : ∀ s, P s → Q a s) : Triple P (Pure.pure a : Eff ε σ α) Q E := h

theorem throw (e : ε) (h : ∀ s, P s → E e s) : Triple P (throw e : Eff ε σ α) Q E := h

theorem pointwise {m : Eff ε σ α} (h : ∀ s, P s → Triple (· = s) m Q E) : Triple P m Q E :=
  fun s hs => h s hs s rfl

theorem get_bind {f : σ → Eff ε σ α} (h : ∀ s, P s → Triple (· = s) (f s) Q E) :
    Triple P (get >>= f) Q E := by
  intro s hs
  rw [exec_bind_ok (exec_get s)]
  exact h s hs s rfl

theorem modify_bind {g : σ → σ} {f : PUnit → Eff ε σ α} {R : σ → Prop}
    (h : ∀ s, P s → R (g s)) (hf : Triple R (f ⟨⟩) Q E) : Triple P (modify g >>= f) Q E := by
  intro s hs
  rw [exec_bind_ok (exec_modify g s)]
  exact hf (g s) (h s hs)

theorem modify {g : σ → σ} {R : PUnit → σ → Prop} (h : ∀ s, P s → R ⟨⟩ (g s)) :
    Triple P (modify g : Eff ε σ PUnit) R E := fun s hs => h s hs

theorem bind {m : Eff ε σ β} {f : β → Eff ε σ α} {R : β → σ → Prop} (hm : Triple P m R E)
    (hf : ∀ b, Triple (R b) (f b) Q E) : Triple P (m >>= f) Q E := by
  intro s hs
  rw [exec_bind]
  rcases h : exec m s with ⟨b | b, t⟩
  · exact hm.error hs h
  · exact hf b t (hm.ok hs h)

theorem tryCatch {m : Eff ε σ α} {h : ε → Eff ε σ α} {R : ε → σ → Prop} (hm : Triple P m Q R)
    (hh : ∀ e, Triple (R e) (h e) Q E) : Triple P (tryCatch m h) Q E := by
  intro s hs
  rw [exec_tryCatch]
  rcases hx : exec m s with ⟨e | a, t⟩
  · exact hh e t (hm.error hs hx)
  · exact hm.ok hs hx

theorem attempt {m : Eff ε σ β} {R : Except ε β → σ → Prop} {E' : ε → σ → Prop}
    (hm : Triple P m (fun b => R (.ok b)) fun e => R (.error e)) : Triple P (attempt m) R E' :=
  tryCatch (bind hm fun b => pure (Except.ok b) fun _ h => h) fun e => pure (Except.error e) fun _ h => h

theorem ite {c : Prop} [Decidable c] {m n : Eff ε σ α} (hm : c → Triple P m Q E)
    (hn : ¬ c → Triple P n Q E) : Triple P (if c then m else n) Q E := by
  split
  · exact hm ‹_›
  · exact hn ‹_›

theorem conseq {m : Eff ε σ α} (h : Triple P m Q E) (hP : ∀ s, P' s → P s)
    (hQ : ∀ a s, Q a s → Q' a s) (hE : ∀ e s, E e s → E' e s) : Triple P' m Q' E' := by
  intro s hs
  split
  · rename_i hm
    exact hQ _ _ (h.ok (hP s hs) hm)
  · rename_i hm
    exact hE _ _ (h.error (hP s hs) hm)

/-- A fact that does not depend on the state may be moved out of the precondition. -/
theorem of_pre {m : Eff ε σ α} {p : Prop} (h : p → Triple P m Q E) :
    Triple (fun s => P s ∧ p) m Q E := fun s hs => h hs.2 s hs.1

theorem of_exists {ι : Type} {R : ι → σ → Prop} {m : Eff ε σ α} (h : ∀ i, Triple (R i) m Q E) :
    Triple (fun s => ∃ i, R i s) m Q E := by
  rintro s ⟨i, hi⟩
  exact h i s hi

end Triple

end Webchannel.Effect
