import Mathlib.Data.List.Basic

/-!
# Logs

A log grows at its end. A law says which event may come after which history; a log is lawful when each of its events is
one that the law admits after the events before it.
-/

namespace Webchannel.Log

variable {ε : Type*} {law law' : List ε → ε → Prop} {log more : List ε} {x y : ε}

def Lawful (law : List ε → ε → Prop) (log : List ε) : Prop :=
  ∀ before x after, log = before ++ x :: after → law before x

theorem lawful_nil : Lawful law [] := by
  intro before x after h
  cases before <;> cases h

/-- Where a log that has grown can be cut: in what it was, or at the new event. -/
theorem cut_append_singleton {before after : List ε} (h : log ++ [y] = before ++ x :: after) :
    (∃ rest, log = before ++ x :: rest ∧ after = rest ++ [y]) ∨ before = log ∧ x = y ∧ after = [] := by
  rcases List.eq_nil_or_concat after with rfl | ⟨rest, z, rfl⟩
  · obtain ⟨hbefore, hlast⟩ := List.append_inj' h rfl
    exact .inr ⟨hbefore.symm, (List.cons.inj hlast).1.symm, rfl⟩
  · rw [List.concat_eq_append, ← List.cons_append, ← List.append_assoc] at h
    obtain ⟨hlog, hlast⟩ := List.append_inj' h rfl
    obtain rfl := (List.cons.inj hlast).1
    exact .inl ⟨rest, hlog, List.concat_eq_append⟩

theorem Lawful.snoc (h : Lawful law log) (hx : law log x) : Lawful law (log ++ [x]) := by
  intro before y after heq
  obtain ⟨rest, hlog, -⟩ | ⟨rfl, rfl, -⟩ := cut_append_singleton heq
  · exact h before y rest hlog
  · exact hx

/-- What the law forbids after an event does not come after it. -/
theorem Lawful.not_mem_after {before after : List ε} (h : Lawful law (before ++ x :: after))
    (hforbid : ∀ history, x ∈ history → ¬ law history y) : y ∉ after := by
  intro hy
  obtain ⟨front, back, rfl⟩ := List.append_of_mem hy
  refine hforbid (before ++ x :: front) (List.mem_append_right _ List.mem_cons_self) (h _ y back ?_)
  rw [List.append_assoc, List.cons_append]

end Webchannel.Log
