import Mathlib.Data.List.Basic
import Mathlib.Data.List.Infix

/-!
# Scanners over a growing buffer

A scanner looks at the front of a buffer and finds a frame, finds that no frame can be
there, or waits for more. Once it has found a frame, what is appended later does not change
its mind. A drained buffer can therefore be fed in any chunks: the frames found are those of
the joined input, up to the first failure.
-/

namespace Webchannel

inductive Scan (β F E : Type) where
  | more
  | bad (e : E)
  | frame (f : F) (rest : List β)
  deriving Repr, DecidableEq

structure Scanner (β F E : Type) where
  next : List β → Scan β F E
  shrinks : ∀ {b f rest}, next b = .frame f rest → rest.length < b.length
  stable : ∀ {b f rest} (c : List β), next b = .frame f rest → next (b ++ c) = .frame f (rest ++ c)

variable {β F E : Type}

/-- All the frames at the front of a buffer, and how the search ended: with the bytes that
are left, or with a failure. -/
def Scanner.drain (S : Scanner β F E) (b : List β) : List F × Except E (List β) :=
  match _h : S.next b with
  | .more => ([], .ok b)
  | .bad e => ([], .error e)
  | .frame f rest => (f :: (S.drain rest).1, (S.drain rest).2)
termination_by b.length
decreasing_by all_goals exact S.shrinks ‹_›

variable {S : Scanner β F E}

theorem Scanner.drain_more {b : List β} (h : S.next b = .more) : S.drain b = ([], .ok b) := by
  rw [Scanner.drain]
  split <;> simp_all

theorem Scanner.drain_bad {b : List β} {e : E} (h : S.next b = .bad e) :
    S.drain b = ([], .error e) := by
  rw [Scanner.drain]
  split <;> simp_all

theorem Scanner.drain_frame {b rest : List β} {f : F} (h : S.next b = .frame f rest) :
    S.drain b = (f :: (S.drain rest).1, (S.drain rest).2) := by
  rw [Scanner.drain]
  split <;> simp_all

/-- The induction that the loop gives: one frame at a time, down to where it stops. -/
theorem Scanner.drain_induction {P : List β → Prop}
    (more : ∀ b, S.next b = .more → P b) (bad : ∀ b e, S.next b = .bad e → P b)
    (frame : ∀ b f rest, S.next b = .frame f rest → P rest → P b) (b : List β) : P b := by
  induction hn : b.length using Nat.strong_induction_on generalizing b with
  | _ n ih =>
    cases h : S.next b with
    | more => exact more b h
    | bad e => exact bad b e h
    | frame f rest => exact frame b f rest h (ih _ (hn ▸ S.shrinks h) rest rfl)

theorem Scanner.length_of_drain {b r : List β} {fs : List F} (h : S.drain b = (fs, .ok r)) :
    r.length ≤ b.length := by
  induction b using S.drain_induction generalizing fs with
  | more b hb =>
    rw [Scanner.drain_more hb] at h
    simp only [Prod.mk.injEq, Except.ok.injEq] at h
    exact h.2 ▸ Nat.le_refl _
  | bad b e hb =>
    rw [Scanner.drain_bad hb] at h
    simp at h
  | frame b f rest hb ih =>
    rw [Scanner.drain_frame hb, Prod.mk.injEq] at h
    exact Nat.le_trans (ih (Prod.ext rfl h.2)) (Nat.le_of_lt (S.shrinks hb))

/-- Draining, then appending to what is left and draining again, is draining the whole. -/
theorem Scanner.drain_append {b r : List β} {fs : List F} (h : S.drain b = (fs, .ok r))
    (c : List β) :
    S.drain (b ++ c) = (fs ++ (S.drain (r ++ c)).1, (S.drain (r ++ c)).2) := by
  induction b using S.drain_induction generalizing fs with
  | more b hb =>
    rw [Scanner.drain_more hb] at h
    simp only [Prod.mk.injEq, Except.ok.injEq] at h
    simp [← h.1, ← h.2]
  | bad b e hb =>
    rw [Scanner.drain_bad hb] at h
    simp at h
  | frame b f rest hb ih =>
    rw [Scanner.drain_frame hb, Prod.mk.injEq] at h
    rw [Scanner.drain_frame (S.stable c hb), ih (Prod.ext rfl h.2), ← h.1]
    rfl

/-! ### Written frames -/

variable {W : Type} {encode : W → List β}

/-- Frames that are read back from their encodings, whatever follows, are all read back. -/
theorem Scanner.drain_encoded {frame : W → F} {ws : List W}
    (h : ∀ w ∈ ws, ∀ c, S.next (encode w ++ c) = .frame (frame w) c) (c : List β) :
    S.drain (ws.flatMap encode ++ c) = (ws.map frame ++ (S.drain c).1, (S.drain c).2) := by
  induction ws with
  | nil => simp
  | cons w ws ih =>
    have hhere := h w (by simp) (ws.flatMap encode ++ c)
    have hlater := ih fun w' hw' => h w' (by simp [hw'])
    rw [List.flatMap_cons, List.append_assoc, Scanner.drain_frame hhere, hlater]
    rfl

/-- The beginning of a written list of frames: some whole frames and, if anything more, a
part of the next one. -/
theorem prefix_flatMap {p : List β} {fs : List W}
    (h : p <+: fs.flatMap encode) :
    ∃ done todo part, fs = done ++ todo ∧ p = done.flatMap encode ++ part ∧
      (part = [] ∨ ∃ f rest, todo = f :: rest ∧ part <+: encode f ∧ part ≠ encode f) := by
  induction fs generalizing p with
  | nil =>
    obtain rfl := List.prefix_nil.mp h
    exact ⟨[], [], [], rfl, rfl, .inl rfl⟩
  | cons f fs ih =>
    rw [List.flatMap_cons] at h
    rcases List.prefix_or_prefix_of_prefix h (List.prefix_append _ _) with hshort | ⟨q, rfl⟩
    · by_cases hall : p = encode f
      · exact ⟨[f], fs, [], rfl, by simp [hall], .inl rfl⟩
      · exact ⟨[], f :: fs, p, rfl, rfl, .inr ⟨f, fs, rfl, hshort, hall⟩⟩
    · rw [List.prefix_append_right_inj] at h
      obtain ⟨done, todo, part, rfl, rfl, hpart⟩ := ih h
      exact ⟨f :: done, todo, part, rfl, by simp, hpart⟩

end Webchannel
