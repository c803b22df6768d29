import Webchannel.Wrapper.History

/-!
# What a history frame does to the messages on the screen

A row that is not held yet takes at most one message for its own live rendering: the first one with its role and text, or
the agent bubble behind the row before it. No other message changes, and what is new on the screen has a new id.
-/

namespace Webchannel.Wrapper

namespace Merge

variable {s : Merge} {m : StoredRow} {L : List ChatMessage} {rows : List StoredRow} {i idx : Nat} {id : String}

/-- The message that an unseen row takes for its live rendering. -/
def choice (s : Merge) (m : StoredRow) : Option Nat :=
  if m.id ∈ s.seen then none
  else match (s.adoptable.get (adoptKey m.role m.text)).map (·.dropWhile (· ∈ s.claimed)) with
    | some (idx :: _) => some idx
    | _ => s.positional m

/-- The positions of the messages that the rows take, in the order of the rows. -/
def adopts : Merge → List StoredRow → List Nat
  | _, [] => []
  | s, m :: rest => (s.choice m).toList ++ (s.step m).adopts rest

/-- What one row does. -/
inductive Turn (s : Merge) (m : StoredRow) (s' : Merge) : Prop where
  | held (hseen : m.id ∈ s.seen) (hchoice : s.choice m = none) (hnext : s'.next = s.next) (hseen' : s'.seen = s.seen)
      (hclaimed : s'.claimed = s.claimed) (hadoptable : s'.adoptable = s.adoptable) (hinserts : s'.inserts = s.inserts)
      (hadopted : s'.adopted = s.adopted)
  | adopted (idx : Nat) (hfresh : m.id ∉ s.seen) (hchoice : s.choice m = some idx)
      (hnext : s'.next = s.next.modify idx fun old =>
        { old with id := m.id, text := m.text, ts := m.ts, assistantMessageIndex := none })
      (hseen : s'.seen = m.id :: s.seen) (hclaimed : s'.claimed = idx :: s.claimed)
      (hadoptable : ∀ key, ∀ j ∈ (s'.adoptable.get key).getD [], j ∈ (s.adoptable.get key).getD [])
      (hinserts : s'.inserts = s.inserts) (hadopted : s'.adopted = true)
  | inserted (hfresh : m.id ∉ s.seen) (hchoice : s.choice m = none) (hnext : s'.next = s.next)
      (hseen : s'.seen = m.id :: s.seen) (hclaimed : s'.claimed = s.claimed)
      (hadoptable : ∀ key, ∀ j ∈ (s'.adoptable.get key).getD [], j ∈ (s.adoptable.get key).getD [])
      (hinserts : s'.inserts = s.inserts.set s.cursor ((s.inserts.get s.cursor).getD [] ++ [m.fresh]))
      (hadopted : s'.adopted = s.adopted)

theorem mem_set_adoptable {m : OrderedMap String (List Nat)} {key : String} {l rest : List Nat} {P : Nat → Bool}
    (hget : (m.get key).map (·.dropWhile P) = some l) (hrest : ∀ j ∈ rest, j ∈ l) (key' : String) :
    ∀ j ∈ ((m.set key rest).get key').getD [], j ∈ (m.get key').getD [] := by
  intro j hj
  rw [OrderedMap.get_set_eq] at hj
  split at hj
  · rename_i heq
    obtain ⟨pool, hpool, rfl⟩ := Option.map_eq_some_iff.mp hget
    rw [heq, hpool]
    exact (List.dropWhile_sublist P).mem (hrest j hj)
  · exact hj

theorem step_turn (s : Merge) (m : StoredRow) : s.Turn m (s.step m) := by
  by_cases hseen : m.id ∈ s.seen
  · have hchoice : s.choice m = none := if_pos hseen
    rw [step, if_pos hseen]
    cases s.localIndexById.get m.id with
    | none => exact .held hseen hchoice rfl rfl rfl rfl rfl rfl
    | some li => exact .held hseen hchoice rfl rfl rfl rfl rfl rfl
  have hchoice : s.choice m = _ := if_neg hseen
  rw [step, if_neg hseen]
  dsimp only
  generalize hpool : (s.adoptable.get (adoptKey m.role m.text)).map (·.dropWhile (· ∈ s.claimed)) = pool at hchoice
  obtain _ | _ | ⟨idx, rest⟩ := pool
  case some.cons => exact .adopted idx hseen hchoice rfl rfl rfl (mem_set_adoptable hpool fun j hj => .tail _ hj) rfl rfl
  case some.nil =>
    have hadoptable := mem_set_adoptable hpool fun j (hj : j ∈ []) => hj
    have hpos : { s with seen := m.id :: s.seen, adoptable := s.adoptable.set (adoptKey m.role m.text) [] }.positional m =
      s.positional m := rfl
    dsimp only
    rw [hpos]
    cases hcand : s.positional m with
    | none => exact .inserted hseen (hchoice.trans hcand) rfl rfl rfl hadoptable rfl rfl
    | some cand => exact .adopted cand hseen (hchoice.trans hcand) rfl rfl rfl hadoptable rfl rfl
  case none =>
    have hpos : { s with seen := m.id :: s.seen }.positional m = s.positional m := rfl
    dsimp only
    rw [hpos]
    cases hcand : s.positional m with
    | none => exact .inserted hseen (hchoice.trans hcand) rfl rfl rfl (fun _ _ hj => hj) rfl rfl
    | some cand => exact .adopted cand hseen (hchoice.trans hcand) rfl rfl rfl (fun _ _ hj => hj) rfl rfl

/-- What the loop keeps: `L` are the messages that it started with. -/
structure Keeps (s : Merge) (L : List ChatMessage) : Prop where
  length : s.next.length = L.length
  seen : ∀ id ∈ L.map (·.id), id ∈ s.seen
  kept : ∀ idx, idx ∉ s.claimed → s.next[idx]? = L[idx]?
  taken : ∀ idx ∈ s.claimed, ∀ now, s.next[idx]? = some now → now.id ∉ L.map (·.id)
  fresh : ∀ k group, s.inserts.get k = some group → ∀ now ∈ group, now.id ∉ L.map (·.id)
  live : ∀ key, ∀ idx ∈ (s.adoptable.get key).getD [], ∃ old, L[idx]? = some old ∧ isLocalLiveId old = true
  untouched : s.adopted = false → s.claimed = []

theorem adoptables_live {l : List (ChatMessage × Nat)} {key : String} (h : idx ∈ ((adoptables l).get key).getD []) :
    ∃ old, (old, idx) ∈ l ∧ isLocalLiveId old = true := by
  unfold adoptables at h
  induction l using List.reverseRecOn with
  | nil => cases h
  | append_singleton l e ih =>
    rw [List.foldl_append, List.foldl_cons, List.foldl_nil] at h
    split at h
    · rename_i hlive
      rw [OrderedMap.get_set_eq] at h
      split at h
      · rename_i hkey
        obtain h | h := List.mem_append.mp h
        · rw [← hkey] at h
          obtain ⟨old, hold, hlive⟩ := ih h
          exact ⟨old, List.mem_append_left _ hold, hlive⟩
        · rw [List.mem_singleton.mp h]
          exact ⟨e.1, by simp, hlive⟩
      · obtain ⟨old, hold, hlive⟩ := ih h
        exact ⟨old, List.mem_append_left _ hold, hlive⟩
    · obtain ⟨old, hold, hlive⟩ := ih h
      exact ⟨old, List.mem_append_left _ hold, hlive⟩

theorem Keeps.start (L : List ChatMessage) : (Merge.start L).Keeps L where
  length := rfl
  seen _ h := h
  kept _ _ := rfl
  taken _ h := by cases h
  fresh k group h := by
    have hnone : (Merge.start L).inserts.get k = none := OrderedMap.get_empty k
    rw [hnone] at h
    cases h
  live _ _ h := by
    obtain ⟨old, hold, hlive⟩ := adoptables_live h
    exact ⟨old, List.mem_zipIdx_iff_getElem?.mp hold, hlive⟩
  untouched _ := rfl

theorem Keeps.step (h : s.Keeps L) (m : StoredRow) : (s.step m).Keeps L := by
  have hnew (hfresh : m.id ∉ s.seen) : m.id ∉ L.map (·.id) := fun hmem => hfresh (h.seen _ hmem)
  cases s.step_turn m with
  | held _ _ hnext hseen hclaimed hadoptable hinserts hadopted =>
    refine ⟨hnext ▸ h.length, hseen ▸ h.seen, ?_, ?_, hinserts ▸ h.fresh, hadoptable ▸ h.live,
      hadopted ▸ hclaimed ▸ h.untouched⟩
    · rw [hnext, hclaimed]
      exact h.kept
    · rw [hnext, hclaimed]
      exact h.taken
  | adopted idx hfresh _ hnext hseen hclaimed hadoptable hinserts hadopted =>
    refine ⟨?_, fun id hid => ?_, fun j hj => ?_, fun j hj now hnow => ?_, hinserts ▸ h.fresh, fun key j hj => ?_,
      fun hnone => ?_⟩
    · rw [hnext, List.length_modify]
      exact h.length
    · rw [hseen]
      exact .tail _ (h.seen id hid)
    · rw [hclaimed, List.mem_cons, not_or] at hj
      rw [hnext, List.getElem?_modify_ne _ _ (Ne.symm hj.1)]
      exact h.kept j hj.2
    · rw [hnext] at hnow
      rw [hclaimed] at hj
      by_cases heq : j = idx
      · rw [heq, List.getElem?_modify_eq] at hnow
        obtain ⟨old, -, rfl⟩ := Option.map_eq_some_iff.mp hnow
        exact hnew hfresh
      · rw [List.getElem?_modify_ne _ _ (Ne.symm heq)] at hnow
        exact h.taken j ((List.mem_cons.mp hj).resolve_left heq) now hnow
    · exact h.live key j (hadoptable key j hj)
    · rw [hadopted] at hnone
      cases hnone
  | inserted hfresh _ hnext hseen hclaimed hadoptable hinserts hadopted =>
    refine ⟨hnext ▸ h.length, fun id hid => ?_, ?_, ?_, fun k group hgroup now hnow => ?_, fun key j hj => ?_,
      hadopted ▸ hclaimed ▸ h.untouched⟩
    · rw [hseen]
      exact .tail _ (h.seen id hid)
    · rw [hnext, hclaimed]
      exact h.kept
    · rw [hnext, hclaimed]
      exact h.taken
    · rw [hinserts, OrderedMap.get_set_eq] at hgroup
      split at hgroup
      · obtain rfl := Option.some.inj hgroup
        obtain hnow | hnow := List.mem_append.mp hnow
        · cases hold : s.inserts.get s.cursor with
          | none =>
            rw [hold] at hnow
            cases hnow
          | some old =>
            rw [hold] at hnow
            exact h.fresh _ old hold now hnow
        · rw [List.mem_singleton.mp hnow]
          exact hnew hfresh
      · exact h.fresh k group hgroup now hnow
    · exact h.live key j (hadoptable key j hj)

theorem Keeps.foldl (h : s.Keeps L) (rows : List StoredRow) : (rows.foldl Merge.step s).Keeps L := by
  induction rows generalizing s with
  | nil => exact h
  | cons m rows ih => exact ih (h.step m)

/-- The messages that the loop has claimed are those that its rows have taken. -/
theorem claimed_foldl (rows : List StoredRow) : (rows.foldl Merge.step s).claimed = (s.adopts rows).reverse ++ s.claimed := by
  induction rows generalizing s with
  | nil => rfl
  | cons m rows ih =>
    rw [List.foldl_cons, ih, adopts, List.reverse_append, List.append_assoc]
    congr 1
    cases s.step_turn m with
    | held _ hchoice _ _ hclaimed => rw [hchoice, hclaimed]; rfl
    | adopted idx _ hchoice _ _ hclaimed => rw [hchoice, hclaimed]; rfl
    | inserted _ hchoice _ _ hclaimed => rw [hchoice, hclaimed]; rfl

/-- A message that is taken is a local one; an agent bubble that is still working is not. -/
theorem Keeps.choice_live (h : s.Keeps L) (hchoice : s.choice m = some idx) :
    ∃ old, L[idx]? = some old ∧ isLocalLiveId old = true := by
  unfold choice at hchoice
  split at hchoice
  · cases hchoice
  split at hchoice
  · rename_i idx' rest hpool
    obtain rfl := Option.some.inj hchoice
    obtain ⟨pool, hget, hdrop⟩ := Option.map_eq_some_iff.mp hpool
    have hmem : idx' ∈ pool := (List.dropWhile_sublist _).mem (hdrop ▸ List.mem_cons_self)
    exact h.live _ idx' (by rw [hget]; exact hmem)
  · unfold positional at hchoice
    simp only [Option.bind_eq_bind, Option.bind_eq_some_iff] at hchoice
    obtain ⟨anchor, -, bubble, hbubble, hif⟩ := hchoice
    split at hif
    · rename_i hcond
      obtain rfl := Option.some.inj hif
      obtain ⟨-, hfree, -, hlive⟩ := hcond
      exact ⟨bubble, (h.kept _ hfree).symm.trans hbubble, hlive⟩
    · cases hif

end Merge

end Webchannel.Wrapper
