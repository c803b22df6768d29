import Webchannel.Wrapper.Bubbles

/-!
# A history frame loses no message

What `case "history"` makes of any list of messages with distinct ids: the old messages in their order, each as it was or
with the stored form of one row, the other rows between them, and no id twice.
-/

namespace Webchannel.Wrapper

/-! ## Weaving the fresh rows in -/

namespace Merge

variable {inserts inserts' : OrderedMap Nat (List ChatMessage)} {next : List ChatMessage}

theorem weave_congr {j : Nat} (h : ∀ i, j ≤ i → inserts'.get i = inserts.get i) :
    weave inserts' j next = weave inserts j next := by
  induction next generalizing j with
  | nil => rw [weave, weave, h j (Nat.le_refl j)]
  | cons m next ih => rw [weave, weave, h j (Nat.le_refl j), ih fun i hi => h i (Nat.le_of_succ_le hi)]

/-- A fresh row is one more message. -/
theorem weave_insert (inserts : OrderedMap Nat (List ChatMessage)) {j c : Nat} (x : ChatMessage) (hj : j ≤ c) (hc : c ≤ j + next.length) :
    ∃ before behind, weave inserts j next = before ++ behind ∧
      weave (inserts.set c ((inserts.get c).getD [] ++ [x])) j next = before ++ x :: behind := by
  induction next generalizing j with
  | nil =>
    obtain rfl : c = j := Nat.le_antisymm (by simpa using hc) hj
    exact ⟨(inserts.get c).getD [], [], by simp [weave], by simp [weave]⟩
  | cons m next ih =>
    by_cases heq : c = j
    · subst heq
      refine ⟨(inserts.get c).getD [], m :: weave inserts (c + 1) next, rfl, ?_⟩
      rw [weave, OrderedMap.get_set_self, weave_congr fun i hi => OrderedMap.get_set_of_ne inserts _ (by omega),
        Option.getD_some, List.append_assoc, List.singleton_append]
    · have hj' : j + 1 ≤ c := by omega
      have hc' : c ≤ j + 1 + next.length := by
        rw [List.length_cons] at hc
        omega
      obtain ⟨before, behind, hold, hnew⟩ := ih hj' hc'
      refine ⟨(inserts.get j).getD [] ++ m :: before, behind, ?_, ?_⟩
      · rw [weave, hold, List.append_assoc, List.cons_append]
      · rw [weave, hnew, OrderedMap.get_set_of_ne inserts _ (by omega), List.append_assoc, List.cons_append]

/-- An adoption changes one message. -/
theorem weave_modify (inserts : OrderedMap Nat (List ChatMessage)) {j i : Nat} {old : ChatMessage}
    (f : ChatMessage → ChatMessage) (hi : next[i]? = some old) :
    ∃ before behind, weave inserts j next = before ++ old :: behind ∧
      weave inserts j (next.modify i f) = before ++ f old :: behind := by
  induction next generalizing i j with
  | nil => cases hi
  | cons m next ih =>
    cases i with
    | zero =>
      obtain rfl := Option.some.inj hi
      exact ⟨(inserts.get j).getD [], weave inserts (j + 1) next, rfl, rfl⟩
    | succ i =>
      obtain ⟨before, behind, hold, hnew⟩ := ih hi
      refine ⟨(inserts.get j).getD [] ++ m :: before, behind, ?_, ?_⟩
      · rw [weave, hold, List.append_assoc, List.cons_append]
      · rw [List.modify_succ_cons, weave, hnew, List.append_assoc, List.cons_append]

end Merge

variable {inserts : OrderedMap Nat (List ChatMessage)} {l : List LiveMessage}

theorem sublist_weaveLive (j : Nat) (l : List LiveMessage) : l.Sublist (weaveLive inserts j l) := by
  induction l generalizing j with
  | nil => exact List.nil_sublist _
  | cons m l ih => exact ((ih (j + 1)).cons_cons m).trans (List.sublist_append_right _ _)

/-- A message on the screen was there, or is a fresh row. -/
theorem mem_weaveLive {j : Nat} {m : LiveMessage} (h : m ∈ weaveLive inserts j l) :
    m ∈ l ∨ ∃ k group, inserts.get k = some group ∧ ∃ now ∈ group, m = now.live := by
  have hgroup {k : Nat} (hm : m ∈ ((inserts.get k).getD []).map (·.live)) :
      ∃ k group, inserts.get k = some group ∧ ∃ now ∈ group, m = now.live := by
    obtain ⟨now, hnow, rfl⟩ := List.mem_map.mp hm
    cases hget : inserts.get k with
    | none =>
      rw [hget] at hnow
      cases hnow
    | some group =>
      rw [hget] at hnow
      exact ⟨k, group, hget, now, hnow, rfl⟩
  induction l generalizing j with
  | nil => exact .inr (hgroup h)
  | cons first l ih =>
    rcases List.mem_append.mp h with h | h
    · exact .inr (hgroup h)
    · rcases List.mem_cons.mp h with rfl | h
      · exact .inl List.mem_cons_self
      · exact (ih h).imp_left (List.mem_cons_of_mem _)

theorem weaveLive_plain (h : ∀ i, inserts.get i = none) (j : Nat) (l : List LiveMessage) : weaveLive inserts j l = l := by
  induction l generalizing j with
  | nil => rw [weaveLive, h, Option.getD_none, List.map_nil]
  | cons m l ih => rw [weaveLive, h, ih, Option.getD_none, List.map_nil, List.nil_append]

/-! ## The loop -/

theorem adoptKey_role {role role' : ChatRole} {text text' : String} (h : adoptKey role text = adoptKey role' text') :
    role = role' := by
  have hlist := congrArg String.toList h
  cases role <;> cases role' <;> simp [adoptKey, ChatRole.text, String.toList_append] at hlist ⊢

/-- A message that has taken a row. -/
def StoredRow.onto (row : StoredRow) (old : ChatMessage) : ChatMessage :=
  { old with id := row.id, text := row.text, ts := row.ts, assistantMessageIndex := none }

namespace Merge

variable {s : Merge} {m : StoredRow} {L : List ChatMessage} {rows : List StoredRow} {idx : Nat}

/-- What the screen would show if the frame ended here. -/
def screen (s : Merge) : List ChatMessage := weave s.inserts 0 s.next

/-- What the loop conserves: `L` are the messages that it started with, and `rows` the rows of the frame. -/
structure Conserves (s : Merge) (L : List ChatMessage) (rows : List StoredRow) : Prop where
  keeps : s.Keeps L
  pools : ∀ key, ∀ idx ∈ (s.adoptable.get key).getD [], ∃ old, L[idx]? = some old ∧ adoptKey old.role old.text = key
  onto : ∀ idx ∈ s.claimed, ∃ old, L[idx]? = some old ∧ isLocalLiveId old = true ∧
    ∃ row ∈ rows, row.role = old.role ∧ s.next[idx]? = some (row.onto old)
  fresh : ∀ k group, s.inserts.get k = some group → ∀ now ∈ group, ∃ row ∈ rows, now = row.fresh
  nodup : (s.screen.map (·.id)).Nodup
  known : ∀ id ∈ s.screen.map (·.id), id ∈ s.seen
  shown : ∀ id ∈ s.seen, ServerId id → id ∈ s.screen.map (·.id)
  cursor : s.cursor ≤ L.length
  index : ∀ id li, s.localIndexById.get id = some li → li < L.length

theorem adoptables_key {l : List (ChatMessage × Nat)} {key : String} (h : idx ∈ ((adoptables l).get key).getD []) :
    ∃ old, (old, idx) ∈ l ∧ adoptKey old.role old.text = key := by
  unfold adoptables at h
  induction l using List.reverseRecOn with
  | nil => cases h
  | append_singleton l e ih =>
    have hbefore (h : idx ∈ ((adoptables l).get key).getD []) :
        ∃ old, (old, idx) ∈ l ++ [e] ∧ adoptKey old.role old.text = key := by
      obtain ⟨old, hold, hkey⟩ := ih h
      exact ⟨old, List.mem_append_left _ hold, hkey⟩
    rw [List.foldl_append, List.foldl_cons, List.foldl_nil] at h
    split at h
    · rw [OrderedMap.get_set_eq] at h
      split at h
      · next hkey =>
        rcases List.mem_append.mp h with h | h
        · exact hbefore (by rw [hkey]; exact h)
        · rw [List.mem_singleton.mp h]
          exact ⟨e.1, by simp, hkey.symm⟩
      · exact hbefore h
    · exact hbefore h

theorem index_start (L : List ChatMessage) {id : String} {li : Nat} (h : (indexById L.zipIdx).get id = some li) :
    li < L.length := by
  have hmem {l : List (ChatMessage × Nat)} (h : (indexById l).get id = some li) : ∃ m, (m, li) ∈ l := by
    unfold indexById at h
    induction l using List.reverseRecOn with
    | nil => cases h
    | append_singleton l e ih =>
      rw [List.foldl_append, List.foldl_cons, List.foldl_nil, OrderedMap.get_set_eq] at h
      split at h
      · obtain rfl := Option.some.inj h
        exact ⟨e.1, by simp⟩
      · obtain ⟨m, hm⟩ := ih h
        exact ⟨m, List.mem_append_left _ hm⟩
  obtain ⟨m, hm⟩ := hmem h
  exact (List.getElem?_eq_some_iff.mp (List.mem_zipIdx_iff_getElem?.mp hm)).1

theorem screen_start (L : List ChatMessage) : (start L).screen = L := weave_plain fun i _ => OrderedMap.get_empty i

theorem Conserves.start (hids : (L.map (·.id)).Nodup) (rows : List StoredRow) : (Merge.start L).Conserves L rows where
  keeps := .start L
  pools key idx h := by
    obtain ⟨old, hold, hkey⟩ := adoptables_key h
    exact ⟨old, List.mem_zipIdx_iff_getElem?.mp hold, hkey⟩
  onto idx h := by cases h
  fresh k group h := by
    have hnone : (Merge.start L).inserts.get k = none := OrderedMap.get_empty k
    rw [hnone] at h
    cases h
  nodup := by
    rw [screen_start]
    exact hids
  known id h := by
    rw [screen_start] at h
    exact h
  shown id h _ := by
    rw [screen_start]
    exact h
  cursor := Nat.zero_le _
  index _ _ h := index_start L h

/-- The message that a row takes was not taken before, and has the role of the row. -/
theorem Conserves.choice (h : s.Conserves L rows) (hchoice : s.choice m = some idx) :
    idx ∉ s.claimed ∧ ∃ old, L[idx]? = some old ∧ isLocalLiveId old = true ∧ m.role = old.role := by
  obtain ⟨old, hold, hlive⟩ := h.keeps.choice_live hchoice
  unfold Merge.choice at hchoice
  split at hchoice
  · cases hchoice
  split at hchoice
  · next idx' rest hpool =>
    obtain rfl := Option.some.inj hchoice
    obtain ⟨pool, hget, hdrop⟩ := Option.map_eq_some_iff.mp hpool
    have hmem : idx' ∈ pool := (List.dropWhile_sublist _).mem (hdrop ▸ List.mem_cons_self)
    obtain ⟨old', hold', hkey⟩ := h.pools _ idx' (by rw [hget]; exact hmem)
    rw [hold] at hold'
    obtain rfl := Option.some.inj hold'
    have hfree := List.head?_dropWhile_not (fun x => decide (x ∈ s.claimed)) pool
    rw [hdrop] at hfree
    exact ⟨of_decide_eq_false hfree, old, hold, hlive, (adoptKey_role hkey).symm⟩
  · unfold positional at hchoice
    simp only [Option.bind_eq_bind, Option.bind_eq_some_iff] at hchoice
    obtain ⟨anchor, -, bubble, hbubble, hif⟩ := hchoice
    split at hif
    · next hcond =>
      obtain rfl := Option.some.inj hif
      obtain ⟨hagent, hfree, hbubbleRole, -⟩ := hcond
      rw [h.keeps.kept _ hfree, hold] at hbubble
      obtain rfl := Option.some.inj hbubble
      exact ⟨hfree, old, hold, hlive, hagent.trans hbubbleRole.symm⟩
    · cases hif

/-- The cursor stays within the messages. -/
theorem step_bounds {n : Nat} (hchoice : ∀ idx, s.choice m = some idx → idx < n) (hcursor : s.cursor ≤ n)
    (hindex : ∀ id li, s.localIndexById.get id = some li → li < n) :
    (s.step m).cursor ≤ n ∧ ∀ id li, (s.step m).localIndexById.get id = some li → li < n := by
  have hadopt {idx : Nat} (hidx : idx < n) :
      idx + 1 ≤ n ∧ ∀ id li, (s.localIndexById.set m.id idx).get id = some li → li < n := by
    refine ⟨hidx, fun id li hli => ?_⟩
    rw [OrderedMap.get_set_eq] at hli
    split at hli
    · exact Option.some.inj hli ▸ hidx
    · exact hindex id li hli
  by_cases hseen : m.id ∈ s.seen
  · rw [step, if_pos hseen]
    cases hli : s.localIndexById.get m.id with
    | none => exact ⟨hcursor, hindex⟩
    | some li => exact ⟨hindex m.id li hli, hindex⟩
  rw [Merge.choice, if_neg hseen] at hchoice
  rw [step, if_neg hseen]
  dsimp only
  generalize (s.adoptable.get (adoptKey m.role m.text)).map (·.dropWhile (· ∈ s.claimed)) = pool at hchoice
  obtain _ | _ | ⟨idx, rest⟩ := pool
  case some.cons => exact hadopt (hchoice idx rfl)
  case some.nil =>
    have hpos : { s with seen := m.id :: s.seen, adoptable := s.adoptable.set (adoptKey m.role m.text) [] }.positional m =
      s.positional m := rfl
    dsimp only
    rw [hpos]
    cases hcand : s.positional m with
    | none => exact ⟨hcursor, hindex⟩
    | some cand => exact hadopt (hchoice cand hcand)
  case none =>
    have hpos : { s with seen := m.id :: s.seen }.positional m = s.positional m := rfl
    dsimp only
    rw [hpos]
    cases hcand : s.positional m with
    | none => exact ⟨hcursor, hindex⟩
    | some cand => exact hadopt (hchoice cand hcand)

/-- One row. -/
theorem Conserves.step (h : s.Conserves L rows) (hm : m ∈ rows) : (s.step m).Conserves L rows := by
  obtain ⟨hcursor, hindex⟩ := step_bounds (fun idx hidx => by
    obtain ⟨-, old, hold, -⟩ := h.choice hidx
    exact (List.getElem?_eq_some_iff.mp hold).1) h.cursor h.index
  have hkeeps := h.keeps.step m
  have hunknown (hfresh : m.id ∉ s.seen) : m.id ∉ s.screen.map (·.id) := fun hid => hfresh (h.known _ hid)
  cases s.step_turn m with
  | held _ _ hnext hseen hclaimed hadoptable hinserts _ =>
    have hscreen : (s.step m).screen = s.screen := by rw [screen, hnext, hinserts, screen]
    refine ⟨hkeeps, hadoptable ▸ h.pools, ?_, hinserts ▸ h.fresh, hscreen ▸ h.nodup, ?_, ?_, hcursor, hindex⟩
    · rw [hclaimed, hnext]
      exact h.onto
    · rw [hscreen, hseen]
      exact h.known
    · rw [hscreen, hseen]
      exact h.shown
  | adopted idx hfresh hchoice hnext hseen hclaimed hadoptable hinserts _ =>
    obtain ⟨hfree, old, hold, hlive, hrole⟩ := h.choice hchoice
    have hnow : s.next[idx]? = some old := (h.keeps.kept idx hfree).trans hold
    obtain ⟨before, behind, hbefore, hafter⟩ := weave_modify s.inserts (j := 0) m.onto hnow
    have hids : s.screen.map (·.id) = before.map (·.id) ++ old.id :: behind.map (·.id) := by
      rw [screen, hbefore, List.map_append, List.map_cons]
    have hids' : (s.step m).screen.map (·.id) = before.map (·.id) ++ m.id :: behind.map (·.id) := by
      have hscreen : (s.step m).screen = before ++ m.onto old :: behind := by
        rw [screen, hnext, hinserts]
        exact hafter
      rw [hscreen, List.map_append, List.map_cons]
      rfl
    have hlocal {id : String} (hid : ServerId id) : id ≠ old.id := by
      rintro rfl
      rw [hid.not_live] at hlive
      cases hlive
    have hnodup := h.nodup
    have hnew := hunknown hfresh
    rw [hids] at hnodup hnew
    refine ⟨hkeeps, fun key j hj => h.pools key j (hadoptable key j hj), fun j hj => ?_, hinserts ▸ h.fresh, ?_, ?_, ?_,
      hcursor, hindex⟩
    · rw [hclaimed] at hj
      rw [hnext]
      by_cases heq : j = idx
      · rw [heq, List.getElem?_modify_eq, hnow]
        exact ⟨old, hold, hlive, m, hm, hrole, rfl⟩
      · rw [List.getElem?_modify_ne _ _ (Ne.symm heq)]
        exact h.onto j ((List.mem_cons.mp hj).resolve_left heq)
    · rw [hids']
      rw [List.nodup_middle, List.nodup_cons] at hnodup ⊢
      refine ⟨fun hmem => hnew ?_, hnodup.2⟩
      rcases List.mem_append.mp hmem with hmem | hmem
      · exact List.mem_append_left _ hmem
      · exact List.mem_append_right _ (List.mem_cons_of_mem _ hmem)
    · intro id hid
      rw [hids'] at hid
      rw [hseen]
      have hold {id : String} (hid : id ∈ before.map (·.id) ++ old.id :: behind.map (·.id)) : id ∈ s.seen :=
        h.known id (hids ▸ hid)
      rcases List.mem_append.mp hid with hid | hid
      · exact .tail _ (hold (List.mem_append_left _ hid))
      · rcases List.mem_cons.mp hid with rfl | hid
        · exact .head _
        · exact .tail _ (hold (List.mem_append_right _ (List.mem_cons_of_mem _ hid)))
    · intro id hid hserver
      rw [hseen] at hid
      rw [hids']
      rcases List.mem_cons.mp hid with rfl | hid
      · exact List.mem_append_right _ List.mem_cons_self
      · have hshown := h.shown id hid hserver
        rw [hids] at hshown
        rcases List.mem_append.mp hshown with hshown | hshown
        · exact List.mem_append_left _ hshown
        · rcases List.mem_cons.mp hshown with hsame | hshown
          · exact absurd hsame (hlocal hserver)
          · exact List.mem_append_right _ (List.mem_cons_of_mem _ hshown)
  | inserted hfresh _ hnext hseen hclaimed hadoptable hinserts _ =>
    have hroom : s.cursor ≤ 0 + s.next.length := by
      rw [h.keeps.length, Nat.zero_add]
      exact h.cursor
    obtain ⟨before, behind, hbefore, hafter⟩ := weave_insert s.inserts m.fresh (Nat.zero_le _) hroom
    have hids : s.screen.map (·.id) = before.map (·.id) ++ behind.map (·.id) := by
      rw [screen, hbefore, List.map_append]
    have hids' : (s.step m).screen.map (·.id) = before.map (·.id) ++ m.id :: behind.map (·.id) := by
      rw [screen, hnext, hinserts, hafter, List.map_append, List.map_cons]
      rfl
    have hmem {id : String} : id ∈ (s.step m).screen.map (·.id) ↔ id = m.id ∨ id ∈ s.screen.map (·.id) := by
      rw [hids', hids, List.perm_middle.mem_iff, List.mem_cons]
    refine ⟨hkeeps, fun key j hj => h.pools key j (hadoptable key j hj), ?_, fun k group hgroup now hnow => ?_, ?_, ?_, ?_,
      hcursor, hindex⟩
    · rw [hclaimed, hnext]
      exact h.onto
    · rw [hinserts, OrderedMap.get_set_eq] at hgroup
      split at hgroup
      · obtain rfl := Option.some.inj hgroup
        rcases List.mem_append.mp hnow with hnow | hnow
        · cases hold : s.inserts.get s.cursor with
          | none =>
            rw [hold] at hnow
            cases hnow
          | some old =>
            rw [hold] at hnow
            exact h.fresh _ old hold now hnow
        · exact ⟨m, hm, List.mem_singleton.mp hnow⟩
      · exact h.fresh k group hgroup now hnow
    · have hnodup := h.nodup
      have hnew := hunknown hfresh
      rw [hids] at hnodup hnew
      rw [hids', List.nodup_middle, List.nodup_cons]
      exact ⟨hnew, hnodup⟩
    · intro id hid
      rw [hseen]
      exact (hmem.mp hid).elim (fun heq => heq ▸ List.mem_cons_self) fun hid => .tail _ (h.known id hid)
    · intro id hid hserver
      rw [hseen] at hid
      refine hmem.mpr ((List.mem_cons.mp hid).imp_right fun hid => h.shown id hid hserver)

theorem Conserves.foldl (h : s.Conserves L rows) {part : List StoredRow} (hpart : ∀ m ∈ part, m ∈ rows) :
    (part.foldl Merge.step s).Conserves L rows := by
  induction part generalizing s with
  | nil => exact h
  | cons m part ih => exact ih (h.step (hpart m List.mem_cons_self)) fun m hm => hpart m (List.mem_cons_of_mem _ hm)

theorem seen_step (s : Merge) (m : StoredRow) {id : String} : id ∈ (s.step m).seen ↔ id = m.id ∨ id ∈ s.seen := by
  cases s.step_turn m with
  | held hheld _ _ hseen =>
    rw [hseen]
    exact ⟨.inr, fun h => h.elim (fun heq => heq ▸ hheld) fun h => h⟩
  | adopted _ _ _ _ hseen => rw [hseen, List.mem_cons]
  | inserted _ _ _ hseen => rw [hseen, List.mem_cons]

theorem seen_foldl (part : List StoredRow) {id : String} :
    id ∈ (part.foldl Merge.step s).seen ↔ id ∈ part.map (·.id) ∨ id ∈ s.seen := by
  induction part generalizing s with
  | nil => simp
  | cons m part ih =>
    rw [List.foldl_cons, ih, seen_step, List.map_cons, List.mem_cons, or_assoc]
    exact or_left_comm

/-- Rows that are all held change nothing but the cursor. -/
theorem foldl_held {part : List StoredRow} (h : ∀ m ∈ part, m.id ∈ s.seen) :
    (part.foldl Merge.step s).inserts = s.inserts ∧ (part.foldl Merge.step s).adopted = s.adopted := by
  induction part generalizing s with
  | nil => exact ⟨rfl, rfl⟩
  | cons m part ih =>
    have hm := h m List.mem_cons_self
    cases s.step_turn m with
    | held _ _ _ hseen _ _ hinserts hadopted =>
      obtain ⟨hinserts', hadopted'⟩ := ih (s := s.step m) fun m' hm' => hseen ▸ h m' (List.mem_cons_of_mem _ hm')
      exact ⟨hinserts'.trans hinserts, hadopted'.trans hadopted⟩
    | adopted _ hfresh => exact absurd hm hfresh
    | inserted hfresh => exact absurd hm hfresh

end Merge

/-! ## The frame -/

/-- What becomes of an old message: it stays, or a live bubble takes one row of its role. -/
inductive Carried (rows : List StoredRow) (old now : LiveMessage) : Prop
  | same (hsame : now = old)
  | adopted (hlive : isLocalLiveId old.toChatMessage = true) (row : StoredRow) (hrow : row ∈ rows)
      (hrole : row.role = old.role) (hnow : now = { old with toChatMessage := row.onto old.toChatMessage })

/-- A held or retracted message of the user, or a draft of the agent. -/
def LocalOnly (m : LiveMessage) : Prop :=
  (m.role = .user ∧ (m.pending = true ∨ m.retracted = true)) ∨ (m.role = .agent ∧ m.working = true)

theorem LocalOnly.not_live {m : LiveMessage} (h : LocalOnly m) : isLocalLiveId m.toChatMessage = false := by
  rcases h with ⟨hrole, hpending | hretracted⟩ | ⟨hrole, hworking⟩
  · simp [isLocalLiveId, hrole, hpending]
  · simp [isLocalLiveId, hrole, hretracted]
  · simp [isLocalLiveId, hrole, hworking]

theorem Carried.id {rows : List StoredRow} {old now : LiveMessage} (h : Carried rows old now) (hlocal : LocalOnly old) :
    now = old := by
  cases h with
  | same hsame => exact hsame
  | adopted hlive =>
    rw [hlocal.not_live] at hlive
    cases hlive

theorem forall₂_zipWith {R : LiveMessage → LiveMessage → Prop} {g : LiveMessage → ChatMessage → LiveMessage}
    {next : List ChatMessage} (hlen : next.length = l.length)
    (h : ∀ (idx : Nat) (m : LiveMessage) (now : ChatMessage), l[idx]? = some m → next[idx]? = some now → R m (g m now)) :
    List.Forall₂ R l (List.zipWith g l next) := by
  induction l generalizing next with
  | nil => exact .nil
  | cons m l ih =>
    cases next with
    | nil => cases hlen
    | cons now next => exact .cons (h 0 m now rfl rfl) (ih (Nat.succ.inj hlen) fun idx => h (idx + 1))

/-- The loop over the rows of a frame. -/
def mergeLoop (messages : List LiveMessage) (incoming : List IncomingRow) : Merge :=
  (incoming.filterMap IncomingRow.read).foldl Merge.step (.start (messages.map (·.toChatMessage)))

/-- The messages of the loop, with their turns. -/
def carriedOver (messages : List LiveMessage) (incoming : List IncomingRow) : List LiveMessage :=
  List.zipWith (fun m now => { m with toChatMessage := now }) messages (mergeLoop messages incoming).next

theorem zipWith_self (l : List LiveMessage) :
    List.zipWith (fun (m : LiveMessage) (now : ChatMessage) => { m with toChatMessage := now }) l
      (l.map (·.toChatMessage)) = l := by
  induction l with
  | nil => rfl
  | cons m l ih => rw [List.map_cons, List.zipWith_cons_cons, ih]

/-- A frame whose rows are all held changes nothing. -/
theorem mergeHistory_held {messages : List LiveMessage} {incoming : List IncomingRow}
    (h : ∀ row ∈ incoming.filterMap IncomingRow.read, row.id ∈ messages.map (·.id)) :
    mergeHistory messages incoming = messages := by
  have hseen : ∀ row ∈ incoming.filterMap IncomingRow.read,
      row.id ∈ (Merge.start (messages.map (·.toChatMessage))).seen := by
    intro row hrow
    have hmem := h row hrow
    rw [Merge.start, List.map_map]
    exact hmem
  obtain ⟨hinserts, hadopted⟩ := Merge.foldl_held hseen
  unfold mergeHistory
  split
  · rfl
  · dsimp only
    rw [hinserts, hadopted]
    rfl

/-- What the frame leaves, also where it changes nothing. -/
theorem mergeHistory_eq (messages : List LiveMessage) (incoming : List IncomingRow) :
    mergeHistory messages incoming = weaveLive (mergeLoop messages incoming).inserts 0 (carriedOver messages incoming) := by
  have hkeeps : (mergeLoop messages incoming).Keeps (messages.map (·.toChatMessage)) := (Merge.Keeps.start _).foldl _
  have hplain (hinserts : ∀ i, (mergeLoop messages incoming).inserts.get i = none)
      (hclaimed : (mergeLoop messages incoming).claimed = []) :
      messages = weaveLive (mergeLoop messages incoming).inserts 0 (carriedOver messages incoming) := by
    have hnext : (mergeLoop messages incoming).next = messages.map (·.toChatMessage) := by
      refine List.ext_getElem? fun idx => hkeeps.kept idx ?_
      rw [hclaimed]
      exact List.not_mem_nil
    rw [weaveLive_plain hinserts, carriedOver, hnext, zipWith_self]
  unfold mergeHistory
  split
  · next hempty =>
    obtain rfl := List.isEmpty_iff.mp hempty
    exact hplain (fun i => OrderedMap.get_empty i) rfl
  · dsimp only
    split
    · next hnone =>
      simp only [Bool.and_eq_true, Bool.not_eq_true', decide_eq_true_eq] at hnone
      exact hplain (OrderedMap.get_of_size_eq_zero hnone.1) (hkeeps.untouched hnone.2)
    · rfl

/-- The ids on the screen are those that the loop accounts for. -/
theorem mergeHistory_ids (messages : List LiveMessage) (incoming : List IncomingRow) :
    (mergeHistory messages incoming).map (·.id) = (mergeLoop messages incoming).screen.map (·.id) := by
  have hlive (group : List ChatMessage) : (group.map (·.live)).map (·.id) = group.map (·.id) := by
    rw [List.map_map]
    rfl
  have hweave (inserts : OrderedMap Nat (List ChatMessage)) (l : List LiveMessage) (next : List ChatMessage) (j : Nat)
      (hlen : next.length = l.length) :
      (weaveLive inserts j (List.zipWith (fun m now => { m with toChatMessage := now }) l next)).map (·.id) =
        (Merge.weave inserts j next).map (·.id) := by
    induction l generalizing next j with
    | nil =>
      obtain rfl := List.length_eq_zero_iff.mp hlen
      rw [List.zipWith_nil_left, weaveLive, Merge.weave, hlive]
    | cons m l ih =>
      cases next with
      | nil => cases hlen
      | cons now next =>
        rw [List.zipWith_cons_cons, weaveLive, Merge.weave, List.map_append, List.map_append, hlive, List.map_cons,
          List.map_cons, ih next (j + 1) (Nat.succ.inj hlen)]
  have hkeeps : (mergeLoop messages incoming).Keeps (messages.map (·.toChatMessage)) := (Merge.Keeps.start _).foldl _
  rw [mergeHistory_eq, carriedOver, hweave, Merge.screen]
  rw [hkeeps.length, List.length_map]

theorem carried_of_loop {messages : List LiveMessage} {incoming : List IncomingRow}
    (h : (mergeLoop messages incoming).Conserves (messages.map (·.toChatMessage)) (incoming.filterMap IncomingRow.read)) :
    List.Forall₂ (Carried (incoming.filterMap IncomingRow.read)) messages (carriedOver messages incoming) := by
  have hlen : (mergeLoop messages incoming).next.length = messages.length := by
    rw [h.keeps.length, List.length_map]
  refine forall₂_zipWith hlen fun idx m now hm hnow => ?_
  have hold : (messages.map (·.toChatMessage))[idx]? = some m.toChatMessage := by
    rw [List.getElem?_map, hm]
    rfl
  by_cases hclaimed : idx ∈ (mergeLoop messages incoming).claimed
  · obtain ⟨old, hold', hlive, row, hrow, hrole, hnext⟩ := h.onto idx hclaimed
    rw [hold] at hold'
    rw [hnow] at hnext
    obtain rfl := Option.some.inj hold'
    obtain rfl := Option.some.inj hnext
    exact .adopted hlive row hrow hrole rfl
  · rw [h.keeps.kept idx hclaimed, hold] at hnow
    obtain rfl := Option.some.inj hnow
    exact .same rfl

/-- A frame of arbitrary entries, whose ids are those of a server, on any messages with distinct ids. -/
theorem history_conserves (w : State) (incoming : List IncomingRow) (hids : (w.messages.map (·.id)).Nodup)
    (hserver : ∀ row ∈ incoming.filterMap IncomingRow.read, ServerId row.id) :
    let rows := incoming.filterMap IncomingRow.read
    let out := (w.handleFrame (.history incoming)).messages
    (out.map (·.id)).Nodup ∧
      (∃ kept, kept.Sublist out ∧ List.Forall₂ (Carried rows) w.messages kept ∧
        ∀ m ∈ out, m ∈ kept ∨ ∃ row ∈ rows, m = row.fresh.live) ∧
      (∀ m ∈ w.messages, LocalOnly m → m ∈ out) ∧
      (∀ row ∈ rows, (out.map (·.id)).count row.id = 1) ∧
      (w.handleFrame (.history incoming)).handleFrame (.history incoming) = w.handleFrame (.history incoming) := by
  intro rows out
  have hids' : ((w.messages.map (·.toChatMessage)).map (·.id)).Nodup := by
    rw [List.map_map]
    exact hids
  have h : (mergeLoop w.messages incoming).Conserves (w.messages.map (·.toChatMessage)) rows :=
    (Merge.Conserves.start hids' rows).foldl fun _ hm => hm
  have hout : out.map (·.id) = (mergeLoop w.messages incoming).screen.map (·.id) := mergeHistory_ids _ _
  have hweave : out = weaveLive (mergeLoop w.messages incoming).inserts 0 (carriedOver w.messages incoming) :=
    mergeHistory_eq _ _
  have hcarried : List.Forall₂ (Carried rows) w.messages (carriedOver w.messages incoming) := carried_of_loop h
  have hkept : (carriedOver w.messages incoming).Sublist out := hweave ▸ sublist_weaveLive 0 _
  have hnodup : (out.map (·.id)).Nodup := hout ▸ h.nodup
  have hshown : ∀ row ∈ rows, row.id ∈ out.map (·.id) := by
    intro row hrow
    rw [hout]
    exact h.shown row.id ((Merge.seen_foldl rows).mpr (.inl (List.mem_map_of_mem hrow))) (hserver row hrow)
  refine ⟨hnodup, ⟨_, hkept, hcarried, fun m hm => ?_⟩, fun m hm hlocal => ?_, fun row hrow => ?_, ?_⟩
  · rw [hweave] at hm
    refine (mem_weaveLive hm).imp_right ?_
    rintro ⟨k, group, hget, now, hnow, rfl⟩
    obtain ⟨row, hrow, rfl⟩ := h.fresh k group hget now hnow
    exact ⟨row, hrow, rfl⟩
  · have hsame {l l' : List LiveMessage} (hl : List.Forall₂ (Carried rows) l l') (hm : m ∈ l) : m ∈ l' := by
      induction hl with
      | nil => cases hm
      | cons hab _ ih =>
        rcases List.mem_cons.mp hm with rfl | hm
        · rw [hab.id hlocal]
          exact List.mem_cons_self
        · exact List.mem_cons_of_mem _ (ih hm)
    exact hkept.mem (hsame hcarried hm)
  · exact List.count_eq_one_of_mem hnodup (hshown row hrow)
  · have hagain : mergeHistory out incoming = out := mergeHistory_held hshown
    exact congrArg (fun messages => { w with messages := messages }) hagain

/-- A question, an unsent one behind it and the live answer to the first; the snapshot has the first turn and two more
rows, one of them malformed. -/
def liveTurn : State := { State.create with
  messages := [userBubble "u-0" "hi" false none "r-0", userBubble "u-1" "hi" true none "r-1",
    agentBubble "webchannel-1" "hello" false none (some 0)] }

def snapshotOfTurn : List IncomingRow :=
  [⟨some "s1", some .user, some "hi", some 1⟩, ⟨some "s2", some .agent, some "Hello!", some 2⟩, ⟨none, none, none, none⟩,
    ⟨some "s3", some .user, some "later", some 3⟩]

theorem history_conserves_turn :
    (((liveTurn.handleFrame (.history snapshotOfTurn)).messages.map (·.id)).count "s3" = 1 ∧
      userBubble "u-1" "hi" true none "r-1" ∈ (liveTurn.handleFrame (.history snapshotOfTurn)).messages) := by
  obtain ⟨-, -, hlocal, hcount, -⟩ := history_conserves liveTurn snapshotOfTurn (by decide) (by decide)
  exact ⟨hcount ⟨"s3", .user, "later", some 3⟩ (by decide), hlocal _ (by decide) (.inl ⟨rfl, .inl rfl⟩)⟩

/-- A message of the user that a progress frame under its id has marked as a draft takes a row like any other. -/
theorem working_message_adopted :
    ¬ ∀ (w : State) (incoming : List IncomingRow), (w.messages.map (·.id)).Nodup →
      (∀ row ∈ incoming.filterMap IncomingRow.read, ServerId row.id) →
      ∀ m ∈ w.messages, (m.pending = true ∨ m.retracted = true ∨ m.working = true) →
        m ∈ (w.handleFrame (.history incoming)).messages := by
  intro h
  have hlost := h ({ State.create with messages := [userBubble "u-0" "hi" false none "r-0"] }.handleFrame
    (.progress (some "u-0") (some "hi") none)) [⟨some "s1", some .user, some "hi", some 1⟩] (by decide) (by decide)
    { userBubble "u-0" "hi" false none "r-0" with working := true } (by decide) (by decide)
  revert hlost
  decide

end Webchannel.Wrapper
