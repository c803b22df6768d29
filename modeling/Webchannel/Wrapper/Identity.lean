import Webchannel.Wrapper.Bubbles

/-!
# Whether a live bubble keeps its id

A bubble that a progress frame creates is found again by its id, so a second one appears as soon as the first has lost it.
Only the merge of a history frame changes ids. It leaves a bubble alone that is still working, but the flag is taken from a
bubble early when its draft is stale, on `/stop` and at the end of the connection.
-/

namespace Webchannel.Wrapper

open Webchannel.Runs

variable {i j : String} {l : List LiveMessage} {p : LiveMessage → Bool} {update : LiveMessage → LiveMessage}

/-- There is one message under the id, an agent bubble that is neither held nor retracted. -/
def Single (i : String) (l : List LiveMessage) : Prop :=
  ∃ b, l.filter (·.id = i) = [b] ∧ b.role = .agent ∧ b.pending = false ∧ b.retracted = false ∧ b.receiptKey = none

/-- The message of the bubble ends: by its final frame, or with its turn. -/
def Ends (i : String) (w : State) : Action → Prop
  | .message (.agentMessage id _ _ _) => id = some i
  | .message (.turnSettled turnId) => turnId ≠ none ∧ ∃ b ∈ w.messages, b.id = i ∧ b.turnId = turnId
  | _ => False

/-- No row of the frame takes the bubble for its own live rendering. -/
def Spares (i : String) (l : List LiveMessage) (incoming : List IncomingRow) : Prop :=
  ∀ idx ∈ (Merge.start (l.map (·.toChatMessage))).adopts (incoming.filterMap IncomingRow.read),
    ∀ b ∈ l[idx]?, b.id ≠ i

/-- Every history frame spares the bubble. -/
def Spared (i : String) (w : State) : Action → Prop
  | .message (.history incoming) => Spares i w.messages incoming
  | _ => True

/-- The frame updates the bubble under the id. -/
def Frame.Upserts (i : String) : Frame → Prop
  | .progress id _ _ => id = some i
  | .agentMessage id _ _ _ => id = some i
  | _ => False

section Decidability

variable (w : State) (a : Action)

instance : Decidable (Ends i w a) :=
  match a with
  | .message (.agentMessage id _ _ _) => inferInstanceAs (Decidable (id = some i))
  | .message (.turnSettled turnId) =>
    inferInstanceAs (Decidable (turnId ≠ none ∧ ∃ b ∈ w.messages, b.id = i ∧ b.turnId = turnId))
  | .message (.history _) | .message .typing | .message (.progress _ _ _) | .message (.reasoning _ _ _)
  | .message (.toolActivity _ _) | .message (.other _) => isFalse id
  | .connection _ | .session | .staleDraftTimer | .error | .connect | .close | .send _ | .retract _ => isFalse id

instance (incoming : List IncomingRow) : Decidable (Spares i l incoming) :=
  inferInstanceAs (Decidable (∀ idx ∈ (Merge.start (l.map (·.toChatMessage))).adopts (incoming.filterMap IncomingRow.read),
    ∀ b ∈ l[idx]?, b.id ≠ i))

instance : Decidable (Spared i w a) :=
  match a with
  | .message (.history incoming) => inferInstanceAs (Decidable (Spares i w.messages incoming))
  | .message .typing | .message (.progress _ _ _) | .message (.reasoning _ _ _) | .message (.toolActivity _ _)
  | .message (.turnSettled _) | .message (.agentMessage _ _ _ _) | .message (.other _) => isTrue trivial
  | .connection _ | .session | .staleDraftTimer | .error | .connect | .close | .send _ | .retract _ => isTrue trivial

end Decidability

/-! ### Updates of a list -/

theorem map_id_updateFirst (hid : ∀ m, (update m).id = m.id) : (updateFirst p update l).map (·.id) = l.map (·.id) := by
  induction l with
  | nil => rfl
  | cons m l ih =>
    rw [updateFirst]
    split
    · rw [List.map_cons, hid, List.map_cons]
    · rw [List.map_cons, ih, List.map_cons]

theorem filter_updateFirst (hid : ∀ m, (update m).id = m.id) (hp : ∀ m ∈ l, p m = true → m.id ≠ i) :
    (updateFirst p update l).filter (·.id = i) = l.filter (·.id = i) := by
  induction l with
  | nil => rfl
  | cons m l ih =>
    rw [updateFirst]
    split
    · rename_i hm
      have hne := hp m (.head _) hm
      rw [List.filter_cons_of_neg (by simpa [hid] using hne), List.filter_cons_of_neg (by simpa using hne)]
    · rw [List.filter_cons, List.filter_cons, ih fun m hm => hp m (.tail _ hm)]

theorem filter_updateFirst_self (hid : ∀ m, (update m).id = m.id) {b : LiveMessage} (h : l.filter (·.id = i) = [b]) :
    (updateFirst (·.id = i) update l).filter (·.id = i) = [update b] := by
  induction l with
  | nil => cases h
  | cons m l ih =>
    rw [updateFirst]
    by_cases hm : m.id = i
    · rw [List.filter_cons_of_pos (by simpa using hm)] at h
      obtain ⟨rfl, hrest⟩ := List.cons_eq_cons.mp h
      rw [if_pos (by simpa using hm), List.filter_cons_of_pos (by simpa [hid] using hm), hrest]
    · rw [List.filter_cons_of_neg (by simpa using hm)] at h
      rw [if_neg (by simpa using hm), List.filter_cons_of_neg (by simpa using hm), ih h]

theorem Single.updateFirst (h : Single i l) (hid : ∀ m, (update m).id = m.id) (hp : ∀ m ∈ l, p m = true → m.id ≠ i) :
    Single i (updateFirst p update l) := by
  obtain ⟨b, hb, hrest⟩ := h
  exact ⟨b, (filter_updateFirst hid hp).trans hb, hrest⟩

theorem Single.append (h : Single i l) {m : LiveMessage} (hm : m.id ≠ i) : Single i (l ++ [m]) := by
  obtain ⟨b, hb, hrest⟩ := h
  refine ⟨b, ?_, hrest⟩
  rw [List.filter_append, hb, List.filter_cons_of_neg (by simpa using hm)]
  rfl

theorem Single.remove (h : Single i l) (hj : j ≠ i) : Single i (l.filter (·.id ≠ j)) := by
  obtain ⟨b, hb, hrest⟩ := h
  refine ⟨b, ?_, hrest⟩
  rw [List.filter_filter]
  refine (List.filter_congr fun m _ => ?_).trans hb
  by_cases hm : m.id = i
  · simp [hm, hj.symm]
  · simp [hm]

theorem Single.any (h : Single i l) : l.any (·.id = i) = true := by
  obtain ⟨b, hb, -⟩ := h
  have hmem : b ∈ l.filter (·.id = i) := by rw [hb]; exact List.mem_singleton.mpr rfl
  obtain ⟨hmem, hid⟩ := List.mem_filter.mp hmem
  exact List.any_eq_true.mpr ⟨b, hmem, hid⟩

/-- The bubble itself is replaced where it stands. -/
theorem Single.upsert_self (h : Single i l) {fallback : LiveMessage} (hid : ∀ m, (update m).id = m.id)
    (hkeep : ∀ m, (update m).role = m.role ∧ (update m).pending = m.pending ∧ (update m).retracted = m.retracted ∧
      (update m).receiptKey = m.receiptKey) :
    Single i (upsertMessage l i update fallback) ∧ (upsertMessage l i update fallback).map (·.id) = l.map (·.id) := by
  rw [upsertMessage, if_pos h.any]
  obtain ⟨b, hb, hrole, hpending, hretracted, hkey⟩ := h
  obtain ⟨hr, hp, ht, hk⟩ := hkeep b
  exact ⟨⟨update b, filter_updateFirst_self hid hb, hr.trans hrole, hp.trans hpending, ht.trans hretracted, hk.trans hkey⟩,
    map_id_updateFirst hid⟩

theorem Single.upsert_other (h : Single i l) {fallback : LiveMessage} (hj : j ≠ i) (hid : ∀ m, (update m).id = m.id)
    (hfallback : fallback.id = j) : Single i (upsertMessage l j update fallback) := by
  unfold upsertMessage
  split
  · refine h.updateFirst hid fun m _ hm => ?_
    rw [of_decide_eq_true hm]
    exact hj
  · exact h.append (hfallback ▸ hj)

theorem Single.settle (h : Single i l) : Single i (settleDrafts p l) := by
  obtain ⟨b, hb, hrest⟩ := h
  have hfilter : (settleDrafts p l).filter (·.id = i) = (l.filter (·.id = i)).map fun m =>
      if p m && m.working then { m with working := false } else m := by
    rw [settleDrafts, List.filter_map]
    congr 1
    refine List.filter_congr fun m _ => ?_
    dsimp only [Function.comp_apply]
    split <;> rfl
  rw [hb, List.map_singleton] at hfilter
  refine ⟨_, hfilter, ?_⟩
  split
  · exact hrest
  · exact hrest

/-! ### The merge of a history frame -/

theorem filter_weaveLive {inserts : OrderedMap Nat (List ChatMessage)} {k : Nat}
    (h : ∀ k group, inserts.get k = some group → ∀ m ∈ group, m.id ≠ i) :
    (weaveLive inserts k l).filter (·.id = i) = l.filter (·.id = i) := by
  have hgroup (k : Nat) : (((inserts.get k).getD []).map (·.live)).filter (·.id = i) = [] := by
    rw [List.filter_eq_nil_iff]
    intro m hm
    obtain ⟨row, hrow, rfl⟩ := List.mem_map.mp hm
    cases hget : inserts.get k with
    | none =>
      rw [hget] at hrow
      cases hrow
    | some group =>
      rw [hget] at hrow
      exact decide_eq_false (h k group hget row hrow) ▸ Bool.false_ne_true
  induction l generalizing k with
  | nil => exact hgroup k
  | cons m l ih => rw [weaveLive, List.filter_append, hgroup, List.nil_append, List.filter_cons, List.filter_cons, ih]

/-- The messages after the loop, before the fresh rows are woven in. -/
theorem filter_zipWith {next : List ChatMessage} (hlen : next.length = l.length)
    (h : ∀ (idx : Nat) (m : LiveMessage) (now : ChatMessage), l[idx]? = some m → next[idx]? = some now →
      if m.id = i then now = m.toChatMessage else now.id ≠ i) :
    (List.zipWith (fun m now => { m with toChatMessage := now }) l next).filter (·.id = i) = l.filter (·.id = i) := by
  induction l generalizing next with
  | nil => rfl
  | cons m l ih =>
    cases next with
    | nil => cases hlen
    | cons now next =>
      have hrest := ih (Nat.succ.inj hlen) fun idx => h (idx + 1)
      have hhead := h 0 m now rfl rfl
      rw [List.zipWith_cons_cons, List.filter_cons, List.filter_cons, hrest]
      split at hhead
      · rename_i hid
        rw [hhead]
      · rename_i hid
        rw [if_neg (by simpa using hhead), if_neg (by simpa using hid)]

theorem Single.index (h : Single i l) {x y : Nat} {m now : LiveMessage} (hx : l[x]? = some m) (hy : l[y]? = some now)
    (hm : m.id = i) (hnow : now.id = i) : x = y := by
  obtain ⟨b, hb, -⟩ := h
  induction l generalizing x y with
  | nil => cases hb
  | cons first l ih =>
    by_cases hfirst : first.id = i
    · rw [List.filter_cons_of_pos (by simpa using hfirst)] at hb
      have hrest := List.filter_eq_nil_iff.mp (List.cons_eq_cons.mp hb).2
      have hzero {z : Nat} {m : LiveMessage} (hz : (first :: l)[z]? = some m) (hm : m.id = i) : z = 0 := by
        cases z with
        | zero => rfl
        | succ z => exact absurd (decide_eq_true hm) (hrest m (List.mem_of_getElem? hz))
      rw [hzero hx hm, hzero hy hnow]
    · rw [List.filter_cons_of_neg (by simpa using hfirst)] at hb
      have hpos {z : Nat} {m : LiveMessage} (hz : (first :: l)[z]? = some m) (hm : m.id = i) : ∃ z', z = z' + 1 := by
        cases z with
        | zero => exact absurd ((Option.some.inj hz) ▸ hm) hfirst
        | succ z => exact ⟨z, rfl⟩
      obtain ⟨x', rfl⟩ := hpos hx hm
      obtain ⟨y', rfl⟩ := hpos hy hnow
      rw [ih hx hy hb]

/-- A history frame leaves the bubble as it is exactly when it spares it. -/
theorem Single.history_iff (h : Single i l) (incoming : List IncomingRow) :
    Single i (mergeHistory l incoming) ↔ Spares i l incoming := by
  have hkeeps := (Merge.Keeps.start (l.map (·.toChatMessage))).foldl (incoming.filterMap IncomingRow.read)
  have hclaimed (idx : Nat) : idx ∈ ((incoming.filterMap IncomingRow.read).foldl Merge.step
      (.start (l.map (·.toChatMessage)))).claimed ↔
      idx ∈ (Merge.start (l.map (·.toChatMessage))).adopts (incoming.filterMap IncomingRow.read) := by
    rw [Merge.claimed_foldl, List.mem_append, List.mem_reverse]
    exact or_iff_left List.not_mem_nil
  have hi : i ∈ (l.map (·.toChatMessage)).map (·.id) := by
    obtain ⟨m, hm, hid⟩ := List.any_eq_true.mp h.any
    rw [List.map_map]
    exact List.mem_map.mpr ⟨m, hm, of_decide_eq_true hid⟩
  unfold mergeHistory
  split
  · rename_i hempty
    refine iff_of_true h fun idx hidx => ?_
    rw [List.isEmpty_iff.mp hempty] at hidx
    cases hidx
  dsimp only
  generalize (incoming.filterMap IncomingRow.read).foldl Merge.step (.start (l.map (·.toChatMessage))) = s at hkeeps hclaimed ⊢
  have hold {idx : Nat} {m : LiveMessage} (hm : l[idx]? = some m) : (l.map (·.toChatMessage))[idx]? = some m.toChatMessage := by
    rw [List.getElem?_map, hm]
    rfl
  split
  · rename_i hnone
    simp only [Bool.and_eq_true, Bool.not_eq_true'] at hnone
    refine iff_of_true h fun idx hidx => ?_
    rw [← hclaimed, hkeeps.untouched hnone.2] at hidx
    cases hidx
  have hfresh (k : Nat) (group : List ChatMessage) (hgroup : s.inserts.get k = some group) (m : ChatMessage)
      (hm : m ∈ group) : m.id ≠ i := by
    rintro rfl
    exact hkeeps.fresh k group hgroup m hm hi
  have hlen : s.next.length = l.length := hkeeps.length.trans (List.length_map _)
  constructor
  · intro hsingle idx hidx b hb hid
    -- What is under the id afterwards was not claimed, but the bubble was.
    obtain ⟨b', hb', -⟩ := hsingle
    rw [filter_weaveLive hfresh] at hb'
    have hmem : b' ∈ [b'] := List.mem_singleton.mpr rfl
    rw [← hb', List.mem_filter] at hmem
    obtain ⟨idx', hidx'⟩ := List.mem_iff_getElem?.mp hmem.1
    obtain ⟨m, now, hm, hnow, rfl⟩ := List.getElem?_zipWith_eq_some.mp hidx'
    have hnowid : now.id = i := of_decide_eq_true hmem.2
    by_cases hfree : idx' ∈ s.claimed
    · exact hkeeps.taken idx' hfree now hnow (hnowid ▸ hi)
    · rw [hkeeps.kept idx' hfree, hold hm] at hnow
      obtain rfl := Option.some.inj hnow
      have hsame := h.index hm hb hnowid hid
      exact hfree (hsame ▸ (hclaimed idx).mpr hidx)
  · intro hspares
    obtain ⟨b, hb, hrest⟩ := h
    refine ⟨b, ?_, hrest⟩
    rw [filter_weaveLive hfresh, filter_zipWith hlen fun idx m now hm hnow => ?_, hb]
    by_cases hidx : idx ∈ s.claimed
    · have hid := hspares idx ((hclaimed idx).mp hidx) m hm
      rw [if_neg hid]
      rintro rfl
      exact hkeeps.taken idx hidx now hnow hi
    · rw [hkeeps.kept idx hidx, hold hm] at hnow
      obtain rfl := Option.some.inj hnow
      split
      · rfl
      · assumption

/-! ### One step -/

theorem head_of_plugin (hi : startsWith i "webchannel-" = true) : i.toList.head? = some 'w' := by
  obtain ⟨rest, hrest⟩ := List.isPrefixOf_iff_prefix.mp hi
  rw [← hrest]
  rfl

theorem user_ne (hi : startsWith i "webchannel-" = true) (x : String) : "u-" ++ x ≠ i := by
  rintro rfl
  have hhead := head_of_plugin hi
  rw [String.toList_append] at hhead
  cases hhead

theorem agent_ne (hi : startsWith i "webchannel-" = true) (x : String) : "a-" ++ x ≠ i := by
  rintro rfl
  have hhead := head_of_plugin hi
  rw [String.toList_append] at hhead
  cases hhead

/-- The bubble is single, and it is not one that is held. -/
structure Kept (i : String) (w : State) : Prop where
  single : Single i w.messages
  held : ∀ e ∈ w.held, e.localId ≠ i

namespace Kept

variable {w w' : State} {E : Environment}

theorem same (h : Kept i w) (hmessages : w'.messages = w.messages) (hheld : w'.held = w.held) : Kept i w' :=
  ⟨hmessages ▸ h.single, hheld ▸ h.held⟩

theorem receipt (h : Single i l) {key : String} {m : LiveMessage} (hm : m ∈ l) (hkey : m.receiptKey = some key) : m.id ≠ i := by
  intro hid
  obtain ⟨b, hb, -, -, -, hnone⟩ := h
  have hmem : m ∈ l.filter (·.id = i) := List.mem_filter.mpr ⟨hm, decide_eq_true hid⟩
  rw [hb, List.mem_singleton] at hmem
  rw [hmem, hnone] at hkey
  cases hkey

theorem failEntries (h : Single i w.messages) (entries : List HeldEntry) {patch : LiveMessage → LiveMessage}
    (hid : ∀ m, (patch m).id = m.id) : Single i (w.failEntries entries patch).messages := by
  have hfold (l : List LiveMessage) (hl : Single i l) :
      Single i (entries.foldl (fun messages e => patchBubbleByReceiptKey messages e.receiptKey patch) l) := by
    induction entries generalizing l with
    | nil => exact hl
    | cons e entries ih => exact ih _ (hl.updateFirst hid fun m hm hkey => receipt hl hm (of_decide_eq_true hkey))
  exact hfold _ h

theorem releaseEntry (h : Single i w.messages) {entry : HeldEntry} (hentry : entry.localId ≠ i) :
    Single i (w.releaseEntry E entry).messages := by
  unfold State.releaseEntry
  dsimp only
  split
  · rename_i bubble hfind
    refine (h.remove hentry).append ?_
    have hid := List.find?_some hfind
    exact of_decide_eq_true hid ▸ hentry
  · exact h

theorem maybeRelease (h : Kept i w) : Kept i (w.maybeRelease E) := by
  unfold State.maybeRelease
  split
  · exact h
  have hfold (entries : List HeldEntry) (w : State) (hw : Kept i w) (hentries : ∀ e ∈ entries, e.localId ≠ i) :
      Kept i (entries.foldl (State.releaseEntry E) w) := by
    induction entries generalizing w with
    | nil => exact hw
    | cons e entries ih =>
      refine ih _ ⟨releaseEntry hw.single (hentries e (.head _)), fun e' he' => hw.held e' ?_⟩
        fun e' he' => hentries e' (.tail _ he')
      exact List.mem_of_mem_tail he'
  exact hfold w.held w h h.held

theorem finalizeLocalTurnState (h : Kept i w) : Kept i w.finalizeLocalTurnState := ⟨h.single.settle, h.held⟩

theorem publish (h : Kept i w) (hi : startsWith i "webchannel-" = true) (trimmed : String) :
    Kept i (w.publish E trimmed) := ⟨h.single.append (user_ne hi _), h.held⟩

theorem hold (h : Kept i w) (hi : startsWith i "webchannel-" = true) (trimmed : String) : Kept i (w.hold trimmed) := by
  refine ⟨h.single.append (user_ne hi _), fun e he => ?_⟩
  obtain he | he := List.mem_append.mp he
  · exact h.held e he
  · rw [List.mem_singleton.mp he]
    exact user_ne hi _

theorem markHeldRetracted (h : Kept i w) : Kept i w.markHeldRetracted :=
  ⟨failEntries (w := { w with held := [] }) h.single w.held fun _ => rfl, nofun⟩

theorem failHeld (h : Kept i w) : Kept i w.failHeld :=
  ⟨failEntries (w := { w with held := [] }) h.single w.held fun _ => rfl, nofun⟩

theorem send (h : Kept i w) (hi : startsWith i "webchannel-" = true) (trimmed : String) : Kept i (w.send E trimmed) := by
  unfold State.send
  split
  · exact h
  split
  · split
    · exact (h.markHeldRetracted.finalizeLocalTurnState.publish hi trimmed).maybeRelease
    · exact h.publish hi trimmed
  · split
    · exact h.hold hi trimmed
    · exact h.publish hi trimmed

theorem retract (h : Kept i w) (id : String) : Kept i (w.retract id) := by
  unfold State.retract
  split
  · rename_i m hfind
    split
    · rename_i hlocal
      have hne : id ≠ i := by
        rintro rfl
        obtain ⟨b, hb, -, hpending, hretracted, -⟩ := h.single
        have hhead := List.head?_filter (p := fun m : LiveMessage => decide (m.id = id)) (l := w.messages)
        rw [hb, hfind] at hhead
        obtain rfl := Option.some.inj hhead
        simp [hpending, hretracted] at hlocal
      exact ⟨h.single.remove hne, fun e he => h.held e (List.mem_of_mem_eraseP he)⟩
    · exact h
  · exact h

theorem handleProgress (h : Kept i w) (id text turnId : Option String) : Kept i (w.handleProgress id text turnId) := by
  refine ⟨?_, h.held⟩
  by_cases hid : id.getD "" = i
  · unfold State.handleProgress
    dsimp only [State.disarmStaleDraft]
    rw [hid]
    refine (h.single.upsert_self ?_ ?_).1
    · exact fun _ => rfl
    · exact fun _ => ⟨rfl, rfl, rfl, rfl⟩
  · exact h.single.upsert_other hid (fun _ => rfl) rfl

theorem handleAgentMessage (h : Kept i w) (hi : startsWith i "webchannel-" = true) (id text turnId : Option String)
    (assistantMessageIndex : Option Nat) : Kept i (w.handleAgentMessage id text turnId assistantMessageIndex) := by
  unfold State.handleAgentMessage
  dsimp only
  split
  · exact ⟨h.single.append (agent_ne hi _), h.held⟩
  refine ⟨?_, h.held⟩
  by_cases hid : id.getD "" = i
  · dsimp only [State.disarmStaleDraft]
    rw [hid]
    refine (h.single.upsert_self ?_ ?_).1
    · exact fun _ => rfl
    · exact fun _ => ⟨rfl, rfl, rfl, rfl⟩
  · exact h.single.upsert_other hid (fun _ => rfl) rfl

theorem handleFrame (h : Kept i w) (hi : startsWith i "webchannel-" = true) {frame : Frame}
    (hspared : Spared i w (.message frame)) : Kept i (w.handleFrame frame) := by
  cases frame with
  | history messages => exact ⟨(h.single.history_iff messages).mpr hspared, h.held⟩
  | typing => exact h.same rfl rfl
  | progress id text turnId => exact h.handleProgress id text turnId
  | reasoning id turnId text =>
    unfold State.handleFrame
    dsimp only
    split
    · exact h
    · exact h.same rfl rfl
  | toolActivity id turnId =>
    unfold State.handleFrame
    dsimp only
    split
    · exact h
    · exact h.same rfl rfl
  | turnSettled turnId =>
    unfold State.handleFrame State.finalizeDraftsForTurn
    dsimp only
    split
    · exact h.same rfl rfl
    · exact ⟨h.single.settle, h.held⟩
  | agentMessage id text turnId assistantMessageIndex => exact h.handleAgentMessage hi id text turnId assistantMessageIndex
  | other settlesTyping =>
    unfold State.handleFrame
    dsimp only
    split
    · exact h.same rfl rfl
    · exact h

theorem step (h : Kept i w) (hi : startsWith i "webchannel-" = true) {a : Action} (hspared : Spared i w a)
    (hstep : State.step E w a = some w') : Kept i w' := by
  cases a with
  | message frame =>
    obtain rfl := Option.some.inj hstep
    exact (h.handleFrame hi hspared).maybeRelease
  | connection connected =>
    obtain rfl := Option.some.inj hstep
    unfold State.onState
    dsimp only
    split
    · exact h.same rfl rfl
    · exact h.same rfl rfl
  | session =>
    obtain rfl := Option.some.inj hstep
    unfold State.onSession
    split
    · exact h
    · exact (h.same rfl rfl : Kept i ({ w with sessionEstablished := true, connected := true }.armStaleDraftWatch)).maybeRelease
  | staleDraftTimer =>
    rw [State.step] at hstep
    split at hstep
    · obtain rfl := Option.some.inj hstep
      unfold State.expireStaleDrafts
      dsimp only
      split
      · exact h.same rfl rfl
      · exact maybeRelease ⟨h.single.settle, h.held⟩
    · cases hstep
  | error =>
    obtain rfl := Option.some.inj hstep
    have hfail : Kept i ({ w with terminal := true }.failHeld) := failHeld (h.same rfl rfl)
    exact hfail.finalizeLocalTurnState.same rfl rfl
  | connect =>
    obtain rfl := Option.some.inj hstep
    exact h.same rfl rfl
  | close =>
    obtain rfl := Option.some.inj hstep
    exact failHeld (h.same rfl rfl)
  | send trimmed =>
    obtain rfl := Option.some.inj hstep
    exact h.send hi trimmed
  | retract id =>
    obtain rfl := Option.some.inj hstep
    exact h.retract id

end Kept

/-! ### Runs -/

/-- The bubbles that are held were created by `send`. -/
def HeldBySend (w : State) : Prop := ∀ e ∈ w.held, ∃ x, e.localId = "u-" ++ x

namespace HeldBySend

variable {w w' : State} {E : Environment}

theorem same (h : HeldBySend w) (hheld : w'.held = w.held) : HeldBySend w' := by
  unfold HeldBySend
  rw [hheld]
  exact h

theorem maybeRelease (h : HeldBySend w) : HeldBySend (w.maybeRelease E) := by
  unfold State.maybeRelease
  split
  · exact h
  rename_i hrelease
  clear hrelease
  generalize w.held = entries
  induction entries generalizing w with
  | nil => exact h
  | cons e entries ih => exact ih (w := w.releaseEntry E e) fun e' he' => h e' (List.mem_of_mem_tail he')

theorem handleFrame (h : HeldBySend w) (frame : Frame) : HeldBySend (w.handleFrame frame) := by
  refine h.same ?_
  cases frame with
  | history messages => rfl
  | typing => rfl
  | progress id text turnId => rfl
  | reasoning id turnId text =>
    unfold State.handleFrame
    dsimp only
    split <;> rfl
  | toolActivity id turnId =>
    unfold State.handleFrame
    dsimp only
    split <;> rfl
  | turnSettled turnId =>
    unfold State.handleFrame State.finalizeDraftsForTurn
    dsimp only
    split <;> rfl
  | agentMessage id text turnId assistantMessageIndex =>
    unfold State.handleFrame State.handleAgentMessage
    dsimp only
    split <;> rfl
  | other settlesTyping =>
    unfold State.handleFrame
    dsimp only
    split <;> rfl

theorem send (h : HeldBySend w) (trimmed : String) : HeldBySend (w.send E trimmed) := by
  unfold State.send
  split
  · exact h
  split
  · split
    · exact maybeRelease (w := (w.markHeldRetracted.finalizeLocalTurnState).publish E trimmed) nofun
    · exact h.same rfl
  · split
    · intro e he
      obtain he | he := List.mem_append.mp he
      · exact h e he
      · rw [List.mem_singleton.mp he]
        exact ⟨_, rfl⟩
    · exact h.same rfl

theorem step {a : Action} (h : HeldBySend w) (hstep : State.step E w a = some w') : HeldBySend w' := by
  cases a with
  | message frame =>
    obtain rfl := Option.some.inj hstep
    exact (h.handleFrame frame).maybeRelease
  | connection connected =>
    obtain rfl := Option.some.inj hstep
    refine h.same ?_
    unfold State.onState
    dsimp only
    split <;> rfl
  | session =>
    obtain rfl := Option.some.inj hstep
    unfold State.onSession
    split
    · exact h
    · exact maybeRelease (h.same rfl)
  | staleDraftTimer =>
    rw [State.step] at hstep
    split at hstep
    · obtain rfl := Option.some.inj hstep
      unfold State.expireStaleDrafts
      dsimp only
      split
      · exact h.same rfl
      · exact maybeRelease (h.same rfl)
    · cases hstep
  | error =>
    obtain rfl := Option.some.inj hstep
    exact fun _ he => by cases he
  | connect =>
    obtain rfl := Option.some.inj hstep
    exact h.same rfl
  | close =>
    obtain rfl := Option.some.inj hstep
    exact fun _ he => by cases he
  | send trimmed =>
    obtain rfl := Option.some.inj hstep
    exact h.send trimmed
  | retract id =>
    obtain rfl := Option.some.inj hstep
    unfold State.retract
    split
    · split
      · exact fun e he => h e (List.mem_of_mem_eraseP he)
      · exact h
    · exact h

theorem reached (h : Reached (State.step E) .create w) : HeldBySend w :=
  h.invariant nofun fun _ _ _ hI _ hstep => hI.step hstep

end HeldBySend

/-- A progress frame with a new id creates its bubble. -/
theorem Kept.create {w : State} {E : Environment} (hi : startsWith i "webchannel-" = true) (hw : Reached (State.step E) .create w)
    (hnew : ∀ m ∈ w.messages, m.id ≠ i) (text turnId : Option String) :
    Kept i (w.handleMessage E (.progress (some i) text turnId)) := by
  refine Kept.maybeRelease ⟨⟨agentBubble i (text.getD "") true turnId none, ?_, rfl, rfl, rfl, rfl⟩, fun e he => ?_⟩
  · have hany : w.messages.any (·.id = i) = false := List.any_eq_false.mpr fun m hm => by simpa using hnew m hm
    unfold State.handleFrame State.handleProgress
    dsimp only [State.disarmStaleDraft, Option.getD_some]
    rw [upsertMessage, if_neg (by rw [hany]; decide), List.filter_append,
      List.filter_eq_nil_iff.mpr fun m hm => by simpa using hnew m hm]
    exact List.filter_cons_of_pos (p := fun m : LiveMessage => decide (m.id = i)) (decide_eq_true rfl)
  · obtain ⟨x, hx⟩ := HeldBySend.reached hw e he
    rw [hx]
    exact user_ne hi x

def sampleEnvironment : Environment := ⟨(· = "/stop"), (· = "/stop"), fun n => "m-" ++ toString n⟩

end Webchannel.Wrapper
