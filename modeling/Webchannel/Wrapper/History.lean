import Mathlib.Data.List.Sublists
import Webchannel.Lib.OrderedMap

/-!
# The merge of a history frame

`case "history"` of `handleFrame` in `nats-client-wrapper.ts`. A row of the frame is matched
with a message on the screen by its id, by role and text, or by its position after the match
before it; a row without a match goes in front of the message at the cursor, which stands
behind the last match. The cursor starts at the top, so the rows before the first match go
to the top whatever the screen shows there.
-/

namespace Webchannel.Wrapper

inductive ChatRole where
  | user
  | agent
  deriving DecidableEq, Repr

def ChatRole.text : ChatRole → String
  | .user => "user"
  | .agent => "agent"

/-- The fields of a message that the merge reads or writes. -/
structure ChatMessage where
  id : String
  role : ChatRole
  text : String
  ts : Option Int
  working : Bool
  assistantMessageIndex : Option Nat
  pending : Bool
  retracted : Bool
  deriving DecidableEq, Repr

/-- A row of the transcript. -/
structure StoredRow where
  id : String
  role : ChatRole
  text : String
  ts : Option Int
  deriving DecidableEq, Repr

/-- A row as it comes in; a field of a wrong type is `none`. -/
structure IncomingRow where
  id : Option String
  role : Option ChatRole
  text : Option String
  ts : Option Int
  deriving DecidableEq, Repr

def StoredRow.wire (row : StoredRow) : IncomingRow := ⟨some row.id, some row.role, some row.text, row.ts⟩

/-- The checks at the head of the loop. -/
def IncomingRow.read (m : IncomingRow) : Option StoredRow :=
  match m.id, m.role, m.text with
  | some id, some role, some text => if id = "" then none else some ⟨id, role, text, m.ts⟩
  | _, _, _ => none

def startsWith (s p : String) : Bool := p.toList.isPrefixOf s.toList

/-- The id is from a local namespace and the message may take a server id. -/
def isLocalLiveId (m : ChatMessage) : Bool :=
  match m.role with
  | .user => startsWith m.id "u-" && !m.pending && !m.retracted
  | .agent => !m.working && (startsWith m.id "a-" || startsWith m.id "webchannel-")

def adoptKey (role : ChatRole) (text : String) : String := role.text ++ " " ++ text

/-- A row that no message matches becomes a message. -/
def StoredRow.fresh (m : StoredRow) : ChatMessage := ⟨m.id, m.role, m.text, m.ts, false, none, false, false⟩

/-- The variables of the loop. -/
structure Merge where
  next : List ChatMessage
  seen : List String
  localIndexById : OrderedMap String Nat
  claimed : List Nat
  adoptable : OrderedMap String (List Nat)
  inserts : OrderedMap Nat (List ChatMessage)
  anchor : Option Nat
  cursor : Nat
  adopted : Bool

namespace Merge

def indexById (l : List (ChatMessage × Nat)) : OrderedMap String Nat :=
  l.foldl (fun m e => m.set e.1.id e.2) .empty

def adoptables (l : List (ChatMessage × Nat)) : OrderedMap String (List Nat) :=
  l.foldl (fun m e =>
    if isLocalLiveId e.1 then
      let key := adoptKey e.1.role e.1.text
      m.set key ((m.get key).getD [] ++ [e.2])
    else m) .empty

def start (existing : List ChatMessage) : Merge where
  next := existing
  seen := existing.map (·.id)
  localIndexById := indexById existing.zipIdx
  claimed := []
  adoptable := adoptables existing.zipIdx
  inserts := .empty
  anchor := none
  cursor := 0
  adopted := false

def adoptAt (s : Merge) (idx : Nat) (m : StoredRow) : Merge := { s with
  next := s.next.modify idx fun old =>
    { old with id := m.id, text := m.text, ts := m.ts, assistantMessageIndex := none }
  claimed := idx :: s.claimed
  localIndexById := s.localIndexById.set m.id idx
  adopted := true
  anchor := some idx
  cursor := idx + 1 }

/-- Skip the messages that are held or retracted. -/
def candidate : List ChatMessage → Nat → Nat
  | m :: rest, i => if m.pending || m.retracted then candidate rest (i + 1) else i
  | [], i => i

/-- The agent bubble behind the anchor that may be this row's live rendering. -/
def positional (s : Merge) (m : StoredRow) : Option Nat := do
  let anchor ← s.anchor
  let cand := candidate (s.next.drop (anchor + 1)) (anchor + 1)
  let bubble ← s.next[cand]?
  if m.role = .agent ∧ cand ∉ s.claimed ∧ bubble.role = .agent ∧ isLocalLiveId bubble then some cand
  else none

def insert (s : Merge) (m : StoredRow) : Merge := { s with
  inserts := s.inserts.set s.cursor ((s.inserts.get s.cursor).getD [] ++ [m.fresh])
  anchor := none }

/-- One turn of the loop. -/
def step (s : Merge) (m : StoredRow) : Merge :=
  if m.id ∈ s.seen then
    match s.localIndexById.get m.id with
    | some li => { s with anchor := some li, cursor := li + 1 }
    | none => { s with anchor := none }
  else
    let s := { s with seen := m.id :: s.seen }
    let key := adoptKey m.role m.text
    match (s.adoptable.get key).map (·.dropWhile (· ∈ s.claimed)) with
    | some (idx :: rest) => { s with adoptable := s.adoptable.set key rest }.adoptAt idx m
    | some [] =>
      let s := { s with adoptable := s.adoptable.set key [] }
      match s.positional m with
      | some cand => s.adoptAt cand m
      | none => s.insert m
    | none =>
      match s.positional m with
      | some cand => s.adoptAt cand m
      | none => s.insert m

/-- The messages with each group of fresh rows in front of the message at its cursor. -/
def weave (inserts : OrderedMap Nat (List ChatMessage)) : Nat → List ChatMessage → List ChatMessage
  | i, [] => (inserts.get i).getD []
  | i, m :: rest => (inserts.get i).getD [] ++ m :: weave inserts (i + 1) rest

end Merge

/-- The messages after a history frame. -/
def handleHistory (messages : List ChatMessage) (incoming : List IncomingRow) : List ChatMessage :=
  if incoming.isEmpty then messages
  else
    let s := (incoming.filterMap IncomingRow.read).foldl Merge.step (.start messages)
    if s.inserts.size = 0 && !s.adopted then messages else Merge.weave s.inserts 0 s.next

/-! ## Messages under server ids -/

/-- An id outside the local namespaces: those of echoes, of agent bubbles without an id and
of live frames. -/
def ServerId (id : String) : Prop :=
  startsWith id "u-" = false ∧ startsWith id "a-" = false ∧ startsWith id "webchannel-" = false

instance (id : String) : Decidable (ServerId id) :=
  inferInstanceAs (Decidable (_ ∧ _ ∧ _))

theorem ServerId.not_live {m : ChatMessage} (h : ServerId m.id) : isLocalLiveId m = false := by
  obtain ⟨hu, ha, hw⟩ := h
  cases hr : m.role <;> simp [isLocalLiveId, hr, hu, ha, hw]

namespace Merge

variable {s : Merge} {L : List ChatMessage} {m : StoredRow}

theorem adoptables_of_server (h : ∀ m ∈ L, ServerId m.id) : adoptables L.zipIdx = .empty := by
  have hlive (e : ChatMessage × Nat) (he : e ∈ L.zipIdx) : isLocalLiveId e.1 = false :=
    (h e.1 (List.fst_mem_of_mem_zipIdx he)).not_live
  unfold adoptables
  generalize L.zipIdx = l at hlive
  induction l with
  | nil => rfl
  | cons e l ih =>
    rw [List.foldl_cons, if_neg (by simp [hlive e (.head _)])]
    exact ih fun e' he' => hlive e' (.tail _ he')

theorem get_indexById {l : List (ChatMessage × Nat)} (h : (l.map (·.1.id)).Nodup) {id : String}
    {i : Nat} : (indexById l).get id = some i ↔ ∃ m, (m, i) ∈ l ∧ m.id = id := by
  unfold indexById
  induction l using List.reverseRecOn with
  | nil => simp
  | append_singleton l e ih =>
    rw [List.map_append, List.nodup_append] at h
    rw [List.foldl_append, List.foldl_cons, List.foldl_nil, OrderedMap.get_set_eq]
    split
    · rename_i hid
      constructor
      · intro hi
        obtain rfl := Option.some.inj hi
        exact ⟨e.1, by simp, hid.symm⟩
      · rintro ⟨m, hm, hmid⟩
        rcases List.mem_append.mp hm with hm | hm
        · refine absurd ?_ (h.2.2 m.id (List.mem_map.mpr ⟨(m, i), hm, rfl⟩) e.1.id (by simp))
          rw [hmid, hid]
        · rw [← List.mem_singleton.mp hm]
    · rename_i hid
      rw [ih h.1]
      constructor
      · rintro ⟨m, hm, hmid⟩
        exact ⟨m, List.mem_append_left _ hm, hmid⟩
      · rintro ⟨m, hm, hmid⟩
        rcases List.mem_append.mp hm with hm | hm
        · exact ⟨m, hm, hmid⟩
        · rw [← List.mem_singleton.mp hm] at hid
          exact absurd hmid.symm hid

theorem indexById_eq (h : (L.map (·.id)).Nodup) {i : Nat} {held : ChatMessage} (hi : L[i]? = some held) :
    (indexById L.zipIdx).get held.id = some i := by
  have hnodup : (L.zipIdx.map (·.1.id)).Nodup := by
    have hmap : (L.zipIdx.map Prod.fst).map (·.id) = L.zipIdx.map (·.1.id) := List.map_map
    rw [← hmap, List.zipIdx_map_fst]
    exact h
  refine (get_indexById hnodup).mpr ⟨held, ?_, rfl⟩
  exact List.mem_zipIdx_iff_getElem?.mpr hi

/-- Nothing has been adopted: the messages are as they were. -/
structure Plain (s : Merge) (L : List ChatMessage) : Prop where
  next : s.next = L
  index : s.localIndexById = indexById L.zipIdx
  adoptable : s.adoptable = .empty
  adopted : s.adopted = false

theorem positional_none (h : s.Plain L) (hserver : ∀ m ∈ L, ServerId m.id) : s.positional m = none := by
  unfold positional
  cases s.anchor with
  | none => rfl
  | some anchor =>
    simp only [Option.bind_eq_bind, Option.bind_some]
    cases hget : s.next[candidate (s.next.drop (anchor + 1)) (anchor + 1)]? with
    | none => rfl
    | some bubble =>
      rw [h.next] at hget
      have hlive := (hserver bubble (List.mem_of_getElem? hget)).not_live
      simp [hlive]

theorem step_held (h : s.Plain L) (hnodup : (L.map (·.id)).Nodup) {i : Nat} {held : ChatMessage}
    (hi : L[i]? = some held) (hid : held.id = m.id) (hseen : m.id ∈ s.seen) :
    s.step m = { s with anchor := some i, cursor := i + 1 } := by
  have hget : s.localIndexById.get m.id = some i := by
    rw [h.index, ← hid]
    exact indexById_eq hnodup hi
  simp only [step, hseen, if_true, hget]

theorem step_fresh (h : s.Plain L) (hserver : ∀ m ∈ L, ServerId m.id) (hseen : m.id ∉ s.seen) :
    s.step m = { s with seen := m.id :: s.seen }.insert m := by
  have hnone : { s with seen := m.id :: s.seen }.positional m = none :=
    positional_none (L := L) ⟨h.next, h.index, h.adoptable, h.adopted⟩ hserver
  simp only [h.adoptable] at hnone
  simp only [step, hseen, if_false, h.adoptable, OrderedMap.get_empty, Option.map_none, hnone]

/-! ## Placement -/

section Placement

variable {inserts : OrderedMap Nat (List ChatMessage)}

theorem weave_plain {j : Nat} (h : ∀ i, j ≤ i → inserts.get i = none) : weave inserts j L = L := by
  induction L generalizing j with
  | nil => simp [weave, h j (Nat.le_refl j)]
  | cons m L ih =>
    rw [weave, h j (Nat.le_refl j), ih fun i hi => h i (Nat.le_of_succ_le hi)]
    rfl

/-- A fresh message at the last slot in use goes behind what stands in front of the cursor. -/
theorem weave_set {j n : Nat} {x : ChatMessage} (h : ∀ i, j + n < i → inserts.get i = none)
    (hn : n ≤ L.length) : ∃ pre, weave inserts j L = pre ++ L.drop n ∧
      weave (inserts.set (j + n) ((inserts.get (j + n)).getD [] ++ [x])) j L = pre ++ [x] ++ L.drop n := by
  induction n generalizing j L with
  | zero =>
    refine ⟨(inserts.get j).getD [], ?_, ?_⟩
    · cases L with
      | nil => simp [weave]
      | cons m L =>
        rw [weave, weave_plain fun i hi => h i (by omega), List.drop_zero]
    · have hlater (i : Nat) (hi : j + 1 ≤ i) :
          (inserts.set (j + 0) ((inserts.get (j + 0)).getD [] ++ [x])).get i = none := by
        rw [OrderedMap.get_set_of_ne _ _ (by omega)]
        exact h i (by omega)
      cases L with
      | nil => simp [weave]
      | cons m L =>
        rw [weave, weave_plain hlater, List.drop_zero, Nat.add_zero, OrderedMap.get_set_self]
        simp
  | succ n ih =>
    cases L with
    | nil => cases hn
    | cons m L =>
      have hstep : j + (n + 1) = j + 1 + n := by omega
      obtain ⟨pre, hold, hnew⟩ := ih (j := j + 1) (L := L) (fun i hi => h i (by omega))
        (Nat.le_of_succ_le_succ hn)
      refine ⟨(inserts.get j).getD [] ++ m :: pre, ?_, ?_⟩
      · rw [weave, hold]
        simp
      · rw [weave, hstep, hnew, OrderedMap.get_set_of_ne _ _ (by omega)]
        simp

end Placement

/-- What stands in front of the cursor is `pre`; behind it the messages are untouched. -/
structure Placed (s : Merge) (L pre : List ChatMessage) : Prop where
  weave : weave s.inserts 0 L = pre ++ L.drop s.cursor
  later : ∀ i, s.cursor < i → s.inserts.get i = none
  cursor : s.cursor ≤ L.length

theorem Placed.insert {pre : List ChatMessage} (h : s.Placed L pre) :
    (s.insert m).Placed L (pre ++ [m.fresh]) := by
  have hlater (i : Nat) (hi : 0 + s.cursor < i) : s.inserts.get i = none := h.later i (by omega)
  obtain ⟨pre', hold, hnew⟩ := weave_set (x := m.fresh) hlater h.cursor
  have hpre : pre' = pre := List.append_cancel_right (hold.symm.trans h.weave)
  rw [Nat.zero_add, hpre] at hnew
  refine ⟨hnew, fun i hi => ?_, h.cursor⟩
  change s.cursor < i at hi
  change (s.inserts.set s.cursor _).get i = none
  rw [OrderedMap.get_set_of_ne _ _ (Nat.ne_of_gt hi)]
  exact h.later i hi

theorem Placed.advance {pre : List ChatMessage} (h : s.Placed L pre) {i : Nat} (anchor : Option Nat)
    (hi : s.cursor ≤ i) (hlt : i < L.length) :
    { s with anchor, cursor := i + 1 }.Placed L (pre ++ (L.drop s.cursor).take (i + 1 - s.cursor)) := by
  refine ⟨?_, fun j hj => h.later j (by dsimp only at hj; omega), hlt⟩
  have hdrop : L.drop (i + 1) = (L.drop s.cursor).drop (i + 1 - s.cursor) := by
    rw [List.drop_drop]
    congr 1
    omega
  change Merge.weave s.inserts 0 L = _
  rw [h.weave, hdrop, List.append_assoc, List.take_append_drop]

/-- The message a row ends up as: the one that is held under its id, or a fresh one. -/
def resolve (L : List ChatMessage) (m : StoredRow) : ChatMessage :=
  (L.find? (·.id = m.id)).getD m.fresh

theorem resolve_held (hnodup : (L.map (·.id)).Nodup) {held : ChatMessage} (hmem : held ∈ L)
    (hid : held.id = m.id) : resolve L m = held := by
  have hsome : (L.find? (·.id = m.id)).isSome = true :=
    List.find?_isSome.mpr ⟨held, hmem, decide_eq_true hid⟩
  obtain ⟨found, hfound⟩ := Option.isSome_iff_exists.mp hsome
  have hfid : found.id = m.id := by simpa using List.find?_some hfound
  have hsame := List.inj_on_of_nodup_map hnodup (List.mem_of_find?_eq_some hfound) hmem
    (hfid.trans hid.symm)
  rw [resolve, hfound, Option.getD_some, hsame]

theorem resolve_fresh (h : m.id ∉ L.map (·.id)) : resolve L m = m.fresh := by
  have hnone : L.find? (·.id = m.id) = none := by
    refine List.find?_eq_none.mpr fun held hmem heq => h ?_
    exact List.mem_map.mpr ⟨held, hmem, of_decide_eq_true heq⟩
  rw [resolve, hnone, Option.getD_none]

theorem resolve_id (L : List ChatMessage) (m : StoredRow) : (resolve L m).id = m.id := by
  cases hfind : L.find? (·.id = m.id) with
  | none =>
    rw [resolve, hfind]
    rfl
  | some held =>
    have hid : held.id = m.id := by simpa using List.find?_some hfind
    rw [resolve, hfind]
    exact hid

/-- The loop over rows of which the held ones are the next messages behind the cursor. -/
theorem foldl_contiguous (hserver : ∀ m ∈ L, ServerId m.id) (hnodup : (L.map (·.id)).Nodup)
    {rows : List StoredRow} (hrows : (rows.map (·.id)).Nodup) {pre M tail : List ChatMessage}
    (hplain : s.Plain L) (hplaced : s.Placed L pre)
    (hseen : ∀ m ∈ rows, m.id ∈ s.seen ↔ m.id ∈ L.map (·.id)) (hL : L.drop s.cursor = M ++ tail)
    (hM : M.map (·.id) = (rows.map (·.id)).filter (· ∈ L.map (·.id))) :
    (rows.foldl step s).Plain L ∧ (rows.foldl step s).Placed L (pre ++ rows.map (resolve L)) ∧
      L.drop (rows.foldl step s).cursor = tail ∧
      ∀ id, id ∈ (rows.foldl step s).seen ↔ id ∈ s.seen ∨
        (id ∈ rows.map (·.id) ∧ id ∉ L.map (·.id)) := by
  induction rows generalizing s pre M with
  | nil =>
    obtain rfl : M = [] := by simpa using hM
    exact ⟨hplain, by simpa using hplaced, hL, by simp⟩
  | cons m rows ih =>
    rw [List.map_cons, List.nodup_cons] at hrows
    rw [List.foldl_cons]
    by_cases hheld : m.id ∈ L.map (·.id)
    · rw [List.map_cons, List.filter_cons_of_pos (by simpa using hheld)] at hM
      obtain ⟨held, M', rfl, hid, hM'⟩ := List.map_eq_cons_iff.mp hM
      have hget : L[s.cursor]? = some held := by
        have hhead := congrArg List.head? hL
        rw [List.head?_drop] at hhead
        exact hhead
      have hlt : s.cursor < L.length := (List.getElem?_eq_some_iff.mp hget).1
      have hdrop : L.drop (s.cursor + 1) = M' ++ tail := by
        rw [← List.drop_drop, hL]
        rfl
      rw [step_held hplain hnodup hget hid ((hseen m (.head _)).mpr hheld)]
      have hadvance := hplaced.advance (some s.cursor) (Nat.le_refl _) hlt
      rw [hL, Nat.add_sub_cancel_left] at hadvance
      obtain ⟨hp, hpl, ht, hs⟩ := ih hrows.2 (s := { s with anchor := some s.cursor, cursor := s.cursor + 1 })
        ⟨hplain.next, hplain.index, hplain.adoptable, hplain.adopted⟩ hadvance
        (fun m' hm' => hseen m' (.tail _ hm')) hdrop hM'
      refine ⟨hp, ?_, ht, fun id => (hs id).trans ?_⟩
      · rw [List.map_cons, resolve_held hnodup (List.mem_of_getElem? hget) hid]
        simpa using hpl
      · constructor
        · rintro (h | ⟨h, hn⟩)
          · exact .inl h
          · exact .inr ⟨List.mem_cons_of_mem _ h, hn⟩
        · rintro (h | ⟨h, hn⟩)
          · exact .inl h
          · rcases List.mem_cons.mp h with rfl | h
            · exact absurd hheld hn
            · exact .inr ⟨h, hn⟩
    · rw [List.map_cons, List.filter_cons_of_neg (by simpa using hheld)] at hM
      have hfresh : m.id ∉ s.seen := fun h => hheld ((hseen m (.head _)).mp h)
      rw [step_fresh hplain hserver hfresh]
      have hinsert : ({ s with seen := m.id :: s.seen }.insert m).Placed L (pre ++ [m.fresh]) :=
        Placed.insert ⟨hplaced.weave, hplaced.later, hplaced.cursor⟩
      have hseen' (m' : StoredRow) (hm' : m' ∈ rows) :
          m'.id ∈ m.id :: s.seen ↔ m'.id ∈ L.map (·.id) := by
        have hne : m'.id ≠ m.id := by
          intro heq
          exact hrows.1 (heq ▸ List.mem_map_of_mem hm')
        rw [List.mem_cons, or_iff_right hne]
        exact hseen m' (.tail _ hm')
      obtain ⟨hp, hpl, ht, hs⟩ := ih hrows.2 (s := { s with seen := m.id :: s.seen }.insert m)
        ⟨hplain.next, hplain.index, hplain.adoptable, hplain.adopted⟩ hinsert hseen' hL hM
      refine ⟨hp, ?_, ht, fun id => (hs id).trans ?_⟩
      · rw [List.map_cons, resolve_fresh hheld]
        simpa using hpl
      · constructor
        · rintro (h | ⟨h, hn⟩)
          · rcases List.mem_cons.mp h with rfl | h
            · exact .inr ⟨List.mem_cons_self, hheld⟩
            · exact .inl h
          · exact .inr ⟨List.mem_cons_of_mem _ h, hn⟩
        · rintro (h | ⟨h, hn⟩)
          · exact .inl (List.mem_cons_of_mem _ h)
          · rcases List.mem_cons.mp h with rfl | h
            · exact .inl List.mem_cons_self
            · exact .inr ⟨h, hn⟩

theorem plain_start (hserver : ∀ m ∈ L, ServerId m.id) : (start L).Plain L :=
  ⟨rfl, rfl, adoptables_of_server hserver, rfl⟩

theorem placed_start (L : List ChatMessage) : (start L).Placed L [] := by
  refine ⟨?_, fun i _ => rfl, Nat.zero_le _⟩
  change weave .empty 0 L = [] ++ L.drop 0
  rw [weave_plain fun i _ => OrderedMap.get_empty i]
  rfl

/-- The loop over a slice: its rows before the first match go to the top, the others behind
the messages that come before the slice. -/
theorem foldl_slice (hserver : ∀ m ∈ L, ServerId m.id) (hnodup : (L.map (·.id)).Nodup)
    {before held after : List ChatMessage} (hL : L = before ++ held ++ after)
    {top rest : List StoredRow} (hrows : ((top ++ rest).map (·.id)).Nodup)
    (htop : ∀ m ∈ top, m.id ∉ L.map (·.id)) (hfirst : ∀ m ∈ rest.head?, m.id ∈ L.map (·.id))
    (hheld : held.map (·.id) = (rest.map (·.id)).filter (· ∈ L.map (·.id))) :
    ((top ++ rest).foldl step (start L)).Plain L ∧
      weave ((top ++ rest).foldl step (start L)).inserts 0 L =
        top.map StoredRow.fresh ++ before ++ rest.map (resolve L) ++ after := by
  have hresolve : top.map (resolve L) = top.map StoredRow.fresh :=
    List.map_congr_left fun m hm => resolve_fresh (htop m hm)
  have hnone : (top.map (·.id)).filter (· ∈ L.map (·.id)) = [] := by
    rw [List.filter_eq_nil_iff]
    intro id hid
    obtain ⟨m, hm, rfl⟩ := List.mem_map.mp hid
    simpa using htop m hm
  rw [List.map_append, List.nodup_append] at hrows
  obtain ⟨htopnodup, hrestnodup, hdisjoint⟩ := hrows
  rw [List.foldl_append]
  have hstart : L.drop (start L).cursor = [] ++ L := rfl
  obtain ⟨hplain, hplaced, hcursor, hseen⟩ :=
    foldl_contiguous hserver hnodup htopnodup (plain_start hserver) (placed_start L)
      (fun _ _ => Iff.rfl) hstart (by rw [hnone, List.map_nil])
  rw [hresolve, List.nil_append] at hplaced
  generalize top.foldl step (start L) = s at hplain hplaced hcursor hseen
  cases rest with
  | nil =>
    obtain rfl : held = [] := by simpa using hheld
    refine ⟨hplain, ?_⟩
    have hweave := hplaced.weave
    rw [hcursor] at hweave
    rw [List.foldl_nil, hweave, hL]
    simp
  | cons m rest =>
    have hmem := hfirst m rfl
    rw [List.map_cons, List.filter_cons_of_pos (by simpa using hmem)] at hheld
    obtain ⟨first, held', rfl, hid, hheld'⟩ := List.map_eq_cons_iff.mp hheld
    have hget : L[before.length]? = some first := by
      rw [hL]
      simp
    have hlt : before.length < L.length := (List.getElem?_eq_some_iff.mp hget).1
    have hzero : s.cursor = 0 := by
      have hlen := congrArg List.length hcursor
      rw [List.length_drop] at hlen
      omega
    rw [List.map_cons, List.nodup_cons] at hrestnodup
    rw [List.foldl_cons, step_held hplain hnodup hget hid ((hseen m.id).mpr (.inl hmem))]
    have hadvance := hplaced.advance (some before.length) (by omega) hlt
    have hsplit : L = before ++ [first] ++ (held' ++ after) := by
      rw [hL]
      simp
    have htake : (L.drop s.cursor).take (before.length + 1 - s.cursor) = before ++ [first] := by
      rw [hzero, hsplit]
      exact List.take_left' (by simp)
    have hdrop : L.drop (before.length + 1) = held' ++ after := by
      rw [hsplit]
      exact List.drop_left' (by simp)
    rw [htake] at hadvance
    have hseen' (m' : StoredRow) (hm' : m' ∈ rest) : m'.id ∈ s.seen ↔ m'.id ∈ L.map (·.id) := by
      rw [hseen]
      constructor
      · rintro (h | ⟨h, -⟩)
        · exact h
        · exact absurd rfl (hdisjoint m'.id h m'.id (List.mem_cons_of_mem _ (List.mem_map_of_mem hm')))
      · exact .inl
    obtain ⟨hp, hpl, ht, -⟩ := foldl_contiguous
      (s := { s with anchor := some before.length, cursor := before.length + 1 }) hserver hnodup
      hrestnodup.2 ⟨hplain.next, hplain.index, hplain.adoptable, hplain.adopted⟩ hadvance hseen' hdrop
      hheld'
    refine ⟨hp, ?_⟩
    have hweave := hpl.weave
    rw [ht] at hweave
    rw [hweave, List.map_cons, resolve_held hnodup (List.mem_of_getElem? hget) hid]
    simp

end Merge

/-! ## Transcript order -/

/-- Rows under distinct server ids. -/
structure Transcript where
  rows : List StoredRow
  nodup : (rows.map (·.id)).Nodup
  server : ∀ r ∈ rows, ServerId r.id ∧ r.id ≠ ""

/-- The rows of the screen and of the slice, each once and in the order of the transcript. -/
def InOrder (T : Transcript) (L : List ChatMessage) (slice : List StoredRow) (out : List ChatMessage) :
    Prop :=
  out.map (·.id) =
      (T.rows.map (·.id)).filter (fun id => id ∈ L.map (·.id) ∨ id ∈ slice.map (·.id)) ∧
    (∀ held ∈ L, held ∈ out) ∧
    ∀ m ∈ out, m ∈ L ∨ ∃ r ∈ slice, r.id ∉ L.map (·.id) ∧ m = r.fresh

theorem filter_mem_of_sublist {α : Type} [DecidableEq α] {l l' : List α} (h : l.Sublist l')
    (hnodup : l'.Nodup) : l'.filter (· ∈ l) = l := by
  induction h with
  | slnil => rfl
  | @cons l l' a hsub ih =>
    rw [List.nodup_cons] at hnodup
    have ha : a ∉ l := fun hin => hnodup.1 (hsub.mem hin)
    rw [List.filter_cons_of_neg (by simpa using ha)]
    exact ih hnodup.2
  | @cons_cons l l' a hsub ih =>
    rw [List.nodup_cons] at hnodup
    rw [List.filter_cons_of_pos (by simp)]
    congr 1
    have hcongr : l'.filter (· ∈ a :: l) = l'.filter (· ∈ l) := by
      refine List.filter_congr fun x hx => ?_
      have hne : x ≠ a := by
        rintro rfl
        exact hnodup.1 hx
      simp [hne]
    rw [hcongr]
    exact ih hnodup.2

theorem read_wire {r : StoredRow} (h : r.id ≠ "") : r.wire.read = some r := by
  simp [StoredRow.wire, IncomingRow.read, h]

section Slices

variable (T : Transcript) {before slice after : List StoredRow} {L : List ChatMessage}

theorem handleHistory_slice (hT : T.rows = before ++ slice ++ after)
    (hL : (L.map (·.id)).Sublist (T.rows.map (·.id))) :
    ∃ above held below, L = above ++ held ++ below ∧
      above.map (·.id) = (before.map (·.id)).filter (· ∈ L.map (·.id)) ∧
      below.map (·.id) = (after.map (·.id)).filter (· ∈ L.map (·.id)) ∧
      handleHistory L (slice.map StoredRow.wire) =
        (slice.takeWhile (·.id ∉ L.map (·.id))).map StoredRow.fresh ++ above ++
          (slice.dropWhile (·.id ∉ L.map (·.id))).map (Merge.resolve L) ++ below := by
  have hnodup : (L.map (·.id)).Nodup := T.nodup.sublist hL
  have hserver (m : ChatMessage) (hm : m ∈ L) : ServerId m.id := by
    obtain ⟨r, hr, hid⟩ := List.mem_map.mp (hL.mem (List.mem_map_of_mem hm))
    rw [← hid]
    exact (T.server r hr).1
  have hslice : (slice.map (·.id)).Nodup := by
    have hsub : slice.Sublist T.rows := by
      rw [hT]
      exact (List.sublist_append_right before slice).trans (List.sublist_append_left _ after)
    exact T.nodup.sublist (hsub.map _)
  have hids := filter_mem_of_sublist hL T.nodup
  rw [hT, List.map_append, List.map_append, List.filter_append, List.filter_append] at hids
  obtain ⟨front, below, hfront, hmap, hbelow⟩ := List.map_eq_append_iff.mp hids.symm
  obtain ⟨above, held, rfl, habove, hheld⟩ := List.map_eq_append_iff.mp hmap
  refine ⟨above, held, below, hfront, habove, hbelow, ?_⟩
  generalize htop : slice.takeWhile (·.id ∉ L.map (·.id)) = top
  generalize hrest : slice.dropWhile (·.id ∉ L.map (·.id)) = rest
  have hsplit : slice = top ++ rest := by
    rw [← htop, ← hrest, List.takeWhile_append_dropWhile]
  have htopfresh (m : StoredRow) (hm : m ∈ top) : m.id ∉ L.map (·.id) := by
    rw [← htop] at hm
    exact of_decide_eq_true (List.all_eq_true.mp List.all_takeWhile m hm)
  have hfirst (m : StoredRow) (hm : m ∈ rest.head?) : m.id ∈ L.map (·.id) := by
    rw [← hrest] at hm
    by_contra hn
    have hnot := List.head?_dropWhile_not (fun r : StoredRow => decide (r.id ∉ L.map (·.id))) slice
    rw [hm] at hnot
    simp [hn] at hnot
  have hheld' : held.map (·.id) = (rest.map (·.id)).filter (· ∈ L.map (·.id)) := by
    rw [hheld, hsplit, List.map_append, List.filter_append, List.filter_eq_nil_iff.mpr, List.nil_append]
    intro id hid
    obtain ⟨m, hm, rfl⟩ := List.mem_map.mp hid
    simpa using htopfresh m hm
  rw [hsplit] at hslice
  obtain ⟨hplain, hweave⟩ := Merge.foldl_slice hserver hnodup hfront hslice htopfresh hfirst hheld'
  have hread : (slice.map StoredRow.wire).filterMap IncomingRow.read = slice := by
    rw [List.filterMap_map]
    have hcongr : slice.filterMap (IncomingRow.read ∘ StoredRow.wire) = slice.filterMap some := by
      refine List.filterMap_congr fun r hr => read_wire ?_
      exact (T.server r (by rw [hT]; simp [hr])).2
    rw [hcongr, List.filterMap_some]
  rw [← hweave]
  unfold handleHistory
  dsimp only
  rw [hread, hsplit]
  split
  · -- an empty frame
    rename_i hempty
    have hnil : top ++ rest = [] := by simpa using hempty
    rw [hnil]
    exact (Merge.weave_plain fun i _ => OrderedMap.get_empty i).symm
  · split
    · -- nothing new
      rename_i hnone
      simp only [Bool.and_eq_true, Bool.not_eq_true', decide_eq_true_eq] at hnone
      refine (Merge.weave_plain fun i _ => ?_).symm
      have hkeys := OrderedMap.keys_eq_nil_iff.mpr hnone.1
      rw [← OrderedMap.has_eq_false_iff, Bool.eq_false_iff]
      intro hhas
      have hmem := OrderedMap.mem_keys.mpr hhas
      rw [hkeys] at hmem
      cases hmem
    · rw [hplain.next]

/-- What the order of the transcript asks for. -/
theorem expected_ids (hT : T.rows = before ++ slice ++ after) :
    (T.rows.map (·.id)).filter (fun id => id ∈ L.map (·.id) ∨ id ∈ slice.map (·.id)) =
      (before.map (·.id)).filter (· ∈ L.map (·.id)) ++ slice.map (·.id) ++
        (after.map (·.id)).filter (· ∈ L.map (·.id)) := by
  have hnodup := T.nodup
  rw [hT, List.map_append, List.map_append, List.nodup_append, List.nodup_append] at hnodup
  obtain ⟨⟨-, -, hbefore⟩, -, hafter⟩ := hnodup
  rw [hT, List.map_append, List.map_append, List.filter_append, List.filter_append]
  have hself : (slice.map (·.id)).filter (fun id => id ∈ L.map (·.id) ∨ id ∈ slice.map (·.id)) =
      slice.map (·.id) :=
    List.filter_eq_self.mpr fun id hid => decide_eq_true (.inr hid)
  have hout {l : List String} (hl : ∀ id ∈ l, id ∉ slice.map (·.id)) :
      l.filter (fun id => id ∈ L.map (·.id) ∨ id ∈ slice.map (·.id)) = l.filter (· ∈ L.map (·.id)) :=
    List.filter_congr fun id hid => decide_eq_decide.mpr (or_iff_left (hl id hid))
  rw [hself, hout fun id hid hin => hbefore id hid id hin rfl,
    hout fun id hid hin => hafter id (List.mem_append_right _ hin) id hid rfl]

theorem takeWhile_eq_nil_iff : slice.takeWhile (·.id ∉ L.map (·.id)) = [] ↔
    ∀ first ∈ slice.head?, first.id ∈ L.map (·.id) := by
  cases slice with
  | nil => simp
  | cons r slice =>
    by_cases h : r.id ∈ L.map (·.id)
    · simp only [List.takeWhile_cons, h, not_true_eq_false, decide_false]
      simpa using h
    · simp only [List.takeWhile_cons, h, not_false_eq_true, decide_true]
      simpa using h

end Slices

/-- Three rows of a conversation. -/
def sampleTranscript : Transcript where
  rows := [⟨"c-1", .user, "hi", some 1⟩, ⟨"c-2", .agent, "hello", some 2⟩, ⟨"c-3", .user, "more", some 3⟩]
  nodup := by decide
  server := by decide

end Webchannel.Wrapper
