import Webchannel.Lib.Distinct
import Webchannel.Lib.JsString
import Webchannel.Retention.Budget

/-!
# Coalescing messages

`readCoalescedMemberIds` and `coalesceUserMessages` of `inbound-queue.ts`. The ids that a message carries come from a frame
nobody has looked at: they may be any value.
-/

namespace Webchannel.Dispatch

open Retention (BusyTurnLimits)

def DEFAULT_BUSY_TURN_LIMITS : BusyTurnLimits where
  maxMessagesPerSession := 32
  maxBytesPerSession := 1 * 1024 * 1024
  maxMessagesPerProcess := 1024
  maxBytesPerProcess := 32 * 1024 * 1024

def MAX_COALESCED_MEMBER_ID_LENGTH : Nat := 128

/-- A value of a message; all that is no string and no array is some `ω`. -/
inductive Value (ω : Type) where
  | string (s : JsString)
  | array (items : List (Value ω))
  | other (value : ω)

/-- A property that is not there is `none`, and so is one that is `undefined`. -/
structure UserMessage (ω ρ : Type) where
  text : JsString
  id : Option (Value ω)
  coalescedIds : Option (Value ω)
  /-- The other properties. -/
  carried : ρ

variable {ω ρ : Type}

/-- The id of a value that is a short string. -/
def memberId : Option (Value ω) → Option JsString
  | some (.string id) => if id.length = 0 ∨ id.length > MAX_COALESCED_MEMBER_ID_LENGTH then none else some id
  | _ => none

/-- The loop over the carried values, which ends when there are enough. -/
def collectMembers : List (Value ω) → List JsString → List JsString
  | [], ids => ids
  | candidate :: rest, ids =>
    match memberId (some candidate) with
    | none => collectMembers rest ids
    | some id =>
      if (ids ++ [id]).length ≥ DEFAULT_BUSY_TURN_LIMITS.maxMessagesPerSession then ids ++ [id]
      else collectMembers rest (ids ++ [id])

def readCoalescedMemberIds (source : UserMessage ω ρ) : List JsString :=
  match source.coalescedIds with
  | some (.array raw) => collectMembers raw []
  | _ => []

/-- `addId`; the set of the ids seen is the list. -/
def addId (coalescedIds : List JsString) (id : Option (Value ω)) : List JsString :=
  match memberId id with
  | none => coalescedIds
  | some id =>
    if id ∈ coalescedIds ∨ DEFAULT_BUSY_TURN_LIMITS.maxMessagesPerSession ≤ coalescedIds.length then coalescedIds
    else coalescedIds ++ [id]

def addMessage (coalescedIds : List JsString) (message : UserMessage ω ρ) : List JsString :=
  addId ((readCoalescedMemberIds message).foldl (fun ids id => addId ids (some (.string id : Value ω))) coalescedIds) message.id

def coalesceUserMessages : List (UserMessage ω ρ) → Option (UserMessage ω ρ)
  | [] => none
  | [first] => some first
  | first :: second :: rest =>
    let coalescedIds := (first :: second :: rest).foldl addMessage []
    some {
      text := (js "\n\n").intercalate ((first :: second :: rest).map (·.text))
      id := ((second :: rest).getLast (List.cons_ne_nil _ _)).id
      coalescedIds := if coalescedIds.length > 0 then some (.array (coalescedIds.map .string)) else none
      carried := first.carried }

/-! ## The ids of a message -/

/-- The ids a message brings: the ones it carries, up to the bound, and its own. -/
def contributed (message : UserMessage ω ρ) : List JsString :=
  readCoalescedMemberIds message ++ (memberId message.id).toList

theorem memberId_string {v : Option (Value ω)} {id : JsString} (h : memberId v = some id) :
    memberId (some (.string id) : Option (Value ω)) = some id := by
  unfold memberId at h
  split at h
  · split at h
    · cases h
    · rename_i hlength
      cases h
      exact if_neg hlength
  · cases h

theorem collectMembers_eq (raw : List (Value ω)) {ids : List JsString}
    (h : ids.length < DEFAULT_BUSY_TURN_LIMITS.maxMessagesPerSession) :
    collectMembers raw ids = ids ++ (raw.filterMap fun candidate => memberId (some candidate)).take
      (DEFAULT_BUSY_TURN_LIMITS.maxMessagesPerSession - ids.length) := by
  induction raw generalizing ids with
  | nil => rw [List.filterMap_nil, List.take_nil, List.append_nil, collectMembers]
  | cons candidate rest ih =>
    rw [collectMembers]
    cases hid : memberId (some candidate) with
    | none =>
      rw [List.filterMap_cons_none (f := fun candidate => memberId (some candidate)) hid]
      exact ih h
    | some id =>
      rw [List.filterMap_cons_some (f := fun candidate => memberId (some candidate)) hid]
      dsimp only
      have hlength : (ids ++ [id]).length = ids.length + 1 := List.length_append
      split
      · rename_i hfull
        have hone : DEFAULT_BUSY_TURN_LIMITS.maxMessagesPerSession - ids.length = 1 := by omega
        rw [hone]
        rfl
      · rename_i hroom
        have hmore : DEFAULT_BUSY_TURN_LIMITS.maxMessagesPerSession - ids.length =
            (DEFAULT_BUSY_TURN_LIMITS.maxMessagesPerSession - (ids ++ [id]).length) + 1 := by omega
        rw [ih (Nat.lt_of_not_le hroom), hmore, List.take_succ_cons, List.append_assoc]
        rfl

/-- The values that are ids, up to the bound. -/
theorem readCoalescedMemberIds_array {source : UserMessage ω ρ} {raw : List (Value ω)}
    (h : source.coalescedIds = some (.array raw)) : readCoalescedMemberIds source =
      (raw.filterMap fun candidate => memberId (some candidate)).take DEFAULT_BUSY_TURN_LIMITS.maxMessagesPerSession := by
  unfold readCoalescedMemberIds
  rw [h]
  exact collectMembers_eq raw (by decide)

theorem memberId_of_read {source : UserMessage ω ρ} {id : JsString} (h : id ∈ readCoalescedMemberIds source) :
    memberId (some (.string id) : Option (Value ω)) = some id := by
  cases hraw : source.coalescedIds with
  | none =>
    unfold readCoalescedMemberIds at h
    rw [hraw] at h
    cases h
  | some v =>
    cases v with
    | array raw =>
      rw [readCoalescedMemberIds_array hraw] at h
      obtain ⟨candidate, -, hid⟩ := List.mem_filterMap.mp (List.mem_of_mem_take h)
      exact memberId_string hid
    | string s =>
      unfold readCoalescedMemberIds at h
      rw [hraw] at h
      cases h
    | other v =>
      unfold readCoalescedMemberIds at h
      rw [hraw] at h
      cases h

theorem memberId_of_contributed {message : UserMessage ω ρ} {id : JsString} (h : id ∈ contributed message) :
    memberId (some (.string id) : Option (Value ω)) = some id := by
  obtain h | h := List.mem_append.mp h
  · exact memberId_of_read h
  · exact memberId_string (Option.mem_toList.mp h)

theorem addId_eq (ids : List JsString) (id : Option (Value ω)) :
    addId ids id = Distinct.addAll DEFAULT_BUSY_TURN_LIMITS.maxMessagesPerSession ids (memberId id).toList := by
  unfold addId
  cases memberId id with
  | none => rfl
  | some id =>
    by_cases hfull : id ∈ ids ∨ DEFAULT_BUSY_TURN_LIMITS.maxMessagesPerSession ≤ ids.length
    · exact (if_pos hfull).trans (Distinct.add_of_full hfull).symm
    · exact (if_neg hfull).trans (if_neg hfull).symm

theorem addMessage_eq (ids : List JsString) (message : UserMessage ω ρ) :
    addMessage ids message =
      Distinct.addAll DEFAULT_BUSY_TURN_LIMITS.maxMessagesPerSession ids (contributed message) := by
  have hfold (l : List JsString) (hl : ∀ id ∈ l, memberId (some (.string id) : Option (Value ω)) = some id)
      (ids : List JsString) : l.foldl (fun ids id => addId ids (some (.string id : Value ω))) ids =
        Distinct.addAll DEFAULT_BUSY_TURN_LIMITS.maxMessagesPerSession ids l := by
    induction l generalizing ids with
    | nil => rfl
    | cons id l ih =>
      rw [List.foldl_cons, addId_eq, hl id List.mem_cons_self]
      exact ih (fun id' hid' => hl id' (List.mem_cons_of_mem id hid')) _
  unfold addMessage contributed
  rw [addId_eq, hfold _ (fun id hid => memberId_of_read hid), Distinct.addAll_append]

/-- The ids of several messages. -/
theorem foldl_addMessage (ids : List JsString) (messages : List (UserMessage ω ρ)) :
    messages.foldl addMessage ids =
      Distinct.addAll DEFAULT_BUSY_TURN_LIMITS.maxMessagesPerSession ids (messages.flatMap contributed) := by
  induction messages generalizing ids with
  | nil => rfl
  | cons message messages ih =>
    rw [List.foldl_cons, ih, addMessage_eq, List.flatMap_cons, Distinct.addAll_append]

/-! ## Groups -/

/-- The ids that a list of messages comes to. -/
def memberIds (messages : List (UserMessage ω ρ)) : List JsString :=
  Distinct.addAll DEFAULT_BUSY_TURN_LIMITS.maxMessagesPerSession [] (messages.flatMap contributed)

/-- The merged message of two or more. -/
def merged (messages : List (UserMessage ω ρ)) (hne : messages ≠ []) : UserMessage ω ρ where
  text := (js "\n\n").intercalate (messages.map (·.text))
  id := (messages.getLast hne).id
  coalescedIds := if (memberIds messages).length > 0 then some (.array ((memberIds messages).map .string)) else none
  carried := (messages.head hne).carried

theorem coalesce_merged {messages : List (UserMessage ω ρ)} (hne : messages ≠ []) (htwo : 2 ≤ messages.length) :
    coalesceUserMessages messages = some (merged messages hne) := by
  match messages, htwo with
  | first :: second :: rest, _ =>
    unfold coalesceUserMessages merged memberIds
    dsimp only
    rw [foldl_addMessage]
    rfl

theorem mem_memberIds {messages : List (UserMessage ω ρ)} {id : JsString} (h : id ∈ memberIds messages) :
    memberId (some (.string id) : Option (Value ω)) = some id := by
  have hmem := (Distinct.mem_of_mem_addAll h).resolve_left List.not_mem_nil
  obtain ⟨message, -, hid⟩ := List.mem_flatMap.mp hmem
  exact memberId_of_contributed hid

/-- The reader gives back what the producer wrote. -/
theorem read_merged (messages : List (UserMessage ω ρ)) (hne : messages ≠ []) :
    readCoalescedMemberIds (merged messages hne) = memberIds messages := by
  cases hids : memberIds messages with
  | nil =>
    unfold readCoalescedMemberIds merged
    rw [hids]
    rfl
  | cons id ids =>
    have harray : (merged messages hne).coalescedIds = some (.array ((memberIds messages).map .string)) := by
      unfold merged
      dsimp only
      rw [if_pos (by rw [hids]; exact Nat.zero_lt_succ _)]
    have hlength : (memberIds messages).length ≤ DEFAULT_BUSY_TURN_LIMITS.maxMessagesPerSession :=
      Distinct.length_addAll_le (Nat.zero_le _)
    rw [readCoalescedMemberIds_array harray, List.filterMap_map, ← hids]
    have hvalid : (memberIds messages).filterMap (fun id => memberId (some (.string id) : Option (Value ω))) =
        memberIds messages := by
      refine (List.filterMap_congr fun id hid => ?_).trans List.filterMap_some
      exact mem_memberIds hid
    exact (congrArg (List.take _) hvalid).trans (List.take_of_length_le hlength)

/-! ## Nesting -/

section Nesting

variable {g messages : List (UserMessage ω ρ)} {m : UserMessage ω ρ} {groups : List (List (UserMessage ω ρ))}

/-- What a group comes to. -/
def IsGroup (g : List (UserMessage ω ρ)) (m : UserMessage ω ρ) : Prop := coalesceUserMessages g = some m

theorem IsGroup.ne_nil (h : IsGroup g m) : g ≠ [] := by
  rintro rfl
  cases h

/-- A group is one message or a merged one. -/
theorem IsGroup.cases (h : IsGroup g m) : g = [m] ∨ m = merged g h.ne_nil := by
  match g, h with
  | [first], h => exact .inl (congrArg (fun m => [m]) (Option.some.inj h))
  | first :: second :: rest, h =>
    have hmerged := coalesce_merged (List.cons_ne_nil first (second :: rest)) (by simp)
    exact .inr (Option.some.inj (h.symm.trans hmerged))

theorem IsGroup.text (h : IsGroup g m) : m.text = (js "\n\n").intercalate (g.map (·.text)) := by
  obtain rfl | hm := h.cases
  · exact List.intercalate_singleton.symm
  · exact congrArg UserMessage.text hm

theorem IsGroup.id (h : IsGroup g m) : m.id = (g.getLast h.ne_nil).id := by
  obtain rfl | hm := h.cases
  · rfl
  · exact (congrArg UserMessage.id hm).trans rfl

theorem IsGroup.carried (h : IsGroup g m) : m.carried = (g.head h.ne_nil).carried := by
  obtain rfl | hm := h.cases
  · rfl
  · exact (congrArg UserMessage.carried hm).trans rfl

/-- A group brings the ids of its messages: after them its own id is no new one. -/
theorem IsGroup.addAll_contributed (h : IsGroup g m) (ids : List JsString) :
    Distinct.addAll DEFAULT_BUSY_TURN_LIMITS.maxMessagesPerSession ids (contributed m) =
      Distinct.addAll DEFAULT_BUSY_TURN_LIMITS.maxMessagesPerSession ids (g.flatMap contributed) := by
  obtain rfl | hm := h.cases
  · rw [List.flatMap_singleton]
  have hown (ids : List JsString) (id : Option JsString) :
      Distinct.addAll DEFAULT_BUSY_TURN_LIMITS.maxMessagesPerSession
        (Distinct.addAll DEFAULT_BUSY_TURN_LIMITS.maxMessagesPerSession ids id.toList) id.toList =
        Distinct.addAll DEFAULT_BUSY_TURN_LIMITS.maxMessagesPerSession ids id.toList := by
    cases id with
    | none => rfl
    | some id => exact Distinct.add_add
  have hlast : g.flatMap contributed = g.dropLast.flatMap contributed ++ readCoalescedMemberIds (g.getLast h.ne_nil) ++
      (memberId m.id).toList := by
    conv => lhs; rw [← List.dropLast_append_getLast h.ne_nil]
    rw [List.flatMap_append, List.flatMap_singleton, h.id, List.append_assoc]
    rfl
  have hcontributed : contributed m = memberIds g ++ (memberId m.id).toList := by
    unfold contributed
    rw [hm, read_merged]
  rw [hcontributed, Distinct.addAll_append]
  unfold memberIds
  rw [Distinct.addAll_addAll, hlast, Distinct.addAll_append, hown]

theorem intercalate_append {α : Type} {sep : List α} {l l' : List (List α)} (hl : l ≠ []) (hl' : l' ≠ []) :
    sep.intercalate (l ++ l') = sep.intercalate l ++ sep ++ sep.intercalate l' := by
  induction l with
  | nil => exact absurd rfl hl
  | cons a l ih =>
    by_cases hnil : l = []
    · rw [hnil, List.singleton_append, List.intercalate_cons_of_ne_nil hl', List.intercalate_singleton]
    · have hne : l ++ l' ≠ [] := List.append_ne_nil_of_left_ne_nil hnil l'
      rw [List.cons_append, List.intercalate_cons_of_ne_nil hne, ih hnil, List.intercalate_cons_of_ne_nil hnil]
      simp only [List.append_assoc]

theorem groups_nil_iff (h : List.Forall₂ IsGroup groups messages) : groups.flatten = [] ↔ messages = [] := by
  cases h with
  | nil => exact ⟨fun _ => rfl, fun _ => rfl⟩
  | cons hg _ =>
    refine ⟨fun hnil => ?_, nofun⟩
    rw [List.flatten_cons] at hnil
    exact absurd (List.append_eq_nil_iff.mp hnil).1 hg.ne_nil

theorem groups_text (h : List.Forall₂ IsGroup groups messages) :
    (js "\n\n").intercalate (messages.map (·.text)) = (js "\n\n").intercalate (groups.flatten.map (·.text)) := by
  induction h with
  | nil => rfl
  | @cons g m groups messages hg h ih =>
    rw [List.map_cons, List.flatten_cons, List.map_append]
    by_cases hnil : messages = []
    · rw [hnil, (groups_nil_iff h).mpr hnil, List.map_nil, List.append_nil, List.intercalate_singleton, hg.text]
    · have hmessages : messages.map (·.text) ≠ [] := mt List.map_eq_nil_iff.mp hnil
      have hflat : groups.flatten.map (·.text) ≠ [] := mt List.map_eq_nil_iff.mp (mt (groups_nil_iff h).mp hnil)
      have htexts : g.map (·.text) ≠ [] := mt List.map_eq_nil_iff.mp hg.ne_nil
      rw [List.intercalate_cons_of_ne_nil hmessages, intercalate_append htexts hflat, ih, hg.text]

theorem groups_id (h : List.Forall₂ IsGroup groups messages) (hne : messages ≠ []) (hflat : groups.flatten ≠ []) :
    (messages.getLast hne).id = (groups.flatten.getLast hflat).id := by
  induction h with
  | nil => exact absurd rfl hne
  | @cons g m groups messages hg h ih =>
    by_cases hnil : messages = []
    · subst hnil
      have hnone := (groups_nil_iff h).mpr rfl
      simp only [List.flatten_cons, hnone, List.append_nil, List.getLast_singleton]
      exact hg.id
    · have hrest := mt (groups_nil_iff h).mp hnil
      simp only [List.flatten_cons, List.getLast_cons hnil, List.getLast_append_of_ne_nil _ hrest]
      exact ih hnil hrest

theorem groups_memberIds (h : List.Forall₂ IsGroup groups messages) (ids : List JsString) :
    Distinct.addAll DEFAULT_BUSY_TURN_LIMITS.maxMessagesPerSession ids (messages.flatMap contributed) =
      Distinct.addAll DEFAULT_BUSY_TURN_LIMITS.maxMessagesPerSession ids (groups.flatten.flatMap contributed) := by
  induction h generalizing ids with
  | nil => rfl
  | cons hg _ ih =>
    rw [List.flatMap_cons, List.flatten_cons, List.flatMap_append, Distinct.addAll_append, Distinct.addAll_append,
      hg.addAll_contributed, ih]

/-- Coalescing coalesced groups is coalescing all their messages. -/
theorem coalesce_flatten (h : List.Forall₂ IsGroup groups messages) :
    coalesceUserMessages messages = coalesceUserMessages groups.flatten := by
  cases h with
  | nil => rfl
  | @cons g m groups messages hg h =>
    by_cases hnil : messages = []
    · subst hnil
      rw [List.flatten_cons, (groups_nil_iff h).mpr rfl, List.append_nil]
      exact hg.symm
    have hall : List.Forall₂ IsGroup (g :: groups) (m :: messages) := .cons hg h
    have hne : m :: messages ≠ [] := List.cons_ne_nil m messages
    have hflat : (g :: groups).flatten ≠ [] := mt (groups_nil_iff hall).mp hne
    have htwo : 2 ≤ (g :: groups).flatten.length := by
      have hg := List.length_pos_iff.mpr hg.ne_nil
      have hrest := List.length_pos_iff.mpr (mt (groups_nil_iff h).mp hnil)
      rw [List.flatten_cons, List.length_append]
      omega
    have htwo' : 2 ≤ (m :: messages).length := Nat.succ_le_succ (List.length_pos_iff.mpr hnil)
    rw [coalesce_merged hne htwo', coalesce_merged hflat htwo]
    have hids : memberIds (m :: messages) = memberIds (g :: groups).flatten := groups_memberIds hall []
    have hcarried : ((g :: groups).flatten.head hflat).carried = (g.head hg.ne_nil).carried := by
      simp only [List.flatten_cons, List.head_append_of_ne_nil hg.ne_nil]
    unfold merged
    rw [groups_text hall, groups_id hall hne hflat, hids, hcarried, List.head_cons, hg.carried]

/-- The values a message carries that are ids. -/
def carriedIds (message : UserMessage ω ρ) : List JsString :=
  match message.coalescedIds with
  | some (.array raw) => raw.filterMap fun candidate => memberId (some candidate)
  | _ => []

theorem contributed_eq (message : UserMessage ω ρ) :
    contributed message = (carriedIds message).take DEFAULT_BUSY_TURN_LIMITS.maxMessagesPerSession ++
      (memberId message.id).toList := by
  unfold contributed
  congr 1
  unfold carriedIds
  split
  · rename_i raw hraw
    exact readCoalescedMemberIds_array hraw
  · rename_i hother
    unfold readCoalescedMemberIds
    split
    · rename_i raw hraw
      exact absurd hraw (hother raw)
    · rw [List.take_nil]

/-- Coalescing groups is coalescing their messages; and of two messages or more the ids that are left are the first
occurrences of the ids that each one brings, which are the first of the ones it carries and its own. -/
theorem coalesce_associative (h : List.Forall₂ IsGroup groups messages) :
    coalesceUserMessages messages = coalesceUserMessages groups.flatten ∧
      ∀ (all : List (UserMessage ω ρ)) (hne : all ≠ []), (all.length = 1 → coalesceUserMessages all = some (all.head hne)) ∧
        (2 ≤ all.length →
          let ids := (all.flatMap fun m => (carriedIds m).take DEFAULT_BUSY_TURN_LIMITS.maxMessagesPerSession ++
            (memberId m.id).toList).eraseDups.take DEFAULT_BUSY_TURN_LIMITS.maxMessagesPerSession
          coalesceUserMessages all = some {
            text := (js "\n\n").intercalate (all.map (·.text))
            id := (all.getLast hne).id
            coalescedIds := if ids.length > 0 then some (.array (ids.map .string)) else none
            carried := (all.head hne).carried }) := by
  refine ⟨coalesce_flatten h, fun all hne => ⟨fun hone => ?_, fun htwo => ?_⟩⟩
  · obtain ⟨m, rfl⟩ := List.length_eq_one_iff.mp hone
    rfl
  · have hids : memberIds all = (all.flatMap fun m => (carriedIds m).take DEFAULT_BUSY_TURN_LIMITS.maxMessagesPerSession ++
        (memberId m.id).toList).eraseDups.take DEFAULT_BUSY_TURN_LIMITS.maxMessagesPerSession := by
      unfold memberIds
      rw [Distinct.addAll_nil]
      congr 3
      funext m
      exact contributed_eq m
    rw [coalesce_merged hne htwo]
    unfold merged
    rw [hids]

end Nesting

/-! ### Members that are carried twice -/

/-- A message with an id that carries nothing. -/
def plain (text id : String) : UserMessage Unit Unit := ⟨js text, some (.string (js id)), none, ()⟩

theorem coalesce_associative_three :
    coalesceUserMessages [⟨js "one\n\ntwo", some (.string (js "b")), some (.array [.string (js "a"), .string (js "b")]), ()⟩,
      plain "three" "c"] = coalesceUserMessages [plain "one" "a", plain "two" "b", plain "three" "c"] := by
  have hgroups : List.Forall₂ IsGroup [[plain "one" "a", plain "two" "b"], [plain "three" "c"]]
      [⟨js "one\n\ntwo", some (.string (js "b")), some (.array [.string (js "a"), .string (js "b")]), ()⟩,
        plain "three" "c"] := .cons rfl (.cons rfl .nil)
  exact (coalesce_associative hgroups).1

/-- A message without an id that carries one member over and over, and then another. -/
def repeating : UserMessage Unit Unit :=
  ⟨js "one", none, some (.array (List.replicate 32 (.string (js "a")) ++ [.string (js "b")])), ()⟩

/-- The second member is not among the ids, though there is room for it; and a message alone has no list at all. -/
theorem coalesce_drops_member :
    (coalesceUserMessages [repeating, ⟨js "two", none, none, ()⟩]).map UserMessage.coalescedIds =
      some (some (.array [.string (js "a")])) ∧
    js "b" ∈ (([repeating, ⟨js "two", none, none, ()⟩] : List (UserMessage Unit Unit)).flatMap fun m =>
      carriedIds m ++ (memberId m.id).toList).eraseDups.take DEFAULT_BUSY_TURN_LIMITS.maxMessagesPerSession ∧
    (coalesceUserMessages [plain "one" "a"]).map UserMessage.coalescedIds = some none := by
  have hids : memberIds [repeating, ⟨js "two", none, none, ()⟩] = [js "a"] := by decide +kernel
  refine ⟨?_, by decide +kernel, rfl⟩
  rw [coalesce_merged (List.cons_ne_nil _ _) (by decide)]
  unfold merged
  rw [hids]
  rfl

end Webchannel.Dispatch
