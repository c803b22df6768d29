import Mathlib.Data.List.Forall2
import Webchannel.Activity.Sink

/-!
# What a frame may depend on

Two sequences of events that differ only in what a tool was given and what it answered are sent as the
same frames.
-/

namespace Webchannel.Activity

variable {ν : Type} {e e' : AgentEventLike ν}

/-- The fields that are read by their values. -/
def sharedFields : List String :=
  ["phase", "name", "kind", "status", "isError", "itemId", "toolCallId", "hideFromChannelProgress",
    "suppressChannelProgress"]

def arrayFields : List String := ["added", "modified", "deleted"]

def isPatchEvent (event : AgentEventLike ν) : Bool :=
  event.stream = some (js "patch") ∨ event.stream = some (js "item") ∧ itemKind event = some (js "patch")

/-- The value is no text of the count grammar. -/
def OutsideGrammar (data : Json ν) : Prop :=
  ∀ s, data.member "summary" = some (.str s) → isPinnedPatchSummary s = false

/-- The two events agree on everything but contents. -/
structure Agree (e e' : AgentEventLike ν) : Prop where
  runId : e.runId = e'.runId
  stream : e.stream = e'.stream
  plain : (∃ l, e.data = .obj l) ↔ ∃ l, e'.data = .obj l
  fields : ∀ k ∈ sharedFields, e.data.member k = e'.data.member k
  args : argKeys e.data = argKeys e'.data
  arrays : ∀ k ∈ arrayFields, arrayLength e.data k = arrayLength e'.data k
  summary : e.data.member "summary" = e'.data.member "summary" ∨
    OutsideGrammar e.data ∧ OutsideGrammar e'.data ∨
    (∃ k ∈ arrayFields, arrayLength e.data k ≠ none) ∨ isPatchEvent e = false

/-! ## The readers -/

theorem readEventString_congr {d d' : Json ν} {key : String} (h : d.member key = d'.member key) :
    readEventString d key = readEventString d' key := by
  unfold readEventString
  rw [h]

theorem readsBool_congr {d d' : Json ν} {key : String} (h : d.member key = d'.member key) (value : Bool) :
    readsBool d key value = readsBool d' key value := by
  unfold readsBool
  rw [h]

namespace Agree

variable (h : Agree e e')

include h

theorem string (key : String) (hkey : key ∈ sharedFields) : readEventString e.data key = readEventString e'.data key :=
  readEventString_congr (h.fields key hkey)

theorem bool (key : String) (hkey : key ∈ sharedFields) (value : Bool) :
    readsBool e.data key value = readsBool e'.data key value := readsBool_congr (h.fields key hkey) value

theorem phase : readEventString e.data "phase" = readEventString e'.data "phase" := h.string "phase" (by decide)

theorem status : readEventString e.data "status" = readEventString e'.data "status" := h.string "status" (by decide)

theorem itemKind : itemKind e = itemKind e' := by
  unfold Activity.itemKind
  rw [h.stream, h.string "kind" (by decide)]

theorem identity (runId : JsString) : identity runId e.data = identity runId e'.data := by
  unfold Activity.identity
  rw [h.string "itemId" (by decide), h.string "toolCallId" (by decide),
    h.string "name" (by decide)]

theorem tracksInvocation : tracksInvocation e = tracksInvocation e' := by
  unfold Activity.tracksInvocation
  rw [h.stream, h.itemKind]

theorem canonicalStart : canonicalStart e = canonicalStart e' := by
  unfold Activity.canonicalStart
  rw [h.phase, h.stream, h.itemKind]

theorem explicitTerminalToolStatus (phase : Option JsString) :
    explicitTerminalToolStatus e.data phase = explicitTerminalToolStatus e'.data phase := by
  unfold Activity.explicitTerminalToolStatus
  rw [h.status, h.bool "isError" (by decide), h.bool "isError" (by decide)]

theorem terminalToolStatus (phase : Option JsString) :
    terminalToolStatus e.data phase = terminalToolStatus e'.data phase := by
  unfold Activity.terminalToolStatus
  rw [h.explicitTerminalToolStatus]

end Agree

/-! ## Summaries -/

theorem readSafePatchSummary_of_outside {d : Json ν} (h : OutsideGrammar d) (hno : ∀ k ∈ arrayFields, arrayLength d k = none) :
    readSafePatchSummary d = none := by
  unfold readSafePatchSummary
  dsimp only
  rw [if_neg (by
    rw [hno "added" (by decide), hno "modified" (by decide), hno "deleted" (by decide)]
    exact fun h => h.elim (absurd rfl) fun h => h.elim (absurd rfl) (absurd rfl))]
  unfold readEventString
  cases hsummary : d.member "summary" with
  | none => rfl
  | some v =>
    cases v with
    | str s =>
      dsimp only
      split
      · rfl
      · refine Option.filter_eq_none_iff.mpr fun t ht => ?_
        rw [← Option.some.inj ht, h s hsummary]
        simp only [Bool.false_eq_true, and_false, decide_false, not_false_eq_true]
    | null => rfl
    | bool b => rfl
    | num n => rfl
    | arr l => rfl
    | obj l => rfl

/-- The summary of a patch event. -/
theorem Agree.readSafePatchSummary (h : Agree e e') (hpatch : isPatchEvent e = true) :
    readSafePatchSummary e.data = readSafePatchSummary e'.data := by
  have hadded := h.arrays "added" (by decide)
  have hmodified := h.arrays "modified" (by decide)
  have hdeleted := h.arrays "deleted" (by decide)
  by_cases hno : ∀ k ∈ arrayFields, arrayLength e.data k = none
  · have hno' : ∀ k ∈ arrayFields, arrayLength e'.data k = none := fun k hk => (h.arrays k hk).symm.trans (hno k hk)
    obtain hsame | ⟨hout, hout'⟩ | ⟨k, hk, hsome⟩ | hnot := h.summary
    · unfold Activity.readSafePatchSummary
      rw [hadded, hmodified, hdeleted, readEventString_congr hsame]
    · rw [readSafePatchSummary_of_outside hout hno, readSafePatchSummary_of_outside hout' hno']
    · exact absurd (hno k hk) hsome
    · rw [hnot] at hpatch
      cases hpatch
  · have harray : ∀ d : Json ν, (¬ ∀ k ∈ arrayFields, arrayLength d k = none) →
        arrayLength d "added" ≠ none ∨ arrayLength d "modified" ≠ none ∨ arrayLength d "deleted" ≠ none := by
      intro d hd
      by_contra hnone
      rw [not_or, not_or, not_not, not_not, not_not] at hnone
      refine hd fun k hk => ?_
      simp only [arrayFields, List.mem_cons, List.not_mem_nil, or_false] at hk
      obtain rfl | rfl | rfl := hk
      · exact hnone.1
      · exact hnone.2.1
      · exact hnone.2.2
    have hno' : ¬ ∀ k ∈ arrayFields, arrayLength e'.data k = none := fun hall =>
      hno fun k hk => (h.arrays k hk).trans (hall k hk)
    unfold Activity.readSafePatchSummary
    dsimp only
    rw [if_pos (harray e.data hno), if_pos (harray e'.data hno'), hadded, hmodified, hdeleted]

/-! ## Frames -/

theorem Agree.project (h : Agree e e') : project e = project e' := by
  have hitem : e'.stream = some (js "item") →
      (if Activity.itemKind e' = some (js "patch") then Activity.readSafePatchSummary e.data else none) =
        if Activity.itemKind e' = some (js "patch") then Activity.readSafePatchSummary e'.data else none := by
    intro hstream
    split
    · rename_i hkind
      exact h.readSafePatchSummary (decide_eq_true (.inr ⟨h.stream.trans hstream, h.itemKind.trans hkind⟩))
    · rfl
  have hpatch : (if e'.stream = some (js "patch") then Activity.readSafePatchSummary e.data else none) =
      if e'.stream = some (js "patch") then Activity.readSafePatchSummary e'.data else none := by
    split
    · rename_i hstream
      exact h.readSafePatchSummary (decide_eq_true (.inl (h.stream.trans hstream)))
    · rfl
  unfold Activity.project
  dsimp only
  rw [h.stream, h.phase, h.status, h.itemKind, h.args, h.terminalToolStatus,
    h.explicitTerminalToolStatus, h.bool "suppressChannelProgress" (by decide), hpatch]
  split
  · rfl
  split
  · rename_i hstream
    rw [hitem hstream]
  · rfl

theorem Agree.correlatedId (h : Agree e e') (c : Correlation) (runId : JsString) (phase : Option JsString) :
    correlatedId c runId e.data phase = correlatedId c runId e'.data phase := by
  unfold Activity.correlatedId
  rw [h.identity, h.status]

namespace AgentToolActivitySink

theorem emit_congr (h : Agree e e') (turnId runId : JsString) (s : AgentToolActivitySink) :
    emit turnId runId e s = emit turnId runId e' s := by
  unfold emit
  rw [h.project, h.phase]
  cases project e' with
  | none => rfl
  | some p =>
    dsimp only
    rw [h.correlatedId, h.string "name" (by decide)]

theorem screen_congr (h : Agree e e') (runId : JsString) (t : HiddenToolActivityTracker) :
    screen runId e t = screen runId e' t := by
  unfold screen
  rw [h.identity, h.bool "hideFromChannelProgress" (by decide), h.tracksInvocation, h.canonicalStart]

theorem handle_congr (h : Agree e e') (turnId : JsString) (s : AgentToolActivitySink) :
    handle turnId s e = handle turnId s e' := by
  cases hrun : e.runId with
  | none =>
    unfold handle
    rw [← h.runId, hrun]
  | some runId =>
    by_cases hobj : ∃ l, e.data = .obj l
    · obtain ⟨l, hl⟩ := hobj
      obtain ⟨l', hl'⟩ := h.plain.mp ⟨l, hl⟩
      unfold handle
      rw [← h.runId, hrun, hl, hl']
      dsimp only
      rw [screen_congr h, emit_congr h]
    · have hobj' : ¬ ∃ l, e'.data = .obj l := fun hl => hobj (h.plain.mpr hl)
      have hskip : ∀ d : AgentEventLike ν, (¬ ∃ l, d.data = .obj l) → handle turnId s d = (none, s) := by
        intro d hd
        unfold handle
        split
        · rename_i l _ hl
          exact absurd ⟨_, hl⟩ hd
        · rfl
      rw [hskip e hobj, hskip e' hobj']

theorem run_congr {es es' : List (AgentEventLike ν)} (h : List.Forall₂ Agree es es') (turnId : JsString)
    (s : AgentToolActivitySink) : run turnId s es = run turnId s es' := by
  induction h generalizing s with
  | nil => rfl
  | cons hhead _ ih =>
    unfold run
    rw [handle_congr hhead]
    dsimp only
    rw [ih]

/-- What a tool was given and what it answered leaves no trace in what is sent. -/
theorem activity_contents_private (turnId : JsString) {es es' : List (AgentEventLike ν)} (h : List.Forall₂ Agree es es') :
    (run turnId {} es).1 = (run turnId {} es').1 := by
  rw [run_congr h]

/-- A start with one argument. -/
def startWith (value : Json Nat) : AgentEventLike Nat where
  runId := some (js "run")
  stream := some (js "tool")
  data := .obj [(js "phase", .str (js "start")), (js "name", .str (js "bash")), (js "toolCallId", .str (js "call")),
    (js "args", .obj [(js "command", value)])]

theorem startWith_agree (v v' : Json Nat) : Agree (startWith v) (startWith v') where
  runId := rfl
  stream := rfl
  plain := ⟨fun _ => ⟨_, rfl⟩, fun _ => ⟨_, rfl⟩⟩
  fields k hk := by
    simp only [sharedFields, List.mem_cons, List.not_mem_nil, or_false] at hk
    obtain rfl | rfl | rfl | rfl | rfl | rfl | rfl | rfl | rfl := hk <;> rfl
  args := rfl
  arrays k hk := by
    simp only [arrayFields, List.mem_cons, List.not_mem_nil, or_false] at hk
    obtain rfl | rfl | rfl := hk <;> rfl
  summary := .inl rfl

theorem activity_contents_private_command :
    (run (js "turn") {} [startWith (.str (js "rm secret"))]).1 = (run (js "turn") {} [startWith (.num 1)]).1 :=
  activity_contents_private (js "turn") (.cons (startWith_agree _ _) .nil)

end AgentToolActivitySink

end Webchannel.Activity
