import Mathlib.Data.List.Induction
import Mathlib.Logic.Function.Basic
import Webchannel.Reasoning.Controller

/-!
# Bursts and blocks

A cumulative stream of reasoning, cut where a burst with visible text is closed: each piece has an id of
its own and ends up on the wire as it is, and so does each durable block.
-/

namespace Webchannel.Reasoning

open Draft (Text isSpace)

/-! ## The stream and its pieces -/

/-- What the runner does: the stream grows, a burst ends, a durable block arrives. -/
inductive Move where
  | push (delta : Text)
  | endBurst
  | block (text : Text)

def Move.Nonempty : Move → Prop
  | .push delta => delta ≠ []
  | .endBurst => True
  | .block text => text ≠ []

/-- The text of the whole stream. -/
def rawText (moves : List Move) : Text :=
  moves.flatMap fun
    | .push delta => delta
    | _ => []

/-- The calls: each push carries the stream so far, which starts as `raw`. -/
def callsFrom (raw : Text) : List Move → List Call
  | [] => []
  | .push delta :: moves => .push (some (raw ++ delta)) :: callsFrom (raw ++ delta) moves
  | .endBurst :: moves => .endBurst :: callsFrom raw moves
  | .block text :: moves => .pushDurableBlock (some text) :: callsFrom raw moves

/-- The closed pieces and the open one. -/
structure Cut where
  closed : List Text
  piece : Text

/-- How piece `k` is displayed. -/
def displayed (k : Nat) (piece : Text) : Text := if k = 0 then piece else piece.dropWhile isSpace

def Cut.shown (c : Cut) : Text := displayed c.closed.length c.piece

def Cut.close (c : Cut) : Cut := if c.shown = [] then c else ⟨c.closed ++ [c.piece], []⟩

def Cut.move (c : Cut) : Move → Cut
  | .push delta => { c with piece := c.piece ++ delta }
  | .endBurst => c.close
  | .block _ => c.close

def cut (moves : List Move) : Cut := moves.foldl Cut.move ⟨[], []⟩

def pieces (moves : List Move) : List Text := (cut moves).closed ++ [(cut moves).piece]

/-- What a frame is about. -/
inductive Owner where
  | live (k : Nat)
  | block (i : Nat)
  deriving DecidableEq

def owner (before : List Move) : Move → Owner
  | .block _ => .block before.length
  | _ => .live (cut before).closed.length

def ownersFrom (before : List Move) : List Move → List Owner
  | [] => []
  | m :: moves => owner before m :: ownersFrom (before ++ [m]) moves

/-! ## What is attempted -/

def framesOf (o : Owner) (sent : List (Owner × Frame)) : List Frame := (sent.filter (·.1 = o)).map Prod.snd

/-- The last frame attempted for the open piece was delivered. -/
def liveDelivered (c : Cut) (sent : List (Owner × Frame)) : Prop :=
  (framesOf (.live c.closed.length) sent).getLast?.any (·.delivered) = true

instance (c : Cut) (sent : List (Owner × Frame)) : Decidable (liveDelivered c sent) := inferInstanceAs (Decidable (_ = _))

/-- The text is what the open burst shows, or its raw payload, and that snapshot was delivered. -/
def Repeats (c : Cut) (sent : List (Owner × Frame)) (text : Text) : Prop :=
  c.shown ≠ [] ∧ liveDelivered c sent ∧ (text = c.shown ∨ text = c.closed.flatten ++ c.piece)

instance (c : Cut) (sent : List (Owner × Frame)) (text : Text) : Decidable (Repeats c sent text) :=
  inferInstanceAs (Decidable (_ ∧ _ ∧ _))

section Run

variable (nextMessageId : Nat → JsString) (params : Params) (results : Nat → Bool)

/-- The frames that the moves try to send, each with what it is about. -/
def attempts (moves : List Move) : List (Owner × Frame) :=
  ((ownersFrom [] moves).zip (session nextMessageId params results (callsFrom [] moves)).log).filterMap
    fun entry => entry.2.map fun frame => (entry.1, frame)

end Run

/-! ## One move after another -/

variable {nextMessageId : Nat → JsString} {params : Params} {results : Nat → Bool}

theorem cut_snoc (moves : List Move) (m : Move) : cut (moves ++ [m]) = (cut moves).move m := by
  simp [cut]

theorem rawText_snoc (moves : List Move) (m : Move) : rawText (moves ++ [m]) = rawText moves ++ rawText [m] := by
  simp [rawText]

theorem callsFrom_snoc (raw : Text) (moves : List Move) (m : Move) :
    callsFrom raw (moves ++ [m]) = callsFrom raw moves ++ callsFrom (raw ++ rawText moves) [m] := by
  induction moves generalizing raw with
  | nil => simp [callsFrom, rawText]
  | cons first moves ih => cases first <;> simp [callsFrom, ih, rawText]

theorem ownersFrom_snoc (before moves : List Move) (m : Move) :
    ownersFrom before (moves ++ [m]) = ownersFrom before moves ++ [owner (before ++ moves) m] := by
  induction moves generalizing before with
  | nil => simp [ownersFrom]
  | cons first moves ih => simp [ownersFrom, ih]

theorem ownersFrom_length (before moves : List Move) : (ownersFrom before moves).length = moves.length := by
  induction moves generalizing before with
  | nil => rfl
  | cons first moves ih => simp [ownersFrom, ih]

/-- The call of a move behind others. -/
def callBehind (moves : List Move) : Move → Call
  | .push delta => .push (some (rawText moves ++ delta))
  | .endBurst => .endBurst
  | .block text => .pushDurableBlock (some text)

theorem calls_snoc (moves : List Move) (m : Move) :
    callsFrom [] (moves ++ [m]) = callsFrom [] moves ++ [callBehind moves m] := by
  rw [callsFrom_snoc]
  cases m <;> rfl

theorem session_snoc (calls : List Call) (call : Call) :
    session nextMessageId params results (calls ++ [call]) =
      (session nextMessageId params results calls).call nextMessageId params results call := by
  simp [session]

theorem log_length (calls : List Call) : (session nextMessageId params results calls).log.length = calls.length := by
  induction calls using List.reverseRecOn with
  | nil => rfl
  | append_singleton calls call ih => simp [session_snoc, Session.call, ih]

/-- The controller behind the moves. -/
def controllerOf (nextMessageId : Nat → JsString) (params : Params) (results : Nat → Bool) (moves : List Move) :
    Controller :=
  (session nextMessageId params results (callsFrom [] moves)).controller

/-- What a move behind others does to the controller and tries to send. -/
def answerTo (nextMessageId : Nat → JsString) (params : Params) (results : Nat → Bool) (moves : List Move)
    (m : Move) : Controller × Option Frame :=
  (controllerOf nextMessageId params results moves).call nextMessageId params (results moves.length)
    (callBehind moves m)

theorem callsFrom_length (raw : Text) (moves : List Move) : (callsFrom raw moves).length = moves.length := by
  induction moves generalizing raw with
  | nil => rfl
  | cons first moves ih => cases first <;> simp [callsFrom, ih]

theorem controllerOf_snoc (moves : List Move) (m : Move) :
    controllerOf nextMessageId params results (moves ++ [m]) = (answerTo nextMessageId params results moves m).1 := by
  rw [controllerOf, calls_snoc, session_snoc, Session.call, log_length, callsFrom_length]
  rfl

theorem attempts_snoc (moves : List Move) (m : Move) :
    attempts nextMessageId params results (moves ++ [m]) = attempts nextMessageId params results moves ++
      ((answerTo nextMessageId params results moves m).2.map fun frame => (owner moves m, frame)).toList := by
  have hlength : (ownersFrom [] moves).length =
      (session nextMessageId params results (callsFrom [] moves)).log.length := by
    rw [ownersFrom_length, log_length, callsFrom_length]
  rw [attempts, calls_snoc, session_snoc, ownersFrom_snoc, List.nil_append, Session.call, log_length,
    callsFrom_length, List.zip_append hlength, List.filterMap_append]
  refine congrArg (attempts nextMessageId params results moves ++ ·) ?_
  simp only [List.zip_cons_cons, List.zip_nil_right, List.filterMap_cons, List.filterMap_nil, answerTo, controllerOf]
  cases ((session nextMessageId params results (callsFrom [] moves)).controller.call nextMessageId params
    (results moves.length) (callBehind moves m)).2 <;> rfl

theorem framesOf_append (o : Owner) (sent sent' : List (Owner × Frame)) :
    framesOf o (sent ++ sent') = framesOf o sent ++ framesOf o sent' := by
  simp [framesOf]

@[simp] theorem framesOf_nil (o : Owner) : framesOf o [] = [] := rfl

@[simp] theorem framesOf_self (o : Owner) (frame : Frame) : framesOf o [(o, frame)] = [frame] := by simp [framesOf]

theorem framesOf_other {o o' : Owner} (frame : Frame) (h : o' ≠ o) : framesOf o [(o', frame)] = [] := by
  simp [framesOf, h]

/-! ## What the controller keeps -/

/-- The controller of a cut, with what was sent in the first `count` calls. -/
structure Inv (nextMessageId : Nat → JsString) (c : Cut) (count : Nat) (sent : List (Owner × Frame))
    (s : Controller) : Prop where
  running : s.stopped = false
  stale : s.stalePrefix = c.closed.flatten
  raw : s.lastRawText = c.closed.flatten ++ c.piece
  current : s.currentText = c.shown
  id : ∃ n, s.drawn = n + 1 ∧ s.id = nextMessageId n
  visible : ∀ k piece, c.closed[k]? = some piece → displayed k piece ≠ []
  live : ∀ x ∈ sent, ∀ k, x.1 = .live k → k ≤ c.closed.length
  block : ∀ x ∈ sent, ∀ i, x.1 = .block i → i < count
  drawn : ∀ x ∈ sent, ∃ n < s.drawn, x.2.id = nextMessageId n
  here : ∀ x ∈ sent, x.2.id = s.id ↔ x.1 = .live c.closed.length
  same : ∀ x ∈ sent, ∀ y ∈ sent, x.2.id = y.2.id ↔ x.1 = y.1
  past : ∀ k piece, c.closed[k]? = some piece →
    (framesOf (.live k) sent).getLast?.map (·.text) = some (displayed k piece)
  present : (framesOf (.live c.closed.length) sent).getLast?.map (·.text) = if c.shown = [] then none else some c.shown
  delivered : s.liveSnapshotDelivered = true ↔ liveDelivered c sent

variable {c : Cut} {count count' : Nat} {sent : List (Owner × Frame)} {s : Controller}

theorem inv_init : Inv nextMessageId (cut []) 0 [] (createReasoningDraftController nextMessageId) where
  running := rfl
  stale := rfl
  raw := rfl
  current := rfl
  id := ⟨0, rfl, rfl⟩
  visible := by simp [cut]
  live := by simp
  block := by simp
  drawn := by simp
  here := by simp
  same := by simp
  past := by simp [cut]
  present := rfl
  delivered := by simp [createReasoningDraftController, liveDelivered]

theorem framesOf_eq_nil {o : Owner} (h : ∀ x ∈ sent, x.1 ≠ o) : framesOf o sent = [] := by
  simpa [framesOf, List.filter_eq_nil_iff] using h

theorem mem_framesOf {o : Owner} {x : Owner × Frame} (hx : x ∈ sent) (ho : x.1 = o) : x.2 ∈ framesOf o sent :=
  List.mem_map_of_mem (List.mem_filter.mpr ⟨hx, decide_eq_true ho⟩)

namespace Inv

/-- Nothing was sent for a burst that shows nothing. -/
theorem unsent (h : Inv nextMessageId c count sent s) (hshown : c.shown = []) :
    ∀ x ∈ sent, x.1 ≠ .live c.closed.length := by
  intro x hx ho
  have hpresent := h.present
  rw [if_pos hshown, Option.map_eq_none_iff, List.getLast?_eq_none_iff] at hpresent
  have hmem := mem_framesOf hx ho
  rw [hpresent] at hmem
  cases hmem

/-- The stale prefix is empty only before the first piece is closed. -/
theorem flatten_eq_nil (h : Inv nextMessageId c count sent s) : c.closed.flatten = [] ↔ c.closed = [] := by
  constructor
  · intro hflat
    cases hclosed : c.closed with
    | nil => rfl
    | cons first rest =>
      rw [hclosed, List.flatten_cons, List.append_eq_nil_iff] at hflat
      have hvisible := h.visible 0 first (by rw [hclosed]; rfl)
      exact absurd hflat.1 hvisible
  · intro hclosed
    rw [hclosed]
    rfl

theorem later (h : Inv nextMessageId c count sent s) (hle : count ≤ count') : Inv nextMessageId c count' sent s :=
  { h with block := fun x hx i hi => Nat.lt_of_lt_of_le (h.block x hx i hi) hle }

end Inv

/-! ## Pushes -/

theorem displayed_append (k : Nat) (piece delta : Text) :
    displayed k (piece ++ delta) =
      if displayed k piece = [] then displayed k delta else displayed k piece ++ delta := by
  unfold displayed
  split
  · split
    · next hnil => rw [hnil, List.nil_append]
    · rfl
  · simp only [List.dropWhile_append, List.isEmpty_iff]

/-- A burst that shows something shows more with every delta. -/
theorem displayed_append_ne {k : Nat} {piece delta : Text} (hdelta : delta ≠ [])
    (hne : displayed k (piece ++ delta) ≠ []) : displayed k (piece ++ delta) ≠ displayed k piece := by
  rw [displayed_append] at hne ⊢
  split
  · next hnil =>
    rw [hnil] at hne ⊢
    simpa using hne
  · intro heq
    exact hdelta (List.append_right_eq_self.mp heq)

theorem displayed_eq_nil_of_append {k : Nat} {piece delta : Text} (h : displayed k (piece ++ delta) = []) :
    displayed k piece = [] := by
  rw [displayed_append] at h
  split at h
  · next hnil => exact hnil
  · next hne => exact absurd (List.append_eq_nil_iff.mp h).1 hne

/-- The stale prefix is cut off, and with it the white space in front of a later piece. -/
theorem push_eq (params : Params) (h : Inv nextMessageId c count sent s) {delta : Text} (hdelta : delta ≠ []) (delivered : Bool) :
    let raw := c.closed.flatten ++ c.piece ++ delta
    let shown := displayed c.closed.length (c.piece ++ delta)
    s.push params delivered (some raw) =
      if shown = [] then ({ s with lastRawText := raw }, none)
      else ({ s with lastRawText := raw, currentText := shown, liveSnapshotDelivered := delivered },
        some ⟨params.sessionKey, s.id, params.turnId, shown, delivered⟩) := by
  intro raw shown
  have hraw : raw ≠ [] := by simp [raw, hdelta]
  have hchanged (hne : shown ≠ []) : shown ≠ s.currentText := by
    rw [h.current]
    exact displayed_append_ne hdelta hne
  unfold Controller.push
  simp only [Option.getD_some, h.running, Bool.false_eq_true, hraw, or_self, if_false, h.stale]
  by_cases hclosed : c.closed = []
  · have hshown : shown = raw := by simp [shown, raw, hclosed, displayed]
    have hne : shown ≠ [] := hshown ▸ hraw
    have hflat : c.closed.flatten = [] := by rw [hclosed, List.flatten_nil]
    simp only [hflat, ne_eq, not_true_eq_false, false_and, if_false]
    rw [← hshown, if_neg (hchanged hne), if_neg hne]
  · have hflat : c.closed.flatten ≠ [] := fun hnil => hclosed (h.flatten_eq_nil.mp hnil)
    have hprefix : c.closed.flatten.isPrefixOf raw = true := by
      rw [List.isPrefixOf_iff_prefix]
      exact ⟨c.piece ++ delta, by simp [raw]⟩
    have hcut : (raw.drop c.closed.flatten.length).dropWhile isSpace = shown := by
      simp [raw, shown, displayed, hclosed]
    simp only [ne_eq, hflat, not_false_eq_true, hprefix, and_self, if_true, hcut, true_and]
    split
    · rfl
    · next hne => rw [if_neg (hchanged hne)]

namespace Inv

/-- White space behind a closed piece stays unseen. -/
theorem push_silent (h : Inv nextMessageId c count sent s) {delta : Text}
    (hshown : displayed c.closed.length (c.piece ++ delta) = []) :
    Inv nextMessageId (c.move (.push delta)) count sent
      { s with lastRawText := c.closed.flatten ++ c.piece ++ delta } := by
  have hbefore : c.shown = [] := displayed_eq_nil_of_append hshown
  exact { h with
    raw := List.append_assoc _ _ _
    current := h.current.trans (hbefore.trans hshown.symm)
    present := by
      have hpresent := h.present
      rw [if_pos hbefore] at hpresent
      exact hpresent.trans (if_pos hshown).symm }

/-- A snapshot replaces the one before it under the id of the burst. -/
theorem push_shown (h : Inv nextMessageId c count sent s) {delta : Text} {frame : Frame}
    (hid : frame.id = s.id) (htext : frame.text = displayed c.closed.length (c.piece ++ delta))
    (hshown : displayed c.closed.length (c.piece ++ delta) ≠ []) :
    Inv nextMessageId (c.move (.push delta)) count (sent ++ [(.live c.closed.length, frame)])
      { s with lastRawText := c.closed.flatten ++ c.piece ++ delta
               currentText := displayed c.closed.length (c.piece ++ delta)
               liveSnapshotDelivered := frame.delivered } where
  running := h.running
  stale := h.stale
  raw := List.append_assoc _ _ _
  current := rfl
  id := h.id
  visible := h.visible
  live := by
    intro x hx k hk
    rcases List.mem_append.mp hx with hx | hx
    · exact h.live x hx k hk
    · obtain rfl := List.mem_singleton.mp hx
      cases hk
      exact Nat.le_refl _
  block := by
    intro x hx i hi
    rcases List.mem_append.mp hx with hx | hx
    · exact h.block x hx i hi
    · obtain rfl := List.mem_singleton.mp hx
      cases hi
  drawn := by
    obtain ⟨n, hdrawn, hn⟩ := h.id
    intro x hx
    rcases List.mem_append.mp hx with hx | hx
    · exact h.drawn x hx
    · obtain rfl := List.mem_singleton.mp hx
      exact ⟨n, by rw [hdrawn]; exact Nat.lt_succ_self n, hid.trans hn⟩
  here := by
    intro x hx
    rcases List.mem_append.mp hx with hx | hx
    · exact h.here x hx
    · obtain rfl := List.mem_singleton.mp hx
      exact ⟨fun _ => rfl, fun _ => hid⟩
  same := by
    intro x hx y hy
    rcases List.mem_append.mp hx with hx | hx <;> rcases List.mem_append.mp hy with hy | hy
    · exact h.same x hx y hy
    · obtain rfl := List.mem_singleton.mp hy
      rw [hid]
      exact h.here x hx
    · obtain rfl := List.mem_singleton.mp hx
      rw [hid, eq_comm, h.here y hy, eq_comm]
    · obtain rfl := List.mem_singleton.mp hx
      obtain rfl := List.mem_singleton.mp hy
      exact ⟨fun _ => rfl, fun _ => rfl⟩
  past := by
    intro k piece hk
    have hlt := (List.getElem?_eq_some_iff.mp hk).1
    have hother : Owner.live c.closed.length ≠ .live k := by
      intro heq
      cases heq
      exact Nat.lt_irrefl _ hlt
    rw [framesOf_append, framesOf_other frame hother, List.append_nil]
    exact h.past k piece hk
  present := by
    have hne : (c.move (.push delta)).shown ≠ [] := hshown
    rw [if_neg hne, framesOf_append]
    have hself : framesOf (.live (c.move (.push delta)).closed.length) [(.live c.closed.length, frame)] = [frame] :=
      framesOf_self _ _
    rw [hself, List.getLast?_concat, Option.map_some, htext]
    rfl
  delivered := by
    change frame.delivered = true ↔ (framesOf (.live c.closed.length) (sent ++ _)).getLast?.any _ = true
    rw [framesOf_append, framesOf_self, List.getLast?_concat, Option.any_some]

end Inv

/-! ## Closing a burst, and blocks -/

namespace Inv

theorem fresh (h : Inv nextMessageId c count sent s) (hinj : Function.Injective nextMessageId) {x : Owner × Frame}
    (hx : x ∈ sent) : x.2.id ≠ nextMessageId s.drawn := by
  intro heq
  obtain ⟨n, hn, hid⟩ := h.drawn x hx
  have hn' : n = s.drawn := hinj (hid.symm.trans heq)
  omega

theorem close (h : Inv nextMessageId c count sent s) (hinj : Function.Injective nextMessageId) :
    Inv nextMessageId c.close count sent (s.closeLiveBurst nextMessageId) := by
  unfold Cut.close Controller.closeLiveBurst
  rw [h.current]
  by_cases hshown : c.shown = []
  · rw [if_pos hshown, if_pos hshown]
    exact h
  · rw [if_neg hshown, if_neg hshown]
    have hlive (x : Owner × Frame) (hx : x ∈ sent) : x.1 ≠ .live (c.closed ++ [c.piece]).length := by
      intro ho
      have hle := h.live x hx _ ho
      rw [List.length_append, List.length_singleton] at hle
      omega
    have hnone : displayed (c.closed ++ [c.piece]).length [] = [] := by simp [displayed]
    have hpiece {k : Nat} {piece : Text} (hk : (c.closed ++ [c.piece])[k]? = some piece) :
        c.closed[k]? = some piece ∨ k = c.closed.length ∧ piece = c.piece := by
      rcases Nat.lt_trichotomy k c.closed.length with hlt | heq | hgt
      · rw [List.getElem?_append_left hlt] at hk
        exact Or.inl hk
      · rw [heq, List.getElem?_concat_length] at hk
        exact Or.inr ⟨heq, (Option.some.inj hk).symm⟩
      · rw [List.getElem?_eq_none (by rw [List.length_append, List.length_singleton]; omega)] at hk
        cases hk
    obtain ⟨n, hdrawn, hn⟩ := h.id
    exact {
      running := h.running
      stale := by simp [h.raw]
      raw := by simp [h.raw, Controller.rotate]
      current := hnone.symm
      id := ⟨s.drawn, rfl, rfl⟩
      visible := by
        intro k piece hk
        rcases hpiece hk with hk | ⟨rfl, rfl⟩
        · exact h.visible k piece hk
        · exact hshown
      live := by
        intro x hx k hk
        rw [List.length_append]
        exact Nat.le_add_right_of_le (h.live x hx k hk)
      block := h.block
      drawn := by
        intro x hx
        obtain ⟨n, hn, hid⟩ := h.drawn x hx
        exact ⟨n, Nat.lt_succ_of_lt hn, hid⟩
      here := fun x hx => ⟨fun hid => absurd hid (h.fresh hinj hx), fun ho => absurd ho (hlive x hx)⟩
      same := h.same
      past := by
        intro k piece hk
        rcases hpiece hk with hk | ⟨rfl, rfl⟩
        · exact h.past k piece hk
        · exact h.present.trans (if_neg hshown)
      present := by
        rw [framesOf_eq_nil hlive]
        exact (if_pos hnone).symm
      delivered := by
        unfold liveDelivered
        rw [framesOf_eq_nil hlive]
        simp }

/-- A block goes out under an id that no burst has used, and leaves a new one behind. -/
theorem sendBlock (h : Inv nextMessageId c count sent s) (hinj : Function.Injective nextMessageId) {frame : Frame}
    (hid : frame.id = s.id) (hshown : c.shown = []) :
    Inv nextMessageId c (count + 1) (sent ++ [(.block count, frame)]) (s.rotate nextMessageId) := by
  have hblock (x : Owner × Frame) (hx : x ∈ sent) : x.1 ≠ .block count := by
    intro ho
    exact Nat.lt_irrefl _ (h.block x hx _ ho)
  have hother (x : Owner × Frame) (hx : x ∈ sent) : x.2.id ≠ frame.id := by
    intro heq
    exact h.unsent hshown x hx ((h.here x hx).mp (heq.trans hid))
  have hframes (k : Nat) : framesOf (.live k) (sent ++ [(.block count, frame)]) = framesOf (.live k) sent := by
    rw [framesOf_append, framesOf_other frame (by simp), List.append_nil]
  obtain ⟨n, hdrawn, hn⟩ := h.id
  exact {
    running := h.running
    stale := h.stale
    raw := h.raw
    current := h.current
    id := ⟨s.drawn, rfl, rfl⟩
    visible := h.visible
    live := by
      intro x hx k hk
      rcases List.mem_append.mp hx with hx | hx
      · exact h.live x hx k hk
      · obtain rfl := List.mem_singleton.mp hx
        cases hk
    block := by
      intro x hx i hi
      rcases List.mem_append.mp hx with hx | hx
      · exact Nat.lt_succ_of_lt (h.block x hx i hi)
      · obtain rfl := List.mem_singleton.mp hx
        cases hi
        exact Nat.lt_succ_self _
    drawn := by
      intro x hx
      rcases List.mem_append.mp hx with hx | hx
      · obtain ⟨n, hn, hid⟩ := h.drawn x hx
        exact ⟨n, Nat.lt_succ_of_lt hn, hid⟩
      · obtain rfl := List.mem_singleton.mp hx
        have hlt : n < s.drawn + 1 := by omega
        exact ⟨n, hlt, hid.trans hn⟩
    here := by
      intro x hx
      rcases List.mem_append.mp hx with hx | hx
      · exact ⟨fun heq => absurd heq (h.fresh hinj hx), fun ho => absurd ho (h.unsent hshown x hx)⟩
      · obtain rfl := List.mem_singleton.mp hx
        constructor
        · intro heq
          have hn' : n = s.drawn := hinj (hn.symm.trans (hid.symm.trans heq))
          omega
        · intro ho
          cases ho
    same := by
      intro x hx y hy
      rcases List.mem_append.mp hx with hx | hx <;> rcases List.mem_append.mp hy with hy | hy
      · exact h.same x hx y hy
      · obtain rfl := List.mem_singleton.mp hy
        exact ⟨fun heq => absurd heq (hother x hx), fun ho => absurd ho (hblock x hx)⟩
      · obtain rfl := List.mem_singleton.mp hx
        exact ⟨fun heq => absurd heq.symm (hother y hy), fun ho => absurd ho.symm (hblock y hy)⟩
      · obtain rfl := List.mem_singleton.mp hx
        obtain rfl := List.mem_singleton.mp hy
        exact ⟨fun _ => rfl, fun _ => rfl⟩
    past := by
      intro k piece hk
      rw [hframes]
      exact h.past k piece hk
    present := by
      rw [hframes]
      exact h.present
    delivered := by
      unfold liveDelivered
      rw [hframes]
      exact h.delivered }

end Inv

theorem shown_close (c : Cut) : c.close.shown = [] := by
  unfold Cut.close
  split
  · next hshown => exact hshown
  · simp [Cut.shown, displayed]

/-! ## The run -/

theorem pushDurableBlock_eq (h : Inv nextMessageId c count sent s) {text : Text} (htext : text ≠ [])
    (delivered : Bool) :
    s.pushDurableBlock nextMessageId params delivered (some text) =
      if Repeats c sent text then (s.closeLiveBurst nextMessageId, none)
      else ((s.closeLiveBurst nextMessageId).rotate nextMessageId,
        some ⟨params.sessionKey, (s.closeLiveBurst nextMessageId).id, params.turnId, text, delivered⟩) := by
  have hcond : (s.liveSnapshotDelivered ∧ s.currentText ≠ [] ∧ (text = s.currentText ∨ text = s.lastRawText)) ↔
      Repeats c sent text := by
    rw [h.delivered, h.current, h.raw, Repeats]
    exact and_left_comm
  unfold Controller.pushDurableBlock
  simp only [Option.getD_some, h.running, Bool.false_eq_true, htext, or_self, if_false]
  by_cases hrepeats : Repeats c sent text
  · rw [if_pos (hcond.mpr hrepeats), if_pos hrepeats]
  · rw [if_neg fun hc => hrepeats (hcond.mp hc), if_neg hrepeats]

theorem closed_append_piece (moves : List Move) :
    (cut moves).closed.flatten ++ (cut moves).piece = rawText moves := by
  induction moves using List.reverseRecOn with
  | nil => rfl
  | append_singleton moves m ih =>
    have hclose (c : Cut) : c.close.closed.flatten ++ c.close.piece = c.closed.flatten ++ c.piece := by
      unfold Cut.close
      split <;> simp
    rw [cut_snoc, rawText_snoc, ← ih]
    cases m with
    | push delta => simp [Cut.move, rawText]
    | endBurst => exact (hclose (cut moves)).trans (List.append_nil _).symm
    | block text => exact (hclose (cut moves)).trans (List.append_nil _).symm

/-- One move keeps the invariant. -/
theorem inv_snoc (hinj : Function.Injective nextMessageId) {moves : List Move} {m : Move} (hm : m.Nonempty)
    (h : Inv nextMessageId (cut moves) moves.length (attempts nextMessageId params results moves)
      (controllerOf nextMessageId params results moves)) :
    Inv nextMessageId (cut (moves ++ [m])) (moves ++ [m]).length (attempts nextMessageId params results (moves ++ [m]))
      (controllerOf nextMessageId params results (moves ++ [m])) := by
  rw [cut_snoc, attempts_snoc, controllerOf_snoc, List.length_append, List.length_singleton]
  cases m with
  | push delta =>
    have hpush := push_eq params h hm (results moves.length)
    have hanswer : answerTo nextMessageId params results moves (.push delta) =
        (controllerOf nextMessageId params results moves).push params (results moves.length)
          (some ((cut moves).closed.flatten ++ (cut moves).piece ++ delta)) := by
      rw [closed_append_piece]
      rfl
    rw [hanswer, hpush]
    split
    · next hshown =>
      rw [Option.map_none, Option.toList_none, List.append_nil]
      exact (h.push_silent hshown).later (Nat.le_succ _)
    · next hshown => exact (h.push_shown rfl rfl hshown).later (Nat.le_succ _)
  | endBurst =>
    have hanswer : answerTo nextMessageId params results moves .endBurst =
        ((controllerOf nextMessageId params results moves).closeLiveBurst nextMessageId, none) := by
      change ((controllerOf nextMessageId params results moves).endBurst nextMessageId, none) = _
      unfold Controller.endBurst Controller.closeLiveBurst
      simp only [h.running, Bool.false_eq_true, false_or]
      split <;> rfl
    rw [hanswer, Option.map_none, Option.toList_none, List.append_nil]
    exact (h.close hinj).later (Nat.le_succ _)
  | block text =>
    have hanswer : answerTo nextMessageId params results moves (.block text) =
        (controllerOf nextMessageId params results moves).pushDurableBlock nextMessageId params
          (results moves.length) (some text) := rfl
    rw [hanswer, pushDurableBlock_eq h hm]
    split
    · rw [Option.map_none, Option.toList_none, List.append_nil]
      exact (h.close hinj).later (Nat.le_succ _)
    · exact (h.close hinj).sendBlock hinj rfl (shown_close _)

theorem inv_run (params : Params) (results : Nat → Bool) (hinj : Function.Injective nextMessageId) (moves : List Move)
    (hmoves : ∀ m ∈ moves, m.Nonempty) :
    Inv nextMessageId (cut moves) moves.length (attempts nextMessageId params results moves)
      (controllerOf nextMessageId params results moves) := by
  induction moves using List.reverseRecOn with
  | nil => exact inv_init
  | append_singleton moves m ih =>
    have hbefore := ih fun m hm => hmoves m (List.mem_append_left _ hm)
    exact inv_snoc hinj (hmoves m (List.mem_append_right _ List.mem_cons_self)) hbefore

/-- The last frame of each piece that shows something is the piece, and the other pieces have none. -/
theorem last_of_inv (h : Inv nextMessageId c count sent s) (k : Nat) :
    (framesOf (.live k) sent).getLast?.map (·.text) =
      ((c.closed ++ [c.piece])[k]?.map (displayed k)).filter (· ≠ []) := by
  rcases Nat.lt_trichotomy k c.closed.length with hlt | rfl | hgt
  · have hk : c.closed[k]? = some c.closed[k] := List.getElem?_eq_getElem hlt
    have hvisible := h.visible k _ hk
    rw [h.past k _ hk, List.getElem?_append_left hlt, hk, Option.map_some, Option.filter_some_pos]
    exact decide_eq_true hvisible
  · have hpresent := h.present
    rw [hpresent, List.getElem?_concat_length, Option.map_some, ← Cut.shown]
    split
    · next hshown => rw [hshown]; rfl
    · next hshown =>
      refine (Option.filter_some_pos ?_).symm
      exact decide_eq_true hshown
  · have hnone : framesOf (.live k) sent = [] := by
      refine framesOf_eq_nil fun x hx ho => ?_
      have hle := h.live x hx k ho
      omega
    rw [hnone, List.getElem?_eq_none (by rw [List.length_append, List.length_singleton]; omega)]
    rfl

theorem block_frames (hinj : Function.Injective nextMessageId) (moves : List Move) (hmoves : ∀ m ∈ moves, m.Nonempty)
    {i : Nat} {text : Text} (hi : moves[i]? = some (.block text)) :
    (framesOf (.block i) (attempts nextMessageId params results moves)).map (·.text) =
      if Repeats (cut (moves.take i)) (attempts nextMessageId params results (moves.take i)) text then []
      else [text] := by
  induction moves using List.reverseRecOn with
  | nil => simp at hi
  | append_singleton moves m ih =>
    have hbefore (m : Move) (hm : m ∈ moves) : m.Nonempty := hmoves m (List.mem_append_left _ hm)
    have h := inv_run params results hinj moves hbefore
    rw [attempts_snoc, framesOf_append]
    rcases Nat.lt_trichotomy i moves.length with hlt | rfl | hgt
    · rw [List.getElem?_append_left hlt] at hi
      have hother : owner moves m ≠ .block i := by
        intro heq
        cases m with
        | block text =>
          cases heq
          exact Nat.lt_irrefl _ hlt
        | push delta => cases heq
        | endBurst => cases heq
      have hnone : framesOf (.block i)
          ((answerTo nextMessageId params results moves m).2.map fun frame => (owner moves m, frame)).toList = [] := by
        cases (answerTo nextMessageId params results moves m).2 with
        | none => rfl
        | some frame => exact framesOf_other frame hother
      rw [hnone, List.append_nil, List.take_append_of_le_length (Nat.le_of_lt hlt)]
      exact ih hbefore hi
    · rw [List.getElem?_concat_length, Option.some.injEq] at hi
      rw [hi] at hmoves ⊢
      have htext : text ≠ [] := hmoves _ (List.mem_append_right _ List.mem_cons_self)
      have hnone : framesOf (.block moves.length) (attempts nextMessageId params results moves) = [] :=
        framesOf_eq_nil fun x hx ho => Nat.lt_irrefl _ (h.block x hx _ ho)
      have hanswer : answerTo nextMessageId params results moves (.block text) =
          (controllerOf nextMessageId params results moves).pushDurableBlock nextMessageId params
            (results moves.length) (some text) := rfl
      rw [hnone, List.nil_append, List.take_left, hanswer, pushDurableBlock_eq h htext]
      split
      · rfl
      · rw [Option.map_some, Option.toList_some, owner, framesOf_self]
        rfl
    · rw [List.getElem?_eq_none (by rw [List.length_append, List.length_singleton]; omega)] at hi
      cases hi

/-- A cumulative stream: frames share an id exactly when they are about the same piece or block; the
last frame of a piece is the piece; a block is one frame, unless it repeats the open burst. -/
theorem reasoning_bursts (params : Params) (results : Nat → Bool) (hinj : Function.Injective nextMessageId)
    (moves : List Move) (hmoves : ∀ m ∈ moves, m.Nonempty) :
    let sent := attempts nextMessageId params results moves
    (pieces moves).flatten = rawText moves ∧
      (∀ x ∈ sent, ∀ y ∈ sent, x.2.id = y.2.id ↔ x.1 = y.1) ∧
      (∀ k, (framesOf (.live k) sent).getLast?.map (·.text) =
        ((pieces moves)[k]?.map (displayed k)).filter (· ≠ [])) ∧
      ∀ i text, moves[i]? = some (.block text) →
        (framesOf (.block i) sent).map (·.text) =
          if Repeats (cut (moves.take i)) (attempts nextMessageId params results (moves.take i)) text then []
          else [text] := by
  have h := inv_run params results hinj moves hmoves
  refine ⟨?_, h.same, last_of_inv h, fun i text hi => block_frames hinj moves hmoves hi⟩
  rw [pieces, List.flatten_append, List.flatten_singleton, closed_append_piece]

/-- Two bursts with white space between them; the second is replayed as a block, and then once more. -/
theorem second_burst_replayed :
    let moves : List Move := [.push (js "a"), .endBurst, .push (js "\n"), .push (js "b"), .block (js "b"), .block (js "b")]
    let sent := attempts (fun n => List.replicate n 0) ⟨[], []⟩ (fun _ => true) moves
    (framesOf (.live 1) sent).getLast?.map (·.text) = some (js "b") ∧
      (framesOf (.block 4) sent).map (·.text) = [] ∧ (framesOf (.block 5) sent).map (·.text) = [js "b"] := by
  intro moves sent
  have hinj : Function.Injective fun n : Nat => (List.replicate n 0 : JsString) := by
    intro m n heq
    simpa using congrArg List.length heq
  obtain ⟨-, -, hlast, hblock⟩ := reasoning_bursts ⟨[], []⟩ (fun _ => true) hinj moves
    (by simp [moves, Move.Nonempty, js, utf16Units])
  refine ⟨(hlast 1).trans (by decide +kernel), (hblock 4 (js "b") rfl).trans (by decide +kernel),
    (hblock 5 (js "b") rfl).trans (by decide +kernel)⟩

end Webchannel.Reasoning
