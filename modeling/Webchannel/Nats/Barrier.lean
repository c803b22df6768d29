import Webchannel.Nats.Framing
import Webchannel.Lib.Runs
import Mathlib.Data.List.Range

/-!
# Flush as a barrier

A PONG does not say which PING it answers: the transport gives it to the flush that has waited
longest. The server answers in order, so that is the right one as long as the flushes that
wait are those of the oldest unanswered PINGs. A flush that gives up leaves its PING, and the
handshake has a PING of its own, so the two lists can come apart.
-/

namespace Webchannel.Nats

open Runs

/-! ### Where the PINGs are -/

/-- The places of the PINGs among the commands. -/
def pingPositions (sent : List Command) : List Nat :=
  (List.range sent.length).filter fun i => sent[i]? = some .ping

theorem pingPositions_append (sent : List Command) (c : Command) :
    pingPositions (sent ++ [c]) = pingPositions sent ++ if c = .ping then [sent.length] else [] := by
  have hold : (List.range sent.length).filter (fun i => (sent ++ [c])[i]? = some .ping) =
      pingPositions sent := by
    apply List.filter_congr
    intro i hi
    rw [List.getElem?_append_left (List.mem_range.mp hi)]
  rw [pingPositions, List.length_append, List.length_singleton, List.range_succ,
    List.filter_append, hold]
  by_cases hc : c = .ping
  · simp [hc]
  · simp [hc]

theorem length_pingPositions (sent : List Command) :
    (pingPositions sent).length = sent.count .ping := by
  induction sent using List.reverseRecOn with
  | nil => rfl
  | append_singleton sent c ih =>
    rw [pingPositions_append, List.length_append, ih, List.count_append]
    by_cases hc : c = .ping
    · simp [hc]
    · simp [hc]

theorem pingPositions_begins (sent more : List Command) :
    pingPositions sent <+: pingPositions (sent ++ more) := by
  induction more using List.reverseRecOn with
  | nil => simp
  | append_singleton more c ih =>
    rw [← List.append_assoc, pingPositions_append]
    exact ih.trans (List.prefix_append _ _)

/-- If the server has come past more PINGs than were answered, it has come past the first one
that was not. -/
theorem head_unanswered_lt {sent : List Command} {answered processed p : Nat} {ps : List Nat}
    (hserved : answered < (sent.take processed).count .ping)
    (hhead : (pingPositions sent).drop answered = p :: ps) : p < processed := by
  obtain ⟨later, hlater⟩ : pingPositions (sent.take processed) <+: pingPositions sent := by
    have := pingPositions_begins (sent.take processed) (sent.drop processed)
    rwa [List.take_append_drop] at this
  have hlt : answered < (pingPositions (sent.take processed)).length := by
    rwa [length_pingPositions]
  rw [← hlater, List.drop_append_of_le_length (Nat.le_of_lt hlt), List.drop_eq_getElem_cons hlt,
    List.cons_append] at hhead
  have hmem : p ∈ pingPositions (sent.take processed) :=
    (List.cons.inj hhead).1 ▸ List.getElem_mem hlt
  have hrange := (List.mem_filter.mp hmem).1
  rw [List.mem_range, List.length_take] at hrange
  omega

/-! ### Who waits -/

/-- How many commands had been written before a flush. -/
def Transport.mark (t : Transport) (id : Nat) : Nat := t.flushMarks.getD id 0

/-- The flushes that wait are those of the oldest unanswered PINGs, in order, and those that
were resolved were resolved in time. -/
structure Waiting (answered processed : Nat) (t : Transport) : Prop where
  fewer : answered ≤ t.sent.count .ping
  marks : t.flushWaiters.map t.mark =
    ((pingPositions t.sent).drop answered).take t.flushWaiters.length
  bound : ∀ id ∈ t.flushWaiters, id < t.flushMarks.length
  nodup : t.flushWaiters.Nodup
  gone : t.current = false → t.flushWaiters = []
  resolved : ∀ id, (id, none) ∈ t.settled → id < t.flushMarks.length ∧ t.mark id ≤ processed

variable {answered processed : Nat} {t t' : Transport}

/-- Nothing that the flushes are about has changed. -/
structure SameFlushes (t t' : Transport) : Prop where
  pings : pingPositions t'.sent = pingPositions t.sent
  flushMarks : t'.flushMarks = t.flushMarks
  flushWaiters : t'.flushWaiters = t.flushWaiters
  settled : t'.settled = t.settled
  current : t'.current = t.current

theorem SameFlushes.mark (h : SameFlushes t t') : t'.mark = t.mark := by
  funext id
  rw [Transport.mark, h.flushMarks, Transport.mark]

theorem Waiting.same (h : Waiting answered processed t) (hs : SameFlushes t t') :
    Waiting answered processed t' where
  fewer := by
    rw [← length_pingPositions, hs.pings, length_pingPositions]
    exact h.fewer
  marks := by rw [hs.flushWaiters, hs.mark, hs.pings, h.marks]
  bound := by
    rw [hs.flushWaiters, hs.flushMarks]
    exact h.bound
  nodup := hs.flushWaiters ▸ h.nodup
  gone := by
    rw [hs.current, hs.flushWaiters]
    exact h.gone
  resolved := by
    rw [hs.settled, hs.flushMarks, hs.mark]
    exact h.resolved

theorem sameFlushes_send (t : Transport) {c : Command} (hc : c ≠ .ping) :
    SameFlushes t (t.send c) :=
  ⟨by simp [Transport.send, pingPositions_append, hc], rfl, rfl, rfl, rfl⟩

/-- A flush that gives up while no later one waits. -/
theorem Waiting.settleFlush (h : Waiting answered processed t) {id : Nat} {e : TransportError}
    (hlast : id ∈ t.flushWaiters → t.flushWaiters.getLast? = some id) :
    Waiting answered processed (t.settleFlush id (some e)) := by
  unfold Transport.settleFlush
  split
  next hmem =>
    obtain ⟨ws, hws⟩ := List.getLast?_eq_some_iff.mp (hlast hmem)
    have hnodup : (ws ++ [id]).Nodup := hws ▸ h.nodup
    have hnot : id ∉ ws := fun hid => by
      simpa using (List.nodup_append.mp hnodup).2.2 id hid id
    have herase : t.flushWaiters.erase id = ws := by
      rw [hws, List.erase_append_right _ hnot]
      simp
    have hmarks := h.marks
    rw [hws, List.map_append, List.length_append] at hmarks
    refine ⟨h.fewer, ?_, ?_, ?_, ?_, ?_⟩
    · have htake := congrArg (List.take ws.length) hmarks
      rw [List.take_append_of_le_length (by simp), List.take_take] at htake
      change (t.flushWaiters.erase id).map t.mark =
        ((pingPositions t.sent).drop answered).take (t.flushWaiters.erase id).length
      simpa [herase, List.take_of_length_le] using htake
    · intro id' hid'
      exact h.bound id' (List.mem_of_mem_erase hid')
    · exact h.nodup.erase id
    · intro hgone
      simp [h.gone hgone]
    · intro id' hid'
      rcases List.mem_append.mp hid' with hold | hnew
      · exact h.resolved id' hold
      · simp at hnew
  next => exact h

/-- When all waiting flushes are rejected, none waits. -/
theorem rejectFlushes_eq (t : Transport) (e : TransportError) :
    t.rejectFlushes e =
      { t with
        flushWaiters := []
        settled := t.settled ++ t.flushWaiters.map fun id => (id, some e) } := by
  unfold Transport.rejectFlushes
  generalize hids : t.flushWaiters = ids
  induction ids generalizing t with
  | nil =>
    cases t
    simp_all
  | cons id ids ih =>
    have hstep : t.settleFlush id (some e) =
        { t with flushWaiters := ids, settled := t.settled ++ [(id, some e)] } := by
      simp [Transport.settleFlush, hids]
    rw [List.foldl_cons, hstep, ih _ rfl]
    simp

theorem Waiting.rejectFlushes (h : Waiting answered processed t) (e : TransportError) :
    Waiting answered processed (t.rejectFlushes e) := by
  rw [rejectFlushes_eq]
  refine ⟨h.fewer, rfl, by simp, .nil, fun _ => rfl, ?_⟩
  intro id hid
  rcases List.mem_append.mp hid with hold | hnew
  · exact h.resolved id hold
  · simp at hnew

/-- The flush that has waited longest is resolved by the answer to the oldest unanswered PING,
which the server has come past. -/
theorem Waiting.resolveNextFlush (h : Waiting answered processed t)
    (hserved : answered < (t.sent.take processed).count .ping) :
    Waiting (answered + 1) processed t.resolveNextFlush := by
  have hfewer : answered + 1 ≤ t.sent.count .ping :=
    Nat.lt_of_lt_of_le hserved (List.Sublist.count_le _ (List.take_sublist _ _))
  unfold Transport.resolveNextFlush
  split
  next hnone => exact ⟨hfewer, by simp [hnone], by simp [hnone], by simp [hnone],
      fun _ => hnone, h.resolved⟩
  next id ids hids =>
    have hstep : t.settleFlush id none =
        { t with flushWaiters := ids, settled := t.settled ++ [(id, none)] } := by
      simp [Transport.settleFlush, hids]
    have hmarks := h.marks
    rw [hids, List.map_cons, List.length_cons] at hmarks
    cases hrest : (pingPositions t.sent).drop answered with
    | nil => simp [hrest] at hmarks
    | cons p ps =>
      rw [hrest, List.take_succ_cons, List.cons.injEq] at hmarks
      have hps : (pingPositions t.sent).drop (answered + 1) = ps := by
        rw [← List.tail_drop, hrest, List.tail_cons]
      rw [hstep]
      refine ⟨hfewer, ?_, ?_, ?_, ?_, ?_⟩
      · change ids.map t.mark = _
        rw [hps, hmarks.2]
      · intro id' hid'
        exact h.bound id' (by simp [hids, show id' ∈ ids from hid'])
      · have := h.nodup
        rw [hids] at this
        exact this.of_cons
      · intro hgone
        have := h.gone hgone
        simp [hids] at this
      · intro id' hid'
        rcases List.mem_append.mp hid' with hold | hnew
        · exact h.resolved id' hold
        · obtain rfl : id' = id := by simpa using hnew
          refine ⟨h.bound id' (by simp [hids]), ?_⟩
          change t.mark id' ≤ processed
          rw [hmarks.1]
          exact Nat.le_of_lt (head_unanswered_lt hserved hrest)

/-- Every unanswered PING belongs to a flush that still waits. -/
def Orderly (answered : Nat) (t : Transport) : Prop :=
  t.sent.count .ping ≤ answered + t.flushWaiters.length

/-- A flush is called only when every unanswered PING belongs to a flush that still waits. -/
def CallOk (answered : Nat) (t : Transport) : Call → Prop
  | .flush _ _ => Orderly answered t
  | _ => True

def CallsOk (answered : Nat) : Transport → List Call → Prop
  | _, [] => True
  | t, c :: cs => CallOk answered t c ∧ CallsOk answered (t.call c) cs

instance (answered : Nat) (t : Transport) : (c : Call) → Decidable (CallOk answered t c)
  | .flush _ _ => inferInstanceAs (Decidable (_ ≤ _))
  | .subscribe _ => isTrue trivial
  | .unsubscribe _ => isTrue trivial
  | .publish _ _ _ => isTrue trivial
  | .disconnect => isTrue trivial

instance decidableCallsOk (answered : Nat) :
    (t : Transport) → (cs : List Call) → Decidable (CallsOk answered t cs)
  | _, [] => isTrue trivial
  | t, c :: cs =>
    have := decidableCallsOk answered (t.call c) cs
    inferInstanceAs (Decidable (_ ∧ _))

theorem mark_append {marks : List Nat} {id m : Nat} (h : id < marks.length) :
    (marks ++ [m]).getD id 0 = marks.getD id 0 := by
  simp [List.getD, List.getElem?_append_left h]

/-- A flush begun while everything is in order waits for its own PING. -/
theorem Waiting.begin (h : Waiting answered processed t) (hopen : t.assertOpen)
    (horderly : Orderly answered t) :
    Waiting answered processed
      { t with
        flushMarks := t.flushMarks ++ [t.sent.length]
        flushWaiters := t.flushWaiters ++ [t.flushMarks.length]
        sent := t.sent ++ [.ping] } := by
  have hcurrent : t.current = true := by
    simp only [Transport.assertOpen, Bool.and_eq_true] at hopen
    exact hopen.1
  have hlen := length_pingPositions t.sent
  have hall : ((pingPositions t.sent).drop answered).length = t.flushWaiters.length := by
    have hle := congrArg List.length h.marks
    simp only [List.length_map, List.length_take, List.length_drop] at hle
    have := h.fewer
    unfold Orderly at horderly
    rw [List.length_drop]
    omega
  have hmarks : t.flushWaiters.map t.mark = (pingPositions t.sent).drop answered := by
    rw [h.marks, ← hall, List.take_length]
  refine ⟨?_, ?_, ?_, ?_, ?_, ?_⟩
  · have := h.fewer
    simp only [List.count_append]
    omega
  · have hold : t.flushWaiters.map (fun id => (t.flushMarks ++ [t.sent.length]).getD id 0) =
        t.flushWaiters.map t.mark :=
      List.map_congr_left fun id hid => mark_append (h.bound id hid)
    have hnew : (t.flushMarks ++ [t.sent.length]).getD t.flushMarks.length 0 = t.sent.length := by
      simp [List.getD]
    have hdrop : (pingPositions (t.sent ++ [.ping])).drop answered =
        (pingPositions t.sent).drop answered ++ [t.sent.length] := by
      rw [pingPositions_append, if_pos rfl, List.drop_append_of_le_length]
      rw [hlen]
      exact h.fewer
    change (t.flushWaiters ++ [t.flushMarks.length]).map
      (fun id => (t.flushMarks ++ [t.sent.length]).getD id 0) = _
    rw [List.map_append, List.map_singleton, hold, hnew, hmarks, hdrop]
    symm
    apply List.take_of_length_le
    simp [hall]
  · intro id hid
    rw [List.length_append, List.length_singleton]
    rcases List.mem_append.mp hid with hold | hnew
    · have := h.bound id hold
      omega
    · obtain rfl : id = t.flushMarks.length := by simpa using hnew
      omega
  · refine List.nodup_append.mpr ⟨h.nodup, by simp, ?_⟩
    intro id hid id' hid' heq
    obtain rfl : id' = t.flushMarks.length := by simpa using hid'
    exact absurd (heq ▸ h.bound id hid) (Nat.lt_irrefl _)
  · intro hgone
    simp [show t.current = false from hgone] at hcurrent
  · intro id hid
    obtain ⟨hbound, hmark⟩ := h.resolved id hid
    refine ⟨?_, ?_⟩
    · rw [List.length_append]
      omega
    · change (t.flushMarks ++ [t.sent.length]).getD id 0 ≤ processed
      rw [mark_append hbound]
      exact hmark

/-- A flush whose PING could not be written is over at once. -/
theorem Waiting.begin_failed (h : Waiting answered processed t) :
    Waiting answered processed
      (Transport.settleFlush { t with
        flushMarks := t.flushMarks ++ [t.sent.length]
        flushWaiters := t.flushWaiters ++ [t.flushMarks.length] }
        t.flushMarks.length (some .sendFailed)) := by
  have hnot : t.flushMarks.length ∉ t.flushWaiters :=
    fun hid => absurd (h.bound _ hid) (Nat.lt_irrefl _)
  have hsettled : Transport.settleFlush { t with
        flushMarks := t.flushMarks ++ [t.sent.length]
        flushWaiters := t.flushWaiters ++ [t.flushMarks.length] }
        t.flushMarks.length (some .sendFailed) =
      { t with
        flushMarks := t.flushMarks ++ [t.sent.length]
        settled := t.settled ++ [(t.flushMarks.length, some .sendFailed)] } := by
    simp [Transport.settleFlush, List.erase_append_right _ hnot]
  rw [hsettled]
  refine ⟨h.fewer, ?_, ?_, h.nodup, h.gone, ?_⟩
  · rw [← h.marks]
    exact List.map_congr_left fun id hid => mark_append (h.bound id hid)
  · intro id hid
    rw [List.length_append]
    exact Nat.lt_of_lt_of_le (h.bound id hid) (Nat.le_add_right _ _)
  · intro id hid
    have hold : (id, none) ∈ t.settled := by simpa using hid
    obtain ⟨hbound, hmark⟩ := h.resolved id hold
    refine ⟨?_, ?_⟩
    · rw [List.length_append]
      omega
    · change (t.flushMarks ++ [t.sent.length]).getD id 0 ≤ processed
      rw [mark_append hbound]
      exact hmark

theorem Waiting.call (h : Waiting answered processed t) {c : Call} (hc : CallOk answered t c) :
    Waiting answered processed (t.call c) := by
  cases c with
  | subscribe subject =>
    change Waiting answered processed (t.subscribe subject)
    unfold Transport.subscribe
    split
    · exact h.same ⟨by simp [pingPositions_append], rfl, rfl, rfl, rfl⟩
    · exact h
  | unsubscribe sid =>
    change Waiting answered processed (t.unsubscribe sid)
    unfold Transport.unsubscribe
    dsimp only
    split
    · exact h.same ⟨by simp [Transport.send, pingPositions_append], rfl, rfl, rfl, rfl⟩
    · exact h.same ⟨rfl, rfl, rfl, rfl, rfl⟩
  | publish subject replyTo payload =>
    change Waiting answered processed (t.publish subject replyTo payload)
    unfold Transport.publish
    split
    · exact h.same (sameFlushes_send t (by simp))
    · exact h
  | flush aborted sendThrows =>
    change Waiting answered processed (t.flush aborted sendThrows)
    unfold Transport.flush
    split
    next => exact h
    next hopen =>
      split
      next => exact h
      next =>
        dsimp only
        split
        next => exact h.begin_failed
        next => exact h.begin (by simpa using hopen) hc
  | disconnect =>
    have hleft : Waiting answered processed { t with connected := false, subs := [] } :=
      h.same ⟨rfl, rfl, rfl, rfl, rfl⟩
    have hquit := hleft.rejectFlushes .closed
    have hnone : (({ t with connected := false, subs := [] } : Transport).rejectFlushes
        .closed).flushWaiters = [] := by
      rw [rejectFlushes_eq]
    exact ⟨hquit.fewer, hquit.marks, hquit.bound, hquit.nodup, fun _ => hnone, hquit.resolved⟩

theorem Waiting.calls (h : Waiting answered processed t) {cs : List Call}
    (hcs : CallsOk answered t cs) : Waiting answered processed (t.calls cs) := by
  unfold Transport.calls
  induction cs generalizing t with
  | nil => exact h
  | cons c cs ih => exact ih (h.call hcs.1) hcs.2

/-! ### Commands are only added -/

structure Extends (t t' : Transport) : Prop where
  sent : t.sent <+: t'.sent
  connectOnWire : t'.connectOnWire = t.connectOnWire

theorem Extends.refl (t : Transport) : Extends t t := ⟨List.prefix_rfl, rfl⟩

theorem Extends.trans {t'' : Transport} (h : Extends t t') (h' : Extends t' t'') :
    Extends t t'' :=
  ⟨h.sent.trans h'.sent, h'.connectOnWire.trans h.connectOnWire⟩

theorem extends_send (t : Transport) (c : Command) : Extends t (t.send c) :=
  ⟨List.prefix_append _ _, rfl⟩

theorem extends_settleFlush (t : Transport) (id : Nat) (e : Option TransportError) :
    Extends t (t.settleFlush id e) := by
  unfold Transport.settleFlush
  split
  · exact ⟨List.prefix_rfl, rfl⟩
  · exact .refl t

theorem extends_rejectFlushes (t : Transport) (e : TransportError) :
    Extends t (t.rejectFlushes e) := by
  rw [rejectFlushes_eq]
  exact ⟨List.prefix_rfl, rfl⟩

theorem extends_call (t : Transport) (c : Call) : Extends t (t.call c) := by
  cases c with
  | subscribe subject =>
    change Extends t (t.subscribe subject)
    unfold Transport.subscribe
    split
    · exact ⟨List.prefix_append _ _, rfl⟩
    · exact .refl t
  | unsubscribe sid =>
    change Extends t (t.unsubscribe sid)
    unfold Transport.unsubscribe
    dsimp only
    split
    · exact ⟨List.prefix_append _ _, rfl⟩
    · exact ⟨List.prefix_rfl, rfl⟩
  | publish subject replyTo payload =>
    change Extends t (t.publish subject replyTo payload)
    unfold Transport.publish
    split
    · exact extends_send t _
    · exact .refl t
  | flush aborted sendThrows =>
    have hbegun : Extends t { t with
        flushMarks := t.flushMarks ++ [t.sent.length]
        flushWaiters := t.flushWaiters ++ [t.flushMarks.length] } := ⟨List.prefix_rfl, rfl⟩
    change Extends t (t.flush aborted sendThrows)
    unfold Transport.flush
    split
    · exact .refl t
    split
    · exact .refl t
    dsimp only
    split
    · exact hbegun.trans (extends_settleFlush _ _ _)
    · exact hbegun.trans (extends_send _ _)
  | disconnect =>
    have hleft : Extends t { t with connected := false, subs := [] } := ⟨List.prefix_rfl, rfl⟩
    have hquit := hleft.trans (extends_rejectFlushes _ .closed)
    exact ⟨hquit.sent, hquit.connectOnWire⟩

theorem extends_calls (t : Transport) (cs : List Call) : Extends t (t.calls cs) := by
  unfold Transport.calls
  induction cs generalizing t with
  | nil => exact .refl t
  | cons c cs ih => exact (extends_call t c).trans (ih _)

theorem extends_emit (listeners : Listeners) (t : Transport) (e : Event) :
    Extends t (t.emit listeners e) := by
  have hnote : Extends t (t.note e) := ⟨List.prefix_rfl, rfl⟩
  exact hnote.trans (extends_calls (t.note e) _)

theorem extends_onFirstPong (listeners : Listeners) (t : Transport) :
    Extends t (t.onFirstPong listeners) := by
  unfold Transport.onFirstPong
  split
  · have hmade : Extends t { t with established := true, connected := true } :=
      ⟨List.prefix_rfl, rfl⟩
    dsimp only
    split
    · exact hmade.trans (extends_emit listeners _ _)
    · exact ⟨List.prefix_rfl, rfl⟩
  split
  · exact extends_emit listeners t _
  · exact .refl t

theorem extends_resolveNextFlush (t : Transport) : Extends t t.resolveNextFlush := by
  unfold Transport.resolveNextFlush
  split
  · exact .refl t
  · exact extends_settleFlush t _ _

theorem extends_onServerError (listeners : Listeners) (t : Transport) (line : Text) :
    Extends t (t.onServerError listeners line) := by
  unfold Transport.onServerError
  split
  · exact ⟨List.prefix_rfl, rfl⟩
  · exact (extends_rejectFlushes t _).trans (extends_emit listeners _ _)

theorem extends_onInfo (infoMaxPayload : Text → Option Nat) (t : Transport) (line : Text) :
    Extends t (t.onInfo infoMaxPayload line) := by
  unfold Transport.onInfo
  cases infoMaxPayload (line.drop 5) with
  | none =>
    dsimp only
    split <;> exact ⟨List.prefix_rfl, rfl⟩
  | some n =>
    dsimp only
    split <;> exact ⟨List.prefix_rfl, rfl⟩

theorem extends_handle (infoMaxPayload : Text → Option Nat) (listeners : Listeners)
    (t : Transport) (f : Frame) : Extends t (t.handle infoMaxPayload listeners f).1 := by
  have htook : Extends t t.took := ⟨List.prefix_rfl, rfl⟩
  cases f with
  | msg m => exact htook.trans (extends_emit listeners _ _)
  | line text =>
    unfold Transport.handle
    dsimp only
    split
    · exact htook
    split
    · exact htook.trans (extends_onInfo infoMaxPayload _ _)
    split
    · have hpong := htook.trans (extends_onFirstPong listeners _)
      split
      · exact htook
      split
      · exact hpong
      · exact hpong.trans (extends_resolveNextFlush _)
    split
    · exact htook.trans (extends_send _ _)
    split
    · exact htook.trans (extends_onServerError listeners _ _)
    · exact htook

theorem take_begins {α : Type} {xs ys : List α} {n : Nat} (h : xs <+: ys)
    (hn : n ≤ xs.length) : ys.take n = xs.take n := by
  obtain ⟨zs, rfl⟩ := h
  exact List.take_append_of_le_length hn

/-! ### One frame -/

/-- The state in which the listeners of a frame's event are called. -/
def Transport.beforeListeners (t : Transport) : Frame → Transport
  | .msg m => t.took.note (.message m)
  | .line text =>
    if text = pongLine then
      if t.established then t.took.note .pong
      else Transport.note { t.took with established := true, connected := true } .connect
    else (t.took.rejectFlushes (.server text)).note (.error (.server text))

section Frames
variable (infoMaxPayload : Text → Option Nat) {calls : List Call}

/-- A frame other than a PONG, with what its listeners call. -/
theorem Waiting.handle (h : Waiting answered processed t) {f : Frame} (hf : f ≠ .line pongLine)
    (hcalls : CallsOk answered (t.beforeListeners f) calls) :
    Waiting answered processed (t.handle infoMaxPayload (fun _ _ => calls) f).1 := by
  have htook : Waiting answered processed t.took := h.same ⟨rfl, rfl, rfl, rfl, rfl⟩
  cases f with
  | msg m =>
    have hnote : Waiting answered processed (t.took.note (.message m)) :=
      h.same ⟨rfl, rfl, rfl, rfl, rfl⟩
    exact hnote.calls hcalls
  | line text =>
    have hpong : text ≠ pongLine := fun heq => hf (by rw [heq])
    unfold Transport.handle
    dsimp only
    split
    · exact htook
    split
    · refine htook.same ?_
      unfold Transport.onInfo
      cases infoMaxPayload (text.drop 5) with
      | none =>
        dsimp only
        split <;> exact ⟨rfl, rfl, rfl, rfl, rfl⟩
      | some n =>
        dsimp only
        split <;> exact ⟨rfl, rfl, rfl, rfl, rfl⟩
    split
    · exact htook.same (sameFlushes_send _ (by decide))
    split
    · unfold Transport.onServerError
      split
      · exact htook.same ⟨rfl, rfl, rfl, rfl, rfl⟩
      · rw [Transport.beforeListeners, if_neg hpong] at hcalls
        have hrejected : Waiting answered processed
            ((t.took.rejectFlushes (.server text)).note (.error (.server text))) :=
          (htook.rejectFlushes _).same ⟨rfl, rfl, rfl, rfl, rfl⟩
        exact hrejected.calls hcalls
    · exact htook

theorem Waiting.answer_gone (h : Waiting answered processed t) (hgone : t.current = false)
    (hserved : answered < (t.sent.take processed).count .ping) :
    Waiting (answered + 1) processed t :=
  have hnone := h.gone hgone
  ⟨Nat.lt_of_lt_of_le hserved (List.Sublist.count_le _ (List.take_sublist _ _)),
    by simp [hnone], by simp [hnone], by simp [hnone], h.gone, h.resolved⟩

/-- A PONG, which the server has sent after it came past the oldest unanswered PING. -/
theorem Waiting.handle_pong (h : Waiting answered processed t) (hcurrent : t.current)
    (hwire : t.connectOnWire) (hprocessed : processed ≤ t.sent.length)
    (hserved : answered < (t.sent.take processed).count .ping)
    (hcalls : CallsOk answered (t.beforeListeners (.line pongLine)) calls) :
    Waiting (answered + 1) processed
      (t.handle infoMaxPayload (fun _ _ => calls) (.line pongLine)).1 := by
  have hfirst : t.took.onFirstPong (fun _ _ => calls) =
      (t.beforeListeners (.line pongLine)).calls calls := by
    have htook : t.took.current = true := hcurrent
    have hest : t.took.established = t.established := rfl
    unfold Transport.onFirstPong
    cases he : t.established with
    | false => simp [Transport.beforeListeners, hest, he, htook, Transport.emit]
    | true => simp [Transport.beforeListeners, hest, he, htook, Transport.emit]
  have hbefore : Waiting answered processed (t.beforeListeners (.line pongLine)) ∧
      (t.beforeListeners (.line pongLine)).sent = t.sent := by
    unfold Transport.beforeListeners
    simp only [if_true]
    split
    · exact ⟨h.same ⟨rfl, rfl, rfl, rfl, rfl⟩, rfl⟩
    · exact ⟨h.same ⟨rfl, rfl, rfl, rfl, rfl⟩, rfl⟩
  have hafter := hbefore.1.calls hcalls
  have hsent : (((t.beforeListeners (.line pongLine)).calls calls).sent.take processed) =
      t.sent.take processed := by
    have hpre := (extends_calls (t.beforeListeners (.line pongLine)) calls).sent
    rw [hbefore.2] at hpre
    exact take_begins hpre hprocessed
  have hhandle : (t.handle infoMaxPayload (fun _ _ => calls) (.line pongLine)).1 =
      if !((t.beforeListeners (.line pongLine)).calls calls).current
      then (t.beforeListeners (.line pongLine)).calls calls
      else ((t.beforeListeners (.line pongLine)).calls calls).resolveNextFlush := by
    have hstep : t.handle infoMaxPayload (fun _ _ => calls) (.line pongLine) =
        if !(t.took.onFirstPong fun _ _ => calls).current
        then (t.took.onFirstPong fun _ _ => calls, false)
        else ((t.took.onFirstPong fun _ _ => calls).resolveNextFlush, true) := by
      simp [Transport.handle, infoTag, pongLine, hwire]
    rw [hstep, hfirst]
    split <;> rfl
  rw [hhandle]
  rw [← hsent] at hserved
  split
  next hgone => exact hafter.answer_gone (by simpa using hgone) hserved
  next => exact hafter.resolveNextFlush hserved

end Frames

/-! ### The socket and the server -/

/-- A transport, the server at the other end of its socket and the lines under way from the
server. `answered` counts the PONGs that the transport is done with. -/
structure Link where
  transport : Transport
  processed : Nat
  wire : List Frame
  answered : Nat
  deriving Repr, DecidableEq

inductive Action where
  | call (c : Call)
  /-- The timer of a flush fires. -/
  | timeout (id : Nat)
  /-- The signal of a flush is aborted. -/
  | abort (id : Nat)
  /-- The server takes the next command, and answers it if it is a PING. -/
  | serve
  /-- The server sends a line or a message of its own, such as an error. -/
  | say (f : Frame)
  /-- The next line arrives; the listeners of its event make the given calls. -/
  | deliver (calls : List Call)
  deriving Repr, DecidableEq

section System
variable (infoMaxPayload : Text → Option Nat)

def Link.step (l : Link) : Action → Option Link
  | .call c => some { l with transport := l.transport.call c }
  | .timeout id =>
    some { l with transport := l.transport.settleFlush id (some .handshakeTimeout) }
  | .abort id => some { l with transport := l.transport.settleFlush id (some .lifecycleAbort) }
  | .serve =>
    match l.transport.sent[l.processed]? with
    | none => none
    | some c =>
      some { l with
        processed := l.processed + 1
        wire := if c = .ping then l.wire ++ [.line pongLine] else l.wire }
  | .say f => if f = .line pongLine then none else some { l with wire := l.wire ++ [f] }
  | .deliver calls =>
    match l.wire with
    | [] => none
    | f :: wire =>
      some { l with
        wire := wire
        transport := if l.transport.current
          then (l.transport.handle infoMaxPayload (fun _ _ => calls) f).1 else l.transport
        answered := if f = .line pongLine then l.answered + 1 else l.answered }

/-- CONNECT and the PING of the handshake are written, and nothing has come back. -/
def dialled : Transport where
  current := true
  isOpen := true
  buffer := []
  signing := false
  connectSent := false
  connectOnWire := true
  established := false
  connected := false
  serverMaxPayload := maxPayload
  sidCounter := 0
  subs := []
  sent := [.connect, .ping]
  flushMarks := []
  flushWaiters := []
  settled := []
  events := []
  taken := 0

def Link.start : Link := ⟨dialled, 0, [], 0⟩

/-- The condition on a step: a flush is called, by a listener or otherwise, only when every
unanswered PING belongs to a flush that still waits, and a flush gives up only when no later
one waits. -/
def InOrder (l : Link) : Action → Prop
  | .call c => CallOk l.answered l.transport c
  | .timeout id => id ∈ l.transport.flushWaiters → l.transport.flushWaiters.getLast? = some id
  | .abort id => id ∈ l.transport.flushWaiters → l.transport.flushWaiters.getLast? = some id
  | .serve => True
  | .say _ => True
  | .deliver calls =>
    ∀ f ∈ l.wire.head?, CallsOk l.answered (l.transport.beforeListeners f) calls

instance (l : Link) : (a : Action) → Decidable (InOrder l a)
  | .call c => inferInstanceAs (Decidable (CallOk _ _ c))
  | .timeout _ => inferInstanceAs (Decidable (_ → _))
  | .abort _ => inferInstanceAs (Decidable (_ → _))
  | .serve => isTrue trivial
  | .say _ => isTrue trivial
  | .deliver calls =>
    match h : l.wire.head? with
    | none => isTrue (by simp [InOrder, h])
    | some f =>
      if hf : CallsOk l.answered (l.transport.beforeListeners f) calls
      then isTrue (by simpa [InOrder, h] using hf)
      else isFalse (by simpa [InOrder, h] using hf)

/-- Every flush that was resolved, was resolved after the server had processed all commands
written before it. -/
def Barrier (l : Link) : Prop :=
  ∀ id, (id, none) ∈ l.transport.settled → l.transport.mark id ≤ l.processed

structure Link.Inv (l : Link) : Prop where
  waiting : Waiting l.answered l.processed l.transport
  processed : l.processed ≤ l.transport.sent.length
  connectOnWire : l.transport.connectOnWire
  pongs : l.wire.count (.line pongLine) + l.answered =
    (l.transport.sent.take l.processed).count .ping

theorem Waiting.mono (h : Waiting answered processed t) {processed' : Nat}
    (hle : processed ≤ processed') : Waiting answered processed' t :=
  { h with resolved := fun id hid => ⟨(h.resolved id hid).1, (h.resolved id hid).2.trans hle⟩ }

variable {infoMaxPayload}

/-- A step of the transport that adds commands and leaves the server alone. -/
theorem Link.Inv.transport {l : Link} (h : l.Inv) {t : Transport} {wire : List Frame}
    {answered : Nat} (hwaiting : Waiting answered l.processed t)
    (hsent : l.transport.sent <+: t.sent) (hwire : t.connectOnWire = l.transport.connectOnWire)
    (hpongs : wire.count (.line pongLine) + answered =
      l.wire.count (.line pongLine) + l.answered) :
    Link.Inv ⟨t, l.processed, wire, answered⟩ where
  waiting := hwaiting
  processed := h.processed.trans hsent.length_le
  connectOnWire := hwire.trans h.connectOnWire
  pongs := by
    rw [hpongs, h.pongs]
    exact congrArg _ (take_begins hsent h.processed).symm

theorem Link.inv_start : Link.start.Inv where
  waiting := ⟨by decide, rfl, by simp [Link.start, dialled], .nil, by decide,
    by simp [Link.start, dialled]⟩
  processed := by decide
  connectOnWire := rfl
  pongs := rfl

/-- What one step in order preserves. -/
theorem Link.Inv.step {l l' : Link} {a : Action} (h : l.Inv) (hok : InOrder l a)
    (hstep : l.step infoMaxPayload a = some l') : l'.Inv := by
  cases a with
  | call c =>
    obtain rfl : _ = l' := by simpa [Link.step] using hstep
    have hext := extends_call l.transport c
    exact h.transport (h.waiting.call hok) hext.sent hext.connectOnWire rfl
  | timeout id =>
    obtain rfl : _ = l' := by simpa [Link.step] using hstep
    have hext := extends_settleFlush l.transport id (some .handshakeTimeout)
    exact h.transport (h.waiting.settleFlush hok) hext.sent hext.connectOnWire rfl
  | abort id =>
    obtain rfl : _ = l' := by simpa [Link.step] using hstep
    have hext := extends_settleFlush l.transport id (some .lifecycleAbort)
    exact h.transport (h.waiting.settleFlush hok) hext.sent hext.connectOnWire rfl
  | serve =>
    rw [Link.step] at hstep
    split at hstep
    next => cases hstep
    next c hc =>
      obtain rfl : _ = l' := by simpa using hstep
      have hlt : l.processed < l.transport.sent.length := (List.getElem?_eq_some_iff.mp hc).1
      refine ⟨h.waiting.mono (Nat.le_succ _), hlt, h.connectOnWire, ?_⟩
      have htake : l.transport.sent.take (l.processed + 1) =
          l.transport.sent.take l.processed ++ [c] := by
        rw [List.take_add_one, hc, Option.toList_some]
      have hpongs := h.pongs
      simp only [htake, List.count_append]
      by_cases hping : c = .ping
      · subst hping
        simp only [if_true, List.count_append, List.count_singleton_self]
        omega
      · simp only [if_neg hping]
        simp [hpongs, hping]
  | say f =>
    rw [Link.step] at hstep
    split at hstep
    next => cases hstep
    next hf =>
      obtain rfl : _ = l' := by simpa using hstep
      refine h.transport h.waiting List.prefix_rfl rfl ?_
      simp [List.count_append, hf]
  | deliver calls =>
    rw [Link.step] at hstep
    split at hstep
    next => cases hstep
    next f wire hwire =>
      obtain rfl : _ = l' := by simpa using hstep
      have hcalls : CallsOk l.answered (l.transport.beforeListeners f) calls :=
        hok f (by simp [hwire])
      have hext : Extends l.transport (if l.transport.current
          then (l.transport.handle infoMaxPayload (fun _ _ => calls) f).1 else l.transport) := by
        split
        · exact extends_handle infoMaxPayload _ _ f
        · exact .refl _
      by_cases hf : f = .line pongLine
      · subst hf
        have hserved : l.answered < (l.transport.sent.take l.processed).count .ping := by
          rw [← h.pongs, hwire, List.count_cons_self]
          omega
        refine h.transport ?_ hext.sent hext.connectOnWire ?_
        · simp only [if_true]
          split
          next hcurrent =>
            exact h.waiting.handle_pong infoMaxPayload hcurrent h.connectOnWire h.processed
              hserved hcalls
          next hgone => exact h.waiting.answer_gone (by simpa using hgone) hserved
        · simp only [hwire, if_true, List.count_cons_self]
          omega
      · refine h.transport ?_ hext.sent hext.connectOnWire ?_
        · simp only [if_neg hf]
          split
          · exact h.waiting.handle infoMaxPayload hf hcalls
          · exact h.waiting
        · simp [hwire, hf]

/-- **Flush is a barrier while the waiting flushes keep up with the PINGs.** In every run
whose steps are in order, a flush is resolved only after the server has processed every
command that was written before it. -/
theorem flush_barrier {l : Link}
    (h : ReachedBy (Link.step infoMaxPayload) InOrder Link.start l) : Barrier l := by
  have hinv : l.Inv := h.invariant Link.inv_start fun _ _ _ hI hok hs => hI.step hok hs
  intro id hid
  exact (hinv.waiting.resolved id hid).2

/-- The handshake, a subscription and a flush, each answered before the next. -/
theorem flush_barrier_subscribe :
    ∃ l, ((0, none) ∈ l.transport.settled ∧ l.transport.mark 0 = 3) ∧ Barrier l := by
  have hrun : (exec (fun l a => if InOrder l a then Link.step (fun _ => none) l a else none)
      Link.start [.serve, .serve, .deliver [], .call (.subscribe ['a']), .call (.flush false false),
        .serve, .serve, .deliver []]).map
      (fun l => decide ((0, none) ∈ l.transport.settled ∧ l.transport.mark 0 = 3)) = some true := by
    decide +kernel
  obtain ⟨l, hl, hsettled⟩ := exists_reachedBy_of_exec hrun
  exact ⟨l, by simpa using hsettled, flush_barrier hl⟩

/-- After the handshake a flush times out; then a subject is subscribed and flushed. The PONG
of the first flush resolves the second, with the subscription still unprocessed. -/
theorem late_pong_resolves_next_flush :
    ∃ l, Reached (Link.step fun _ => none) Link.start l ∧ ¬Barrier l := by
  have hrun : (exec (Link.step fun _ => none) Link.start
      [.serve, .serve, .deliver [], .call (.flush false false), .timeout 0,
        .call (.subscribe ['a']), .call (.flush false false), .serve, .deliver []]).map
      (fun l => decide ((1, none) ∈ l.transport.settled ∧ l.processed < l.transport.mark 1)) =
      some true := by
    decide +kernel
  obtain ⟨l, hl, hresolved⟩ := exists_reached_of_exec hrun
  obtain ⟨hsettled, hearly⟩ : (1, none) ∈ l.transport.settled ∧ l.processed < l.transport.mark 1 :=
    by simpa using hresolved
  exact ⟨l, hl, fun hbarrier => Nat.not_le.mpr hearly (hbarrier 1 hsettled)⟩

end System

end Webchannel.Nats
