import Webchannel.Nats.Connection
import Webchannel.Lib.Scanner

/-!
# The frames of a NATS stream

`drainBuffer` finds lines and MSG frames and acts on each before it looks for the next. What
it finds does not depend on what it does, so it is a scanner followed by a handler; the
scanner is also what the other end of the protocol is compared with.
-/

namespace Webchannel.Nats

inductive Frame where
  | line (text : Text)
  | msg (m : NatsMessage)
  deriving Repr, DecidableEq

/-- The frame at the front of a buffer. -/
def nextFrame (buffer : Bytes) : Scan UInt8 Frame Violation :=
  match crlfIndex buffer with
  | none => if maxControlLine < buffer.length then .bad .controlLineExceeds else .more
  | some crlfPos =>
    if maxControlLine < crlfPos then .bad .controlLineExceeds
    else
      let line := decodeUtf8 (buffer.take crlfPos)
      let rest := buffer.drop (crlfPos + 2)
      if msgTag.isPrefixOf line then
        match readMsg line rest with
        | .violation v => .bad v
        | .incomplete => .more
        | .complete m rest' => .frame (.msg m) rest'
      else .frame (.line line) rest

/-! ### Where lines end -/

theorem crlfIndex_append {b : Bytes} {pos : Nat} (h : crlfIndex b = some pos) (c : Bytes) :
    crlfIndex (b ++ c) = some pos := by
  induction b generalizing pos with
  | nil => simp [crlfIndex] at h
  | cons a b ih =>
    rw [crlfIndex] at h
    rw [List.cons_append, crlfIndex]
    split at h
    next hcrlf =>
      have hhead : (b ++ c).head? = some 10 := by simp [List.head?_append, hcrlf.2]
      rw [if_pos ⟨hcrlf.1, hhead⟩]
      exact h
    next hcrlf =>
      obtain ⟨q, hq, rfl⟩ := Option.map_eq_some_iff.mp h
      have hb : b ≠ [] := by
        rintro rfl
        simp [crlfIndex] at hq
      have hhead : (b ++ c).head? = b.head? := by
        cases b with
        | nil => exact absurd rfl hb
        | cons => rfl
      rw [hhead, if_neg hcrlf, ih hq]
      rfl

/-- The first CRLF of a line that has none of its own is the one after it. -/
theorem crlfIndex_line {line : Bytes} (h : crlfIndex line = none) (c : Bytes) :
    crlfIndex (line ++ crlf ++ c) = some line.length := by
  induction line with
  | nil => rfl
  | cons a line ih =>
    rw [crlfIndex] at h
    split at h
    next => cases h
    next hcrlf =>
      have hline : crlfIndex line = none := by simpa using h
      have hhead : ¬(a = 13 ∧ (line ++ crlf ++ c).head? = some 10) := by
        cases line with
        | nil => simp [crlf]
        | cons b line => simpa using hcrlf
      rw [List.cons_append, List.cons_append, crlfIndex, if_neg hhead, ih hline]
      rfl

/-- A line and the CR after it still have no CRLF. -/
theorem crlfIndex_line_cr {line : Bytes} (h : crlfIndex line = none) :
    crlfIndex (line ++ [13]) = none := by
  induction line with
  | nil => rfl
  | cons a line ih =>
    rw [crlfIndex] at h
    split at h
    next => cases h
    next hcrlf =>
      have hline : crlfIndex line = none := by simpa using h
      have hhead : ¬(a = 13 ∧ (line ++ [13]).head? = some 10) := by
        cases line with
        | nil => simp
        | cons b line => simpa using hcrlf
      rw [List.cons_append, crlfIndex, if_neg hhead, ih hline]
      rfl

theorem crlfIndex_begins {p b : Bytes} (hp : p <+: b) (h : crlfIndex b = none) :
    crlfIndex p = none := by
  obtain ⟨c, rfl⟩ := hp
  cases hidx : crlfIndex p with
  | none => rfl
  | some pos => simp [crlfIndex_append hidx c] at h

/-- Putting the line back in front of the rest restores the buffer. -/
theorem crlfIndex_split {b : Bytes} {pos : Nat} (h : crlfIndex b = some pos) :
    b.take pos ++ crlf ++ b.drop (pos + 2) = b := by
  induction b generalizing pos with
  | nil => simp [crlfIndex] at h
  | cons a b ih =>
    rw [crlfIndex] at h
    split at h
    next hcrlf =>
      obtain rfl : pos = 0 := by simpa using h.symm
      obtain ⟨rfl, hhead⟩ := hcrlf
      cases b with
      | nil => simp at hhead
      | cons c b =>
        obtain rfl : c = 10 := by simpa using hhead
        rfl
    next =>
      obtain ⟨q, hq, rfl⟩ := Option.map_eq_some_iff.mp h
      have hcut : q + 1 + 2 = (q + 2) + 1 := by omega
      rw [List.take_succ_cons, hcut, List.drop_succ_cons, List.cons_append, List.cons_append,
        ih hq]

/-! ### The scanner -/

theorem readMsg_append {line : Text} {b rest : Bytes} {m : NatsMessage}
    (h : readMsg line b = .complete m rest) (c : Bytes) :
    readMsg line (b ++ c) = .complete m (rest ++ c) := by
  obtain ⟨subject, replyTo, token, hparts, hcount, hlimit, hlen, hcrlf, rfl, rfl⟩ :=
    readMsg_complete h
  have hbody : digitsValue token ≤ b.length := by omega
  have hcrlf' : ((b ++ c).drop (digitsValue token)).take 2 = crlf := by
    rw [List.drop_append_of_le_length hbody, List.take_append_of_le_length, hcrlf]
    rw [List.length_drop]
    omega
  have hshort : ¬(b ++ c).length < digitsValue token + 2 := by
    rw [List.length_append]
    omega
  rw [readMsg, hparts]
  simp only [hcount, Bool.not_true, Bool.false_eq_true, if_false, if_neg hlimit, if_neg hshort,
    hcrlf', ne_eq, not_true_eq_false]
  rw [List.take_append_of_le_length hbody, List.drop_append_of_le_length hlen]

theorem nextFrame_frame {b rest : Bytes} {f : Frame} (h : nextFrame b = .frame f rest) :
    ∃ pos, crlfIndex b = some pos ∧ pos ≤ maxControlLine ∧
      ((msgTag.isPrefixOf (decodeUtf8 (b.take pos)) ∧ ∃ m, f = .msg m ∧
          readMsg (decodeUtf8 (b.take pos)) (b.drop (pos + 2)) = .complete m rest) ∨
        (¬msgTag.isPrefixOf (decodeUtf8 (b.take pos)) ∧ f = .line (decodeUtf8 (b.take pos)) ∧
          rest = b.drop (pos + 2))) := by
  unfold nextFrame at h
  split at h
  next =>
    split at h <;> cases h
  next pos hpos =>
    split at h
    · cases h
    next hlimit =>
      refine ⟨pos, hpos, Nat.le_of_not_lt hlimit, ?_⟩
      dsimp only at h
      split at h
      next htag =>
        split at h
        · cases h
        · cases h
        next m rest' hmsg =>
          cases h
          exact .inl ⟨htag, m, rfl, hmsg⟩
      next htag =>
        cases h
        exact .inr ⟨htag, rfl, rfl⟩

theorem nextFrame_shrinks {b rest : Bytes} {f : Frame} (h : nextFrame b = .frame f rest) :
    rest.length < b.length := by
  obtain ⟨pos, hpos, -, ⟨-, m, -, hmsg⟩ | ⟨-, -, rfl⟩⟩ := nextFrame_frame h
  · have hline := crlfIndex_lt hpos
    have hbody := readMsg_shrinks hmsg
    rw [List.length_drop] at hbody
    omega
  · have hline := crlfIndex_lt hpos
    rw [List.length_drop]
    omega

theorem nextFrame_append {b rest : Bytes} {f : Frame} (c : Bytes)
    (h : nextFrame b = .frame f rest) : nextFrame (b ++ c) = .frame f (rest ++ c) := by
  obtain ⟨pos, hpos, hlimit, hframe⟩ := nextFrame_frame h
  have hlt := crlfIndex_lt hpos
  have htake : (b ++ c).take pos = b.take pos :=
    List.take_append_of_le_length (by omega)
  have hdrop : (b ++ c).drop (pos + 2) = b.drop (pos + 2) ++ c :=
    List.drop_append_of_le_length hlt
  rw [nextFrame, crlfIndex_append hpos c]
  simp only [if_neg (Nat.not_lt.mpr hlimit), htake, hdrop]
  obtain ⟨htag, m, rfl, hmsg⟩ | ⟨htag, rfl, rfl⟩ := hframe
  · rw [if_pos htag, readMsg_append hmsg c]
  · rw [if_neg htag]

def frames : Scanner UInt8 Frame Violation where
  next := nextFrame
  shrinks := nextFrame_shrinks
  stable := nextFrame_append

/-! ### `drainBuffer` handles what the scanner finds -/

section Handle
variable (infoMaxPayload : Text → Option Nat) (listeners : Listeners)

/-- What one frame makes the transport do, and whether it goes on to the next. -/
def Transport.handle (t : Transport) : Frame → Transport × Bool
  | .msg m =>
    let t := t.took.emit listeners (.message m)
    (t, t.current)
  | .line line =>
    if line = [] then (t.took, true)
    else if infoTag.isPrefixOf line then (t.took.onInfo infoMaxPayload line, true)
    else if line = pongLine then
      if !t.connectOnWire then (t.took, true)
      else
        let t := t.took.onFirstPong listeners
        if !t.current then (t, false) else (t.resolveNextFlush, true)
    else if line = pingLine then (t.took.send .pong, true)
    else if errTag.isPrefixOf line then
      let t' := t.took.onServerError listeners line
      (t', t.established && t'.current)
    else (t.took, true)

def Transport.handleAll (t : Transport) : List Frame → Transport × Bool
  | [] => (t, true)
  | f :: fs =>
    let (t, go) := t.handle infoMaxPayload listeners f
    if go then Transport.handleAll t fs else (t, false)

/-- No line is two of the things that the loop tells apart. -/
theorem msgTag_excludes {line : Text} (h : msgTag.isPrefixOf line) :
    line ≠ [] ∧ ¬infoTag.isPrefixOf line ∧ line ≠ pongLine ∧ line ≠ pingLine := by
  obtain ⟨c, rfl⟩ := List.isPrefixOf_iff_prefix.mp h
  simp [msgTag, infoTag, pongLine, pingLine, List.isPrefixOf]

theorem drainLoop_none (t : Transport) {b : Bytes} (h : crlfIndex b = none) :
    drainLoop infoMaxPayload listeners t b = (t, some b) := by
  rw [drainLoop]
  split
  next => rfl
  next hsome => simp [h] at hsome

/-- One turn of the loop, where there is a line. -/
theorem drainLoop_step (t : Transport) {b : Bytes} {pos : Nat} (hpos : crlfIndex b = some pos) :
    drainLoop infoMaxPayload listeners t b =
      match nextFrame b with
      | .more => (t, some b)
      | .bad v => (t.protocolViolation listeners v, none)
      | .frame f rest =>
        let (t', go) := t.handle infoMaxPayload listeners f
        if go then drainLoop infoMaxPayload listeners t' rest else (t', none) := by
  rw [drainLoop, nextFrame]
  split
  next hnone => simp [hpos] at hnone
  next pos' hpos' =>
    obtain rfl : pos = pos' := by simpa [hpos] using hpos'
    simp only [hpos]
    by_cases hlimit : maxControlLine < pos
    · simp [hlimit]
    simp only [hlimit, if_false]
    generalize decodeUtf8 (b.take pos) = line
    by_cases htag : msgTag.isPrefixOf line
    · obtain ⟨hne, hinfo, hpong, hping⟩ := msgTag_excludes htag
      simp only [hne, hinfo, hpong, hping, htag, Bool.false_eq_true, if_true, if_false]
      split
      next v hmsg => simp [hmsg]
      next hmsg => simp [hmsg, crlfIndex_split hpos]
      next m rest' hmsg =>
        simp only [hmsg, Transport.handle]
        split <;> simp_all
    · simp only [htag, Bool.false_eq_true, if_false, Transport.handle]
      repeat' split
      all_goals simp_all

/-- One turn of `drainBuffer`, the last check included. -/
theorem drainBuffer_step (t : Transport) (b : Bytes) :
    drainBuffer infoMaxPayload listeners t b =
      match nextFrame b with
      | .more => (t, b)
      | .bad v => (t.protocolViolation listeners v, [])
      | .frame f rest =>
        let (t', go) := t.handle infoMaxPayload listeners f
        if go then drainBuffer infoMaxPayload listeners t' rest else (t', []) := by
  unfold drainBuffer
  cases hpos : crlfIndex b with
  | none =>
    rw [drainLoop_none infoMaxPayload listeners t hpos, nextFrame, hpos]
    by_cases hlong : maxControlLine < b.length
    · simp [hpos, hlong]
    · simp [hpos, hlong]
  | some pos =>
    rw [drainLoop_step infoMaxPayload listeners t hpos]
    cases nextFrame b with
    | more => simp [hpos]
    | bad v => rfl
    | frame f rest =>
      dsimp only
      cases (t.handle infoMaxPayload listeners f).2 <;> rfl

/-- `drainBuffer` handles the frames of the buffer, and keeps or refuses what is left. -/
theorem drainBuffer_eq (t : Transport) (b : Bytes) :
    drainBuffer infoMaxPayload listeners t b =
      match t.handleAll infoMaxPayload listeners (frames.drain b).1, (frames.drain b).2 with
      | (t', false), _ => (t', [])
      | (t', true), .ok rest => (t', rest)
      | (t', true), .error v => (t'.protocolViolation listeners v, []) := by
  induction b using frames.drain_induction generalizing t with
  | more b hb =>
    rw [Scanner.drain_more hb, drainBuffer_step]
    simp [show nextFrame b = .more from hb, Transport.handleAll]
  | bad b v hb =>
    rw [Scanner.drain_bad hb, drainBuffer_step]
    simp [show nextFrame b = .bad v from hb, Transport.handleAll]
  | frame b f rest hb ih =>
    rw [Scanner.drain_frame hb, drainBuffer_step]
    simp only [show nextFrame b = .frame f rest from hb, Transport.handleAll]
    cases (t.handle infoMaxPayload listeners f).2 with
    | false => simp
    | true =>
      simp only [if_true]
      exact ih _

end Handle

/-! ### What the listeners and the methods leave alone -/

/-- The listeners never give the socket up. -/
def Listeners.Stay (listeners : Listeners) : Prop :=
  ∀ t e, Call.disconnect ∉ listeners t e

/-- The socket is the current one, and CONNECT was written on it. -/
structure Transport.Ready (t : Transport) : Prop where
  current : t.current
  connectOnWire : t.connectOnWire

def Event.message? : Event → Option NatsMessage
  | .message m => some m
  | _ => none

def Event.violation? : Event → Option Violation
  | .violation v => some v
  | _ => none

def Transport.messages (t : Transport) : List NatsMessage := t.events.filterMap Event.message?

def Transport.violations (t : Transport) : List Violation := t.events.filterMap Event.violation?

/-- How many PINGs of the server were answered. -/
def Transport.pongs (t : Transport) : Nat := t.sent.count .pong

/-- Two states that differ only in what was asked of the server. -/
structure Transport.SameReading (t t' : Transport) : Prop where
  current : t'.current = t.current
  connectOnWire : t'.connectOnWire = t.connectOnWire
  events : t'.events = t.events
  pongs : t'.pongs = t.pongs
  taken : t'.taken = t.taken

section Reading
variable {t t' t'' : Transport}

theorem Transport.SameReading.refl (t : Transport) : t.SameReading t := ⟨rfl, rfl, rfl, rfl, rfl⟩

theorem Transport.SameReading.trans (h : t.SameReading t') (h' : t'.SameReading t'') :
    t.SameReading t'' :=
  ⟨h'.current.trans h.current, h'.connectOnWire.trans h.connectOnWire, h'.events.trans h.events,
    h'.pongs.trans h.pongs, h'.taken.trans h.taken⟩

theorem Transport.SameReading.messages (h : t.SameReading t') : t'.messages = t.messages := by
  rw [Transport.messages, h.events, Transport.messages]

theorem Transport.SameReading.violations (h : t.SameReading t') :
    t'.violations = t.violations := by
  rw [Transport.violations, h.events, Transport.violations]

theorem Transport.SameReading.ready (h : t.SameReading t') (ht : t.Ready) : t'.Ready :=
  ⟨h.current.trans ht.current, h.connectOnWire.trans ht.connectOnWire⟩

theorem Transport.sameReading_send (t : Transport) {c : Command} (h : c ≠ .pong) :
    t.SameReading (t.send c) :=
  ⟨rfl, rfl, rfl, by simp [Transport.pongs, Transport.send, h], rfl⟩

theorem Transport.sameReading_settleFlush (t : Transport) (id : Nat)
    (error : Option TransportError) : t.SameReading (t.settleFlush id error) := by
  unfold Transport.settleFlush
  split
  · exact ⟨rfl, rfl, rfl, rfl, rfl⟩
  · exact .refl t

theorem Transport.sameReading_resolveNextFlush (t : Transport) :
    t.SameReading t.resolveNextFlush := by
  unfold Transport.resolveNextFlush
  split
  · exact .refl t
  · exact t.sameReading_settleFlush _ _

theorem Transport.sameReading_rejectFlushes (t : Transport) (error : TransportError) :
    t.SameReading (t.rejectFlushes error) := by
  unfold Transport.rejectFlushes
  generalize t.flushWaiters = ids
  induction ids generalizing t with
  | nil => exact .refl t
  | cons id ids ih => exact (t.sameReading_settleFlush id _).trans (ih _)

theorem Transport.sameReading_flush (t : Transport) (aborted sendThrows : Bool) :
    t.SameReading (t.flush aborted sendThrows) := by
  have hbegun : t.SameReading { t with
      flushMarks := t.flushMarks ++ [t.sent.length]
      flushWaiters := t.flushWaiters ++ [t.flushMarks.length] } :=
    ⟨rfl, rfl, rfl, rfl, rfl⟩
  unfold Transport.flush
  split
  · exact .refl t
  split
  · exact .refl t
  dsimp only
  split
  · exact hbegun.trans (Transport.sameReading_settleFlush _ _ _)
  · exact hbegun.trans (Transport.sameReading_send _ (by decide))

theorem Transport.sameReading_call (t : Transport) {c : Call} (hc : c ≠ .disconnect) :
    t.SameReading (t.call c) := by
  cases c with
  | subscribe subject =>
    change t.SameReading (t.subscribe subject)
    unfold Transport.subscribe
    split
    · exact ⟨rfl, rfl, rfl, by simp [Transport.pongs], rfl⟩
    · exact .refl t
  | unsubscribe sid =>
    have hforget : t.SameReading { t with subs := t.subs.filter (·.1 ≠ sid) } :=
      ⟨rfl, rfl, rfl, rfl, rfl⟩
    change t.SameReading (t.unsubscribe sid)
    unfold Transport.unsubscribe
    dsimp only
    split
    · exact hforget.trans (Transport.sameReading_send _ (by simp))
    · exact hforget
  | publish subject replyTo payload =>
    change t.SameReading (t.publish subject replyTo payload)
    unfold Transport.publish
    split
    · exact t.sameReading_send (by simp)
    · exact .refl t
  | flush aborted sendThrows => exact t.sameReading_flush aborted sendThrows
  | disconnect => exact absurd rfl hc

theorem Transport.sameReading_calls (t : Transport) {cs : List Call}
    (hcs : Call.disconnect ∉ cs) : t.SameReading (t.calls cs) := by
  unfold Transport.calls
  induction cs generalizing t with
  | nil => exact .refl t
  | cons c cs ih =>
    have hc : c ≠ .disconnect := fun h => hcs (by simp [h])
    exact (t.sameReading_call hc).trans (ih _ fun h => hcs (by simp [h]))

/-! ### Handling frames on a connection that is ready -/

def Frame.message? : Frame → Option NatsMessage
  | .msg m => some m
  | .line _ => none

def Frame.isPing : Frame → Bool
  | .msg _ => false
  | .line text => text = pingLine

def Frame.isError : Frame → Bool
  | .msg _ => false
  | .line text => errTag.isPrefixOf text

/-- What some frames have made of a connection that was ready. -/
structure Transport.Read (t : Transport) (fs : List Frame) (t' : Transport) : Prop where
  ready : t'.Ready
  messages : t'.messages = t.messages ++ fs.filterMap Frame.message?
  violations : t'.violations = t.violations
  pongs : t'.pongs = t.pongs + fs.countP Frame.isPing
  taken : t'.taken = t.taken + fs.length

theorem Transport.Read.nil (h : t.Ready) : t.Read [] t := ⟨h, by simp, rfl, by simp, rfl⟩

theorem Transport.Read.append {fs gs : List Frame} (h : t.Read fs t') (h' : t'.Read gs t'') :
    t.Read (fs ++ gs) t'' where
  ready := h'.ready
  messages := by rw [h'.messages, h.messages, List.filterMap_append, List.append_assoc]
  violations := h'.violations.trans h.violations
  pongs := by rw [h'.pongs, h.pongs, List.countP_append, Nat.add_assoc]
  taken := by rw [h'.taken, h.taken, List.length_append, Nat.add_assoc]

/-- What changes nothing that is read can follow. -/
theorem Transport.Read.sameReading {fs : List Frame} (h : t.Read fs t')
    (h' : t'.SameReading t'') : t.Read fs t'' :=
  ⟨h'.ready h.ready, h'.messages.trans h.messages, h'.violations.trans h.violations,
    h'.pongs.trans h.pongs, h'.taken.trans h.taken⟩

/-- Taking a line that is neither a message nor a PING. -/
theorem Transport.read_took (h : t.Ready) {line : Text} (hping : line ≠ pingLine) :
    t.Read [.line line] t.took :=
  ⟨⟨h.current, h.connectOnWire⟩, (List.append_nil _).symm, rfl,
    by simp [Frame.isPing, hping, Transport.pongs, Transport.took], rfl⟩

/-- An event that is neither a message nor a violation. -/
theorem Transport.sameReading_note_messages (t : Transport) {e : Event}
    (hmsg : e.message? = none) (hviol : e.violation? = none) :
    (t.note e).messages = t.messages ∧ (t.note e).violations = t.violations := by
  constructor
  · simp [Transport.messages, Transport.note, hmsg]
  · simp [Transport.violations, Transport.note, hviol]

variable {listeners : Listeners}

/-- An event, with all that its listeners do, tells only itself. -/
theorem Transport.emit_reading (hstay : listeners.Stay) (t : Transport) (e : Event) :
    (t.note e).SameReading (t.emit listeners e) :=
  Transport.sameReading_calls _ (hstay t e)

theorem Transport.Read.emit {fs : List Frame} (h : t.Read fs t') (hstay : listeners.Stay)
    {e : Event} (hmsg : e.message? = none) (hviol : e.violation? = none) :
    t.Read fs (t'.emit listeners e) := by
  obtain ⟨hmessages, hviolations⟩ := t'.sameReading_note_messages hmsg hviol
  have hnote : t.Read fs (t'.note e) :=
    ⟨⟨h.ready.current, h.ready.connectOnWire⟩, hmessages.trans h.messages,
      hviolations.trans h.violations, h.pongs, h.taken⟩
  exact hnote.sameReading (t'.emit_reading hstay e)

theorem Transport.sameReading_onInfo (infoMaxPayload : Text → Option Nat) (t : Transport)
    (line : Text) : t.SameReading (t.onInfo infoMaxPayload line) := by
  unfold Transport.onInfo
  cases infoMaxPayload (line.drop 5) with
  | none =>
    dsimp only
    split
    · exact ⟨rfl, rfl, rfl, rfl, rfl⟩
    · exact .refl t
  | some n =>
    dsimp only
    split <;> exact ⟨rfl, rfl, rfl, rfl, rfl⟩

/-- A PONG is an event that nobody counts, the first one too. -/
theorem Transport.read_onFirstPong (hstay : listeners.Stay) (h : t.Ready) :
    t.Read [.line pongLine] (t.took.onFirstPong listeners).resolveNextFlush := by
  have htook : t.Read [.line pongLine] t.took := Transport.read_took h (by decide)
  have hpong : t.Read [.line pongLine] (t.took.onFirstPong listeners) := by
    have hcurrent : t.took.current = true := h.current
    have hopen : t.Read [.line pongLine] { t.took with established := true, connected := true } :=
      htook.sameReading ⟨rfl, rfl, rfl, rfl, rfl⟩
    have hfirst := hopen.emit hstay (show Event.connect.message? = none from rfl) rfl
    have hlater := htook.emit hstay (show Event.pong.message? = none from rfl) rfl
    unfold Transport.onFirstPong
    cases t.took.established with
    | false => simpa [hcurrent] using hfirst
    | true => simpa [hcurrent] using hlater
  exact hpong.sameReading (Transport.sameReading_resolveNextFlush _)

theorem Transport.read_msg (hstay : listeners.Stay) (h : t.Ready) (m : NatsMessage) :
    t.Read [.msg m] (t.took.emit listeners (.message m)) := by
  have hnote : t.Read [.msg m] (t.took.note (.message m)) :=
    ⟨⟨h.current, h.connectOnWire⟩,
      by simp [Transport.messages, Transport.note, Transport.took, Event.message?,
        Frame.message?],
      by simp [Transport.violations, Transport.note, Transport.took, Event.violation?],
      by simp [Transport.pongs, Transport.note, Transport.took, Frame.isPing], rfl⟩
  exact hnote.sameReading (Transport.emit_reading hstay _ _)

theorem Transport.read_handle (infoMaxPayload : Text → Option Nat) (hstay : listeners.Stay)
    (h : t.Ready) {f : Frame} (hf : f.isError = false) :
    (t.handle infoMaxPayload listeners f).2 = true ∧
      t.Read [f] (t.handle infoMaxPayload listeners f).1 := by
  cases f with
  | msg m =>
    have hread := Transport.read_msg hstay h m
    exact ⟨hread.ready.current, hread⟩
  | line line =>
    unfold Transport.handle
    dsimp only
    split
    next hempty =>
      refine ⟨rfl, Transport.read_took h ?_⟩
      rw [hempty]
      decide
    split
    next hinfo =>
      have hne : line ≠ pingLine := by
        rintro rfl
        exact absurd hinfo (by decide)
      exact ⟨rfl, (Transport.read_took h hne).sameReading (Transport.sameReading_onInfo _ _ _)⟩
    split
    next hpong =>
      subst hpong
      have hread := Transport.read_onFirstPong hstay h
      have hcurrent : (t.took.onFirstPong listeners).current = true := by
        rw [← (Transport.sameReading_resolveNextFlush _).current]
        exact hread.ready.current
      simp [h.connectOnWire, hcurrent, hread]
    split
    next hping =>
      refine ⟨rfl, ⟨h.current, h.connectOnWire⟩, ?_, rfl, ?_, rfl⟩
      · simp [Transport.messages, Transport.send, Transport.took, Frame.message?]
      · simp [Transport.pongs, Transport.send, Transport.took, Frame.isPing, hping]
    next hping =>
      have herr : errTag.isPrefixOf line = false := hf
      simp [herr, Transport.read_took h hping]

theorem Transport.read_handleAll (infoMaxPayload : Text → Option Nat) (hstay : listeners.Stay)
    (h : t.Ready) {fs : List Frame} (hfs : ∀ f ∈ fs, f.isError = false) :
    (t.handleAll infoMaxPayload listeners fs).2 = true ∧
      t.Read fs (t.handleAll infoMaxPayload listeners fs).1 := by
  induction fs generalizing t with
  | nil => exact ⟨rfl, .nil h⟩
  | cons f fs ih =>
    obtain ⟨hgo, hread⟩ := Transport.read_handle infoMaxPayload hstay h (hfs f (by simp))
    obtain ⟨hgo', hread'⟩ := ih hread.ready fun g hg => hfs g (by simp [hg])
    rw [Transport.handleAll]
    simp only [hgo, if_true]
    exact ⟨hgo', hread.append hread'⟩

/-! ### No event but a violation is one -/

theorem Transport.call_events (t : Transport) (c : Call) : (t.call c).events = t.events := by
  by_cases hc : c = .disconnect
  · subst hc
    exact (Transport.sameReading_rejectFlushes _ _).events
  · exact (t.sameReading_call hc).events

theorem Transport.calls_events (t : Transport) (cs : List Call) :
    (t.calls cs).events = t.events := by
  unfold Transport.calls
  induction cs generalizing t with
  | nil => rfl
  | cons c cs ih => exact (ih _).trans (t.call_events c)

theorem Transport.emit_events (t : Transport) (e : Event) :
    (t.emit listeners e).events = t.events ++ [e] :=
  Transport.calls_events _ _

theorem Transport.emit_violations (t : Transport) {e : Event} (he : e.violation? = none) :
    (t.emit listeners e).violations = t.violations := by
  rw [Transport.violations, t.emit_events, List.filterMap_append, List.filterMap_cons, he]
  simp [Transport.violations]

theorem Transport.protocolViolation_violations (t : Transport) (v : Violation) :
    (t.protocolViolation listeners v).violations = t.violations ++ [v] := by
  have hreport : ((t.rejectFlushes (.protocolViolation v)).note (.violation v)).violations =
      t.violations ++ [v] := by
    simp [Transport.violations, Transport.note, (t.sameReading_rejectFlushes _).events,
      Event.violation?]
  unfold Transport.protocolViolation
  dsimp only
  split
  · exact (Transport.emit_violations _ rfl).trans hreport
  · rw [← hreport]
    simp [Transport.violations, Transport.note, List.filterMap_cons, Event.violation?]

/-- A violation is no message, and no frame is taken with it. -/
theorem Transport.protocolViolation_reading (hstay : listeners.Stay) (t : Transport)
    (v : Violation) :
    (t.protocolViolation listeners v).messages = t.messages ∧
      (t.protocolViolation listeners v).taken = t.taken := by
  have hreject := t.sameReading_rejectFlushes (.protocolViolation v)
  have hreport : ((t.rejectFlushes (.protocolViolation v)).note (.violation v)).messages =
      t.messages := by
    simp [Transport.messages, Transport.note, hreject.events, List.filterMap_cons, Event.message?]
  unfold Transport.protocolViolation
  dsimp only
  split
  · have hemit := Transport.emit_reading hstay
      ((t.rejectFlushes (.protocolViolation v)).note (.violation v)) (.error (.protocolViolation v))
    refine ⟨?_, hemit.taken.trans hreject.taken⟩
    rw [← hreport]
    refine hemit.messages.trans ?_
    simp [Transport.messages, Transport.note, List.filterMap_cons, Event.message?]
  · refine ⟨?_, hreject.taken⟩
    rw [← hreport]
    simp [Transport.messages, Transport.note, List.filterMap_cons, Event.message?]

theorem Transport.onFirstPong_violations (t : Transport) :
    (t.onFirstPong listeners).violations = t.violations := by
  unfold Transport.onFirstPong
  split
  · dsimp only
    split
    · exact Transport.emit_violations _ rfl
    · rfl
  split
  · exact t.emit_violations rfl
  · rfl

theorem Transport.onServerError_violations (t : Transport) (line : Text) :
    (t.onServerError listeners line).violations = t.violations := by
  unfold Transport.onServerError
  split
  · simp [Transport.violations, Transport.note, List.filterMap_cons, Event.violation?]
  · rw [Transport.emit_violations _ rfl, (t.sameReading_rejectFlushes _).violations]

theorem Transport.handle_violations (infoMaxPayload : Text → Option Nat) (t : Transport)
    (f : Frame) : (t.handle infoMaxPayload listeners f).1.violations = t.violations := by
  cases f with
  | msg m => exact t.took.emit_violations rfl
  | line line =>
    unfold Transport.handle
    dsimp only
    split
    · rfl
    split
    · exact (t.took.sameReading_onInfo infoMaxPayload line).violations
    split
    · split
      · rfl
      split
      · exact t.took.onFirstPong_violations
      · rw [(Transport.sameReading_resolveNextFlush _).violations]
        exact t.took.onFirstPong_violations
    split
    · rfl
    split
    · exact t.took.onServerError_violations line
    · rfl

theorem Transport.handleAll_violations (infoMaxPayload : Text → Option Nat) (t : Transport)
    (fs : List Frame) : (t.handleAll infoMaxPayload listeners fs).1.violations = t.violations := by
  induction fs generalizing t with
  | nil => rfl
  | cons f fs ih =>
    rw [Transport.handleAll]
    dsimp only
    split
    · exact (ih _).trans (t.handle_violations infoMaxPayload f)
    · exact t.handle_violations infoMaxPayload f

/-- A chunk adds to what was reported. -/
theorem Transport.onMessage_violations (infoMaxPayload : Text → Option Nat) (t : Transport)
    (c : Bytes) : t.violations <+: (t.onMessage infoMaxPayload listeners c).violations := by
  unfold Transport.onMessage
  split
  · exact List.prefix_rfl
  split
  · exact ⟨_, (t.protocolViolation_violations _).symm⟩
  · have hall : (t.handleAll infoMaxPayload listeners (frames.drain (t.buffer ++ c)).1).1.violations
        = t.violations := t.handleAll_violations infoMaxPayload _
    rw [drainBuffer_eq]
    cases hgo : t.handleAll infoMaxPayload listeners (frames.drain (t.buffer ++ c)).1 with
    | mk t' go =>
      rw [hgo] at hall
      cases go with
      | false => exact ⟨[], by rw [List.append_nil]; exact hall.symm⟩
      | true =>
        cases (frames.drain (t.buffer ++ c)).2 with
        | ok rest => exact ⟨[], by rw [List.append_nil]; exact hall.symm⟩
        | error v =>
          refine ⟨[v], ?_⟩
          rw [← hall]
          exact (t'.protocolViolation_violations v).symm

end Reading

end Webchannel.Nats
