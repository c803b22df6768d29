import Webchannel.Nats.Browser
import Webchannel.Nats.Chunking

/-!
# The two readers agree

On a stream of ASCII control lines without errors the browser's reader and the agent's find
the same frames and refuse the same bytes, chunk by chunk. They part only after a refusal:
the browser has left its socket, while the agent has merely asked for its socket to be
closed and goes on reading whatever still arrives.
-/

namespace Webchannel.Nats

/-- A line that both decoders read alike, and that is no error. -/
structure Plain (line : Bytes) : Prop where
  ascii : ∀ b ∈ line, b.toNat ≤ 0x7F
  not_err : ¬errTag.isPrefixOf (decodeUtf8 line)

theorem Plain.decodeText {line : Bytes} (h : Plain line) : decodeText line = decodeUtf8 line := by
  have hmark : ¬[0xEF, 0xBB, 0xBF].isPrefixOf line := by
    intro hpre
    obtain ⟨c, rfl⟩ := List.isPrefixOf_iff_prefix.mp hpre
    exact absurd (h.ascii 0xEF (by simp)) (by decide)
  rw [Nats.decodeText, if_neg hmark]

/-- The lines at which the bytes are cut: control lines and MSG headers, but no line inside a
payload. -/
def controlLines (b : Bytes) : List Bytes :=
  match crlfIndex b with
  | none => []
  | some pos =>
    b.take pos ::
      match _h : nextFrame b with
      | .frame _ rest => controlLines rest
      | _ => []
termination_by b.length
decreasing_by exact nextFrame_shrinks _h

theorem controlLines_frame {b rest : Bytes} {f : Frame} {pos : Nat}
    (hpos : crlfIndex b = some pos) (h : nextFrame b = .frame f rest) :
    controlLines b = b.take pos :: controlLines rest := by
  rw [controlLines]
  simp only [hpos]
  split <;> simp_all

theorem controlLines_stop {b : Bytes} {pos : Nat} (hpos : crlfIndex b = some pos)
    (h : ∀ f rest, nextFrame b ≠ .frame f rest) : controlLines b = [b.take pos] := by
  rw [controlLines]
  simp [hpos]

theorem controlLines_head {b : Bytes} {pos : Nat} (hpos : crlfIndex b = some pos) :
    [b.take pos] <+: controlLines b := by
  cases h : nextFrame b with
  | frame f rest => exact ⟨_, (controlLines_frame hpos h).symm⟩
  | more => exact ⟨[], by rw [controlLines_stop hpos (by simp [h]), List.append_nil]⟩
  | bad v => exact ⟨[], by rw [controlLines_stop hpos (by simp [h]), List.append_nil]⟩

/-- Where no frame is found, the line it would begin with is the only one. -/
theorem controlLines_append_stop {b : Bytes} (c : Bytes)
    (h : ∀ f rest, nextFrame b ≠ .frame f rest) : controlLines b <+: controlLines (b ++ c) := by
  cases hpos : crlfIndex b with
  | none =>
    rw [controlLines, hpos]
    exact List.nil_prefix
  | some pos =>
    have hhead := controlLines_head (crlfIndex_append hpos c)
    have hlt := crlfIndex_lt hpos
    rwa [List.take_append_of_le_length (by omega), ← controlLines_stop hpos h] at hhead

/-- The lines of some bytes are lines of any continuation. -/
theorem controlLines_append (b c : Bytes) : controlLines b <+: controlLines (b ++ c) := by
  induction b using frames.drain_induction with
  | more b hb =>
    have hb' : nextFrame b = .more := hb
    exact controlLines_append_stop c (by simp [hb'])
  | bad b v hb =>
    have hb' : nextFrame b = .bad v := hb
    exact controlLines_append_stop c (by simp [hb'])
  | frame b f rest hb ih =>
    obtain ⟨pos, hpos, -⟩ := nextFrame_frame hb
    have hlt := crlfIndex_lt hpos
    rw [controlLines_frame hpos hb,
      controlLines_frame (crlfIndex_append hpos c) (nextFrame_append c hb),
      List.take_append_of_le_length (by omega)]
    exact (List.prefix_cons_inj _).mpr ih

theorem controlLines_drain {b r : Bytes} {fs : List Frame} (h : frames.drain b = (fs, .ok r))
    (c : Bytes) : ∀ line ∈ controlLines (r ++ c), line ∈ controlLines (b ++ c) := by
  induction b using frames.drain_induction generalizing fs with
  | more b hb =>
    rw [Scanner.drain_more hb] at h
    simp only [Prod.mk.injEq, Except.ok.injEq] at h
    rw [h.2]
    exact fun _ hline => hline
  | bad b v hb =>
    rw [Scanner.drain_bad hb] at h
    simp at h
  | frame b f rest hb ih =>
    rw [Scanner.drain_frame hb, Prod.mk.injEq] at h
    obtain ⟨pos, hpos, -⟩ := nextFrame_frame hb
    intro line hline
    rw [controlLines_frame (crlfIndex_append hpos c) (nextFrame_append c hb)]
    exact List.mem_cons_of_mem _ (ih (Prod.ext rfl h.2) line hline)

namespace NatsClient

theorem crlfFrom_eq (b : Bytes) (i : Nat) :
    crlfFrom b i = (crlfIndex (b.drop i)).map (· + i) := by
  induction i using crlfFrom.induct b with
  | case1 i hlt hcrlf =>
    rw [crlfFrom, if_pos hlt, if_pos hcrlf, List.drop_eq_getElem_cons (by omega),
      List.drop_eq_getElem_cons (by omega), crlfIndex]
    rw [List.getElem?_eq_getElem (by omega), List.getElem?_eq_getElem (by omega)] at hcrlf
    simp only [Option.some.injEq] at hcrlf
    simp [hcrlf]
  | case2 i hlt hcrlf ih =>
    rw [crlfFrom, if_pos hlt, if_neg hcrlf, ih]
    have hhead : (b.drop (i + 1)).head? = b[i + 1]? := by simp
    have hdrop : b.drop i = b[i] :: b.drop (i + 1) := List.drop_eq_getElem_cons (by omega)
    have hne : ¬(b[i] = 13 ∧ (b.drop (i + 1)).head? = some 10) := by
      rw [hhead]
      rwa [List.getElem?_eq_getElem (by omega), Option.some.injEq] at hcrlf
    rw [hdrop, crlfIndex, if_neg hne, Option.map_map]
    congr 1
    funext n
    simp only [Function.comp_apply]
    omega
  | case3 i hlt =>
    have hshort : (b.drop i).length ≤ 1 := by
      rw [List.length_drop]
      omega
    rw [crlfFrom, if_neg hlt]
    obtain hnil | ⟨a, ha⟩ : b.drop i = [] ∨ ∃ a, b.drop i = [a] := by
      rw [← List.length_eq_zero_iff, ← List.length_eq_one_iff]
      omega
    · rw [hnil]
      rfl
    · rw [ha]
      simp [crlfIndex]

theorem crlfFrom_zero (b : Bytes) : crlfFrom b 0 = crlfIndex b := by
  rw [crlfFrom_eq, List.drop_zero]
  simp

/-- The socket is the current one, and CONNECT was written on it. -/
structure Ready (k : NatsClient) : Prop where
  current : k.current
  connectOnWire : k.connectOnWire

/-- What the raw listeners are to be given of a message. -/
def view (m : NatsMessage) : Text × Text := (m.subject, decodeText m.payload)

/-- What some frames have made of a connection that was ready. -/
structure Read (k : NatsClient) (fs : List Frame) (k' : NatsClient) : Prop where
  ready : k'.Ready
  delivered : k'.delivered = k.delivered ++ (fs.filterMap Frame.message?).map view
  reconnects : k'.reconnects = k.reconnects
  taken : k'.taken = k.taken + fs.length

variable {k k' k'' : NatsClient}

theorem Read.nil (h : k.Ready) : k.Read [] k := ⟨h, by simp, rfl, rfl⟩

theorem Read.append {fs gs : List Frame} (h : k.Read fs k') (h' : k'.Read gs k'') :
    k.Read (fs ++ gs) k'' where
  ready := h'.ready
  delivered := by
    rw [h'.delivered, h.delivered, List.filterMap_append, List.map_append, List.append_assoc]
  reconnects := h'.reconnects.trans h.reconnects
  taken := by rw [h'.taken, h.taken, List.length_append, Nat.add_assoc]

variable {retire : NatsClient → Bool}

/-- What one frame makes the client do, where the listeners stay. -/
def handle (retire : NatsClient → Bool) (k : NatsClient) : Frame → NatsClient
  | .msg m => k.took.notifyRawListeners retire m.subject (Nats.decodeText m.payload)
  | .line text =>
    if text = [] then k.took
    else if infoTag.isPrefixOf text then k.took.onInfo
    else if text = pongLine then if !k.connectOnWire then k.took else k.took.onPong retire
    else if text = pingLine then k.took.send .pong
    else k.took

theorem notify_stay (hstay : ∀ k, retire k = false) (k : NatsClient) : k.notify retire = k := by
  simp [notify, hstay]

theorem read_line {k k' : NatsClient} (h : k.Ready) (text : Text)
    (hcurrent : k'.current = k.current) (hwire : k'.connectOnWire = k.connectOnWire)
    (hdelivered : k'.delivered = k.delivered) (hreconnects : k'.reconnects = k.reconnects)
    (htaken : k'.taken = k.taken + 1) : k.Read [.line text] k' :=
  ⟨⟨hcurrent.trans h.current, hwire.trans h.connectOnWire⟩,
    hdelivered.trans (List.append_nil _).symm, hreconnects, htaken⟩

theorem read_handle (hstay : ∀ k, retire k = false) (h : k.Ready) (f : Frame) :
    k.Read [f] (k.handle retire f) := by
  cases f with
  | msg m =>
    have hraw : k.handle retire (.msg m) = { k.took with delivered := k.delivered ++ [view m] } :=
      notify_stay hstay _
    rw [hraw]
    exact ⟨⟨h.current, h.connectOnWire⟩, rfl, rfl, rfl⟩
  | line text =>
    have htook : k.Read [.line text] k.took := read_line h text rfl rfl rfl rfl rfl
    unfold handle
    dsimp only
    split
    · exact htook
    split
    · unfold onInfo
      split
      · exact read_line h text rfl rfl rfl rfl rfl
      · exact htook
    split
    · split
      · exact htook
      · have hcurrent : k.took.current = true := h.current
        unfold onPong
        simp only [notify_stay hstay]
        split
        · rw [if_neg (by simp [hcurrent])]
          exact read_line h text rfl rfl rfl rfl rfl
        · exact read_line h text rfl rfl rfl rfl rfl
    split
    · exact read_line h text rfl rfl rfl rfl rfl
    · exact htook

/-! ### The loop handles what the scanner finds -/

theorem drainLoop_none {b : Bytes} (h : crlfIndex b = none) :
    drainLoop retire k b = (k, some b) := by
  rw [drainLoop]
  split
  next => rfl
  next hsome => simp [crlfFrom_zero, h] at hsome

/-- One turn of the loop at a plain line, where the listeners stay. -/
theorem drainLoop_step (hstay : ∀ k, retire k = false) (h : k.Ready) {b : Bytes} {pos : Nat}
    (hpos : crlfIndex b = some pos) (hplain : Plain (b.take pos)) :
    drainLoop retire k b =
      match nextFrame b with
      | .more => (k, some b)
      | .bad _ => (k.forceReconnect, none)
      | .frame f rest => drainLoop retire (k.handle retire f) rest := by
  have hcurrent : ∀ f, (k.handle retire f).current = true := fun f =>
    (read_handle hstay h f).ready.current
  rw [drainLoop, nextFrame]
  split
  next hnone => simp [crlfFrom_zero, hpos] at hnone
  next pos' hpos' =>
    obtain rfl : pos = pos' := by simpa [crlfFrom_zero, hpos] using hpos'
    simp only [hpos]
    by_cases hlimit : maxControlLine < pos
    · simp [hlimit]
    have htext := hplain.decodeText
    have herr := hplain.not_err
    simp only [hlimit, if_false, htext]
    generalize decodeUtf8 (b.take pos) = line at htext herr ⊢
    by_cases htag : msgTag.isPrefixOf line
    · obtain ⟨hne, hinfo, hpong, hping⟩ := msgTag_excludes htag
      simp only [hne, hinfo, hpong, hping, htag, Bool.false_eq_true, if_true, if_false]
      split
      next k' hmsg =>
        rw [handleMessage_eq, htext] at hmsg
        split at hmsg <;> simp_all
      next k' buffer hmsg =>
        rw [handleMessage_eq, htext] at hmsg
        split at hmsg
        · simp at hmsg
        · simp only [Prod.mk.injEq, Option.some.injEq, and_true] at hmsg
          obtain ⟨rfl, rfl⟩ := hmsg
          simp_all [crlfIndex_split hpos, h.current]
        · simp at hmsg
      next k' buffer hmsg =>
        rw [handleMessage_eq, htext] at hmsg
        split at hmsg
        · simp at hmsg
        · simp at hmsg
        next m rest hread =>
          simp only [Prod.mk.injEq, Option.some.injEq, and_true] at hmsg
          obtain ⟨rfl, rfl⟩ := hmsg
          have hstill : (k.took.notifyRawListeners retire m.subject
            (Nats.decodeText m.payload)).current = true := hcurrent (.msg m)
          simp only [hread, hstill, Bool.not_true, Bool.false_eq_true, if_false]
          rfl
    · simp only [htag, herr, Bool.false_eq_true, if_false, handle]
      split
      · rfl
      split
      · rfl
      split
      next hpong =>
        have hstill : (k.took.onPong retire).current = true := by
          have := hcurrent (.line pongLine)
          simpa [handle, infoTag, pongLine, h.connectOnWire] using this
        simp [h.connectOnWire, hstill]
      split
      · rfl
      · rfl

theorem drainBuffer_step (hstay : ∀ k, retire k = false) (h : k.Ready) {b : Bytes}
    (hplain : ∀ line ∈ controlLines b, Plain line) :
    drainBuffer retire k b =
      match nextFrame b with
      | .more => (k, b)
      | .bad _ => (k.forceReconnect, [])
      | .frame f rest => drainBuffer retire (k.handle retire f) rest := by
  unfold drainBuffer
  cases hpos : crlfIndex b with
  | none =>
    rw [drainLoop_none hpos, nextFrame, hpos]
    by_cases hlong : maxControlLine < b.length
    · simp [crlfFrom_zero, hpos, hlong]
    · simp [crlfFrom_zero, hpos, hlong]
  | some pos =>
    have hhead : Plain (b.take pos) :=
      hplain (b.take pos) ((controlLines_head hpos).subset (List.mem_singleton.mpr rfl))
    rw [drainLoop_step hstay h hpos hhead]
    cases nextFrame b with
    | more => simp [crlfFrom_zero, hpos]
    | bad v => rfl
    | frame f rest => rfl

/-- Reading a buffer: its frames are handled, and what is left is kept or refused. -/
theorem drainBuffer_read (hstay : ∀ k, retire k = false) (h : k.Ready) {b : Bytes}
    (hplain : ∀ line ∈ controlLines b, Plain line) :
    ∃ k', k.Read (frames.drain b).1 k' ∧
      drainBuffer retire k b =
        match (frames.drain b).2 with
        | .ok rest => (k', rest)
        | .error _ => (k'.forceReconnect, []) := by
  induction b using frames.drain_induction generalizing k with
  | more b hb =>
    rw [Scanner.drain_more hb, drainBuffer_step hstay h hplain]
    exact ⟨k, .nil h, by simp [show nextFrame b = .more from hb]⟩
  | bad b v hb =>
    rw [Scanner.drain_bad hb, drainBuffer_step hstay h hplain]
    exact ⟨k, .nil h, by simp [show nextFrame b = .bad v from hb]⟩
  | frame b f rest hb ih =>
    obtain ⟨pos, hpos, -⟩ := nextFrame_frame hb
    have hlater : ∀ line ∈ controlLines rest, Plain line := by
      intro line hline
      apply hplain
      rw [controlLines_frame hpos hb]
      exact List.mem_cons_of_mem _ hline
    have hread := read_handle hstay h f
    obtain ⟨k', hrest, hdrain⟩ := ih hread.ready hlater
    rw [Scanner.drain_frame hb, drainBuffer_step hstay h hplain]
    refine ⟨k', hread.append hrest, ?_⟩
    simp only [show nextFrame b = .frame f rest from hb]
    exact hdrain

theorem onMessages_append (k : NatsClient) (cs : List Bytes) (c : Bytes) :
    k.onMessages retire (cs ++ [c]) = (k.onMessages retire cs).onMessage retire c := by
  simp [onMessages]

end NatsClient

/-! ### Chunk by chunk -/

/-- The two ends have delivered the same, refused as often, and taken as many frames. -/
structure Aligned (t : Transport) (k : NatsClient) : Prop where
  delivered : k.delivered = t.messages.map NatsClient.view
  reconnects : k.reconnects = t.violations.length
  taken : k.taken = t.taken

/-- Both are still reading, at the same place. -/
structure Together (t : Transport) (k : NatsClient) : Prop extends Aligned t k where
  agent : t.Ready
  browser : k.Ready
  buffer : k.buffer = t.buffer

section Agreement
variable {infoMaxPayload : Text → Option Nat} {listeners : Listeners}
  {retire : NatsClient → Bool} {t : Transport} {k : NatsClient}

theorem isError_of_plain {b : Bytes} (hplain : ∀ line ∈ controlLines b, Plain line) :
    ∀ f ∈ (frames.drain b).1, f.isError = false := by
  induction b using frames.drain_induction with
  | more b hb => simp [Scanner.drain_more hb]
  | bad b v hb => simp [Scanner.drain_bad hb]
  | frame b f rest hb ih =>
    obtain ⟨pos, hpos, -, hframe⟩ := nextFrame_frame hb
    rw [controlLines_frame hpos hb] at hplain
    rw [Scanner.drain_frame hb]
    intro g hg
    rcases List.mem_cons.mp hg with rfl | hlater
    · obtain ⟨-, m, rfl, -⟩ | ⟨-, rfl, -⟩ := hframe
      · rfl
      · exact Bool.eq_false_iff.mpr (hplain _ (List.mem_cons_self ..)).not_err
    · exact ih (fun line hline => hplain line (List.mem_cons_of_mem _ hline)) g hlater

/-- What one chunk does to two ends that are reading together: they go on together, or both
refuse it after the same frames. -/
theorem Together.onMessage (h : Together t k) (hstay : listeners.Stay)
    (hretire : ∀ k, retire k = false) {c : Bytes}
    (hplain : ∀ line ∈ controlLines (t.buffer ++ c), Plain line) :
    Aligned (t.onMessage infoMaxPayload listeners c) (k.onMessage retire c) ∧
      ((t.onMessage infoMaxPayload listeners c).violations = t.violations →
        Together (t.onMessage infoMaxPayload listeners c) (k.onMessage retire c) ∧
          (frames.drain (t.buffer ++ c)).2 =
            .ok (t.onMessage infoMaxPayload listeners c).buffer) := by
  have hlen : k.buffer.length = t.buffer.length := by rw [h.buffer]
  by_cases hfit : t.buffer.length + c.length ≤ maxBufferedBytes
  · have hbrowser : k.onMessage retire c =
        { (k.drainBuffer retire (t.buffer ++ c)).1 with
          buffer := (k.drainBuffer retire (t.buffer ++ c)).2 } := by
      simp [NatsClient.onMessage, h.browser.current, h.buffer, Nat.not_lt.mpr hfit]
    have herr := isError_of_plain hplain
    obtain ⟨k', hk', hdrain⟩ := NatsClient.drainBuffer_read hretire h.browser hplain
    rw [hbrowser, hdrain]
    cases hrest : (frames.drain (t.buffer ++ c)).2 with
    | ok rest =>
      obtain ⟨hread, hbuffer⟩ : t.Read _ (t.onMessage infoMaxPayload listeners c) ∧ _ :=
        Transport.onMessage_read hstay h.agent hfit (Prod.ext rfl hrest) herr
      have haligned : Aligned (t.onMessage infoMaxPayload listeners c) { k' with buffer := rest } :=
        ⟨by rw [hread.messages, List.map_append, ← h.delivered]; exact hk'.delivered,
          by rw [hread.violations]; exact hk'.reconnects.trans h.reconnects,
          by rw [hread.taken, ← h.taken]; exact hk'.taken⟩
      refine ⟨haligned, fun _ => ⟨⟨haligned, hread.ready, ?_, hbuffer.symm⟩, by rw [hbuffer]⟩⟩
      exact ⟨hk'.ready.current, hk'.ready.connectOnWire⟩
    | error v =>
      obtain ⟨hviolations, hmessages, htaken⟩ :
          (t.onMessage infoMaxPayload listeners c).violations = _ ∧ _ :=
        Transport.onMessage_refused hstay h.agent hfit (Prod.ext rfl hrest) herr
      refine ⟨⟨?_, ?_, ?_⟩, fun hsame => ?_⟩
      · rw [hmessages, List.map_append, ← h.delivered]
        exact hk'.delivered
      · rw [hviolations, List.length_append, ← h.reconnects, ← hk'.reconnects]
        rfl
      · rw [htaken, ← h.taken]
        exact hk'.taken
      · rw [hviolations] at hsame
        simp at hsame
  · -- the chunk is too long for both, and neither looks at it
    have hlong : maxBufferedBytes < t.buffer.length + c.length := Nat.lt_of_not_le hfit
    have hagent : t.onMessage infoMaxPayload listeners c =
        t.protocolViolation listeners .bufferExceeds := by
      simp [Transport.onMessage, h.agent.current, hlong]
    have hbrowser : k.onMessage retire c = k.forceReconnect := by
      simp [NatsClient.onMessage, h.browser.current, hlen, hlong]
    obtain ⟨hmessages, htaken⟩ := Transport.protocolViolation_reading hstay t .bufferExceeds
    have hviolations : (t.protocolViolation listeners .bufferExceeds).violations = _ :=
      t.protocolViolation_violations .bufferExceeds
    rw [hagent, hbrowser]
    refine ⟨⟨?_, ?_, ?_⟩, fun hsame => ?_⟩
    · rw [hmessages]
      exact h.delivered
    · rw [hviolations, List.length_append, ← h.reconnects]
      rfl
    · rw [htaken]
      exact h.taken
    · rw [hviolations] at hsame
      simp at hsame

/-- As long as nothing was refused, both ends have read what the chunks so far hold. -/
theorem Together.onMessages (h : Together t k) (hbuf : t.buffer = []) (hstay : listeners.Stay)
    (hretire : ∀ k, retire k = false) {cs : List Bytes}
    (hplain : ∀ line ∈ controlLines cs.flatten, Plain line)
    (hsevered : ∀ cs' c, cs' ++ [c] <+: cs →
      (t.onMessages infoMaxPayload listeners cs').violations = t.violations) :
    Aligned (t.onMessages infoMaxPayload listeners cs) (k.onMessages retire cs) ∧
      ((t.onMessages infoMaxPayload listeners cs).violations = t.violations →
        Together (t.onMessages infoMaxPayload listeners cs) (k.onMessages retire cs) ∧
          (frames.drain cs.flatten).2 =
            .ok (t.onMessages infoMaxPayload listeners cs).buffer) := by
  induction cs using List.reverseRecOn with
  | nil =>
    have hnil : frames.drain [] = ([], .ok []) := Scanner.drain_more rfl
    refine ⟨h.toAligned, fun _ => ⟨h, ?_⟩⟩
    simp [hnil, Transport.onMessages, hbuf]
  | append_singleton cs c ih =>
    have hinit : cs <+: cs ++ [c] := List.prefix_append cs [c]
    have hlines : controlLines cs.flatten <+: controlLines (cs ++ [c]).flatten := by
      rw [List.flatten_append]
      exact controlLines_append _ _
    have hsame := hsevered cs c List.prefix_rfl
    obtain ⟨-, hbefore⟩ := ih (fun line hline => hplain line (hlines.subset hline))
      fun cs' c' hc' => hsevered cs' c' (hc'.trans hinit)
    obtain ⟨htogether, hdrain⟩ := hbefore hsame
    have hrest : ∀ line ∈ controlLines ((t.onMessages infoMaxPayload listeners cs).buffer ++ c),
        Plain line := by
      intro line hline
      apply hplain
      rw [List.flatten_append, List.flatten_singleton]
      exact controlLines_drain (Prod.ext rfl hdrain) c line hline
    rw [t.onMessages_append, k.onMessages_append, drain_flatten_snoc hdrain c, ← hsame]
    exact htogether.onMessage hstay hretire hrest

/-- **The two readers agree.** Whatever is sent, in whatever chunks, with ASCII control lines
and no error among them: as long as no chunk is handed to the agent after one that it has
refused, both ends have delivered the same messages after every chunk, and the browser forces
a reconnect with the chunk and at the frame that the agent refuses. -/
theorem readers_aligned (infoMaxPayload : Text → Option Nat) {listeners : Listeners}
    (hstay : listeners.Stay) {retire : NatsClient → Bool} (hretire : ∀ k, retire k = false)
    {t : Transport} {k : NatsClient} (h : Together t k) (hbuf : t.buffer = [])
    {chunks : List Bytes} (hplain : ∀ line ∈ controlLines chunks.flatten, Plain line)
    (hsevered : ∀ cs c, cs ++ [c] <+: chunks →
      (t.onMessages infoMaxPayload listeners cs).violations = t.violations)
    {cs : List Bytes} (hcs : cs <+: chunks) :
    Aligned (t.onMessages infoMaxPayload listeners cs) (k.onMessages retire cs) := by
  have hlines : controlLines cs.flatten <+: controlLines chunks.flatten := by
    obtain ⟨more, rfl⟩ := hcs
    rw [List.flatten_append]
    exact controlLines_append _ _
  exact (h.onMessages hbuf hstay hretire (fun line hline => hplain line (hlines.subset hline))
    fun cs' c hc => hsevered cs' c (hc.trans hcs)).1

end Agreement

/-! ### After a refusal -/

/-- A browser after its handshake. -/
def connectedClient : NatsClient where
  current := true
  buffer := []
  credentials := false
  connectSent := false
  connectOnWire := true
  connected := true
  pongPending := false
  terminal := false
  subscriptions := []
  sent := [.connect, .ping]
  delivered := []
  reconnects := 0
  taken := 0

def stays : NatsClient → Bool := fun _ => false

theorem together_start : Together established connectedClient :=
  ⟨⟨rfl, rfl, rfl⟩, established_ready, ⟨rfl, rfl⟩, rfl⟩

/-- `MSG a 1 1` in two chunks, the second of which has a malformed header after it. -/
def msgThenRefused : List Bytes :=
  [[77, 83, 71, 32, 97, 32, 49, 32, 49, 13, 10, 90, 13], [10, 77, 83, 71, 32, 120, 13, 10]]

theorem readers_aligned_msg_refused :
    Aligned (established.onMessages (fun _ => none) quiet msgThenRefused)
      (connectedClient.onMessages stays msgThenRefused) := by
  have hlines : controlLines msgThenRefused.flatten =
      [[77, 83, 71, 32, 97, 32, 49, 32, 49], [77, 83, 71, 32, 120]] := by decide +kernel
  have hplain : ∀ line ∈ controlLines msgThenRefused.flatten, Plain line := by
    intro line hline
    rw [hlines] at hline
    simp only [List.mem_cons, List.not_mem_nil, or_false] at hline
    obtain rfl | rfl := hline
    · exact ⟨by decide +kernel, by decide +kernel⟩
    · exact ⟨by decide +kernel, by decide +kernel⟩
  have hsevered : ∀ cs c, cs ++ [c] <+: msgThenRefused →
      (established.onMessages (fun _ => none) quiet cs).violations = established.violations := by
    intro cs c hcs
    have hlen : cs.length ≤ 1 := by simpa [msgThenRefused] using hcs.length_le
    obtain hnil | ⟨c', rfl⟩ : cs = [] ∨ ∃ c', cs = [c'] := by
      rw [← List.length_eq_zero_iff, ← List.length_eq_one_iff]
      omega
    · rw [hnil]
      rfl
    · obtain ⟨more, hmore⟩ := hcs
      obtain rfl : c' = msgThenRefused[0] := (List.cons.inj hmore).1
      decide +kernel
  exact readers_aligned _ quiet_stay (fun _ => rfl) together_start rfl hplain hsevered
    List.prefix_rfl

/-- A MSG header without a length, and then a message: `MSG x` and `MSG a 1 1`. -/
def refusedThenMsg : List Bytes :=
  [[77, 83, 71, 32, 120, 13, 10], [77, 83, 71, 32, 97, 32, 49, 32, 49, 13, 10, 90, 13, 10]]

/-- The agent delivers a message that came after the header it refused. -/
theorem agent_reads_on_after_refusal :
    (∀ line ∈ controlLines refusedThenMsg.flatten, Plain line) ∧
      ¬Aligned (established.onMessages (fun _ => none) quiet refusedThenMsg)
        (connectedClient.onMessages stays refusedThenMsg) := by
  have hlines : controlLines refusedThenMsg.flatten = [[77, 83, 71, 32, 120]] := by
    decide +kernel
  have hagent : (established.onMessages (fun _ => none) quiet refusedThenMsg).messages.length = 1 := by
    decide +kernel
  have hbrowser : (connectedClient.onMessages stays refusedThenMsg).delivered = [] := by
    decide +kernel
  constructor
  · intro line hline
    obtain rfl : line = [77, 83, 71, 32, 120] := by simpa [hlines] using hline
    exact ⟨by decide +kernel, by decide +kernel⟩
  · intro haligned
    have hlen := congrArg List.length haligned.delivered
    rw [hbrowser, List.length_map, hagent] at hlen
    simp at hlen

end Webchannel.Nats
