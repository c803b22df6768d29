import Webchannel.Nats.Framing
import Mathlib.Tactic.IntervalCases

/-!
# Cutting a stream into chunks

A well-formed stream is a list of frames, each written as a line, CRLF and, for a MSG, its
payload and another CRLF. However it is cut, the transport reads the same frames, with one
exception: a line of the greatest length allowed, cut between its CR and its LF, looks one
byte too long.
-/

namespace Webchannel.Nats

/-- A control line that a server may send: no MSG header, and no error. -/
structure ControlLine where
  line : Bytes
  whole : crlfIndex line = none
  short : line.length ≤ maxControlLine
  not_msg : ¬msgTag.isPrefixOf (decodeUtf8 line)
  not_err : ¬errTag.isPrefixOf (decodeUtf8 line)

def headerLine (subject sid : Bytes) (replyTo : Option Bytes) (count : Bytes) : Bytes :=
  [77, 83, 71] ++ 32 :: (subject ++ 32 :: (sid ++ 32 ::
    (replyTo.elim count fun r => r ++ 32 :: count)))

structure Token (bytes : Bytes) : Prop where
  ne_nil : bytes ≠ []
  no_space : 32 ∉ bytes

/-- A MSG frame. Its length is written in decimal digits, with leading zeros or without. -/
structure MsgFrame where
  subject : Bytes
  sid : Bytes
  replyTo : Option Bytes
  count : Bytes
  payload : Bytes
  subject_token : Token subject
  sid_token : Token sid
  replyTo_token : ∀ r ∈ replyTo, Token r
  count_ne : count ≠ []
  count_digits : ∀ b ∈ count, 48 ≤ b.toNat ∧ b.toNat ≤ 57
  count_value : digitsValue (decodeUtf8 count) = payload.length
  payload_le : payload.length ≤ maxPayload
  whole : crlfIndex (headerLine subject sid replyTo count) = none
  short : (headerLine subject sid replyTo count).length ≤ maxControlLine

inductive WireFrame where
  | control (c : ControlLine)
  | msg (m : MsgFrame)

/-- The line a frame begins with. -/
def WireFrame.line : WireFrame → Bytes
  | .control c => c.line
  | .msg m => headerLine m.subject m.sid m.replyTo m.count

/-- What follows its line. -/
def WireFrame.body : WireFrame → Bytes
  | .control _ => []
  | .msg m => m.payload ++ crlf

def WireFrame.encode (f : WireFrame) : Bytes := f.line ++ crlf ++ f.body

def MsgFrame.message (m : MsgFrame) : NatsMessage :=
  ⟨decodeUtf8 m.subject, m.replyTo.map decodeUtf8, m.payload⟩

def WireFrame.message? : WireFrame → Option NatsMessage
  | .control _ => none
  | .msg m => some m.message

def WireFrame.isPing : WireFrame → Bool
  | .control c => decodeUtf8 c.line = pingLine
  | .msg _ => false

/-- The frame the scanner is to find. -/
def WireFrame.frame : WireFrame → Frame
  | .control c => .line (decodeUtf8 c.line)
  | .msg m => .msg m.message

theorem WireFrame.whole : ∀ f : WireFrame, crlfIndex f.line = none
  | .control c => c.whole
  | .msg m => m.whole

theorem WireFrame.short : ∀ f : WireFrame, f.line.length ≤ maxControlLine
  | .control c => c.short
  | .msg m => m.short

/-! ### Reading a header -/

theorem Token.decode_ne_nil {bs : Bytes} (h : Token bs) : decodeUtf8 bs ≠ [] :=
  fun hnil => h.ne_nil (decodeUtf8_eq_nil_iff.mp hnil)

theorem space_not_mem_decode {bs : Bytes} (h : 32 ∉ bs) : ' ' ∉ decodeUtf8 bs := by
  intro hmem
  obtain ⟨b, hb, heq⟩ := decodeFrom_ascii_mem hmem (by decide) (by decide)
  obtain rfl : b = 32 := UInt8.toNat_inj.mp heq
  exact h hb

/-- Cutting the text at a space is cutting the bytes at one. -/
theorem decode_splitOn_cons {xs : Bytes} (h : 32 ∉ xs) (ys : Bytes) :
    (decodeUtf8 (xs ++ 32 :: ys)).splitOn ' ' = decodeUtf8 xs :: (decodeUtf8 ys).splitOn ' ' := by
  have hcut : decodeUtf8 (xs ++ 32 :: ys) = decodeUtf8 xs ++ ' ' :: decodeUtf8 ys :=
    decodeUtf8_append_ascii (a := 32) (by decide) xs ys
  rw [hcut]
  exact List.splitOn_append_cons_self_of_not_mem (space_not_mem_decode h) _

theorem MsgFrame.space_not_mem_count (m : MsgFrame) : 32 ∉ m.count := by
  intro h
  exact absurd (m.count_digits 32 h).1 (by decide)

theorem MsgFrame.decode_count (m : MsgFrame) :
    decodeUtf8 m.count = m.count.map fun b => Char.ofNat b.toNat :=
  decodeUtf8_ascii fun b hb => by
    have := m.count_digits b hb
    omega

theorem isDigit_ofNat {n : Nat} (h : 48 ≤ n ∧ n ≤ 57) : (Char.ofNat n).isDigit := by
  obtain ⟨hlow, hhigh⟩ := h
  interval_cases n <;> decide

theorem MsgFrame.isByteCount_count (m : MsgFrame) : isByteCount (decodeUtf8 m.count) := by
  have hne : decodeUtf8 m.count ≠ [] := fun h => m.count_ne (decodeUtf8_eq_nil_iff.mp h)
  have hdigits : (decodeUtf8 m.count).all Char.isDigit := by
    rw [m.decode_count, List.all_eq_true]
    intro c hc
    obtain ⟨b, hb, rfl⟩ := List.mem_map.mp hc
    exact isDigit_ofNat (m.count_digits b hb)
  simp [isByteCount, hne, hdigits]

theorem MsgFrame.parts (m : MsgFrame) :
    msgParts ((decodeUtf8 (WireFrame.msg m).line).splitOn ' ') =
      some (decodeUtf8 m.subject, m.replyTo.map decodeUtf8, decodeUtf8 m.count) := by
  have hcount : (decodeUtf8 m.count).splitOn ' ' = [decodeUtf8 m.count] :=
    List.splitOn_eq_singleton (space_not_mem_decode m.space_not_mem_count)
  have htag : decodeUtf8 [77, 83, 71] = ['M', 'S', 'G'] := by decide
  have hcountne : decodeUtf8 m.count ≠ [] := fun h => m.count_ne (decodeUtf8_eq_nil_iff.mp h)
  simp only [WireFrame.line, headerLine]
  rw [decode_splitOn_cons (by decide), decode_splitOn_cons m.subject_token.no_space,
    decode_splitOn_cons m.sid_token.no_space, htag]
  cases hreply : m.replyTo with
  | none =>
    simp [hcount, msgParts, m.subject_token.decode_ne_nil, m.sid_token.decode_ne_nil, hcountne]
  | some r =>
    have hr : Token r := m.replyTo_token r (by simp [hreply])
    rw [Option.elim_some, decode_splitOn_cons hr.no_space, hcount]
    simp [msgParts, m.subject_token.decode_ne_nil, m.sid_token.decode_ne_nil, hcountne,
      hr.decode_ne_nil]

theorem MsgFrame.isPrefixOf_tag (m : MsgFrame) :
    msgTag.isPrefixOf (decodeUtf8 (WireFrame.msg m).line) := by
  have htag : decodeUtf8 [77, 83, 71] = ['M', 'S', 'G'] := by decide
  rw [WireFrame.line, headerLine, decodeUtf8_append_ascii (by decide), htag,
    List.isPrefixOf_iff_prefix]
  exact ⟨_, rfl⟩

/-- Reading the payload of a MSG frame: all of it, with whatever follows, or a part. -/
theorem MsgFrame.readMsg_eq (m : MsgFrame) (b : Bytes) :
    readMsg (decodeUtf8 (WireFrame.msg m).line) b =
      if b.length < m.payload.length + 2 then .incomplete
      else if (b.drop m.payload.length).take 2 ≠ crlf then .violation .missingTrailingCrlf
      else .complete ⟨decodeUtf8 m.subject, m.replyTo.map decodeUtf8, b.take m.payload.length⟩
        (b.drop (m.payload.length + 2)) := by
  have hlimit : ¬(maxSafeInteger < m.payload.length ∨ maxPayload < m.payload.length) := by
    have := m.payload_le
    simp only [maxSafeInteger, maxPayload] at *
    omega
  rw [readMsg, m.parts]
  simp only [m.isByteCount_count, Bool.not_true, Bool.false_eq_true, if_false, m.count_value,
    if_neg hlimit]

/-! ### Reading a frame -/

theorem take_line (f : WireFrame) (c : Bytes) :
    (f.line ++ crlf ++ c).take f.line.length = f.line := by
  rw [List.append_assoc, List.take_left]

theorem drop_line (f : WireFrame) (c : Bytes) :
    (f.line ++ crlf ++ c).drop (f.line.length + 2) = c := by
  have hlen : f.line.length + 2 = (f.line ++ crlf).length := by simp [crlf]
  rw [hlen, List.drop_left]

/-- A frame is read back from its encoding. -/
theorem nextFrame_encode (f : WireFrame) (c : Bytes) :
    nextFrame (f.encode ++ c) = .frame f.frame c := by
  have hbytes : f.encode ++ c = f.line ++ crlf ++ (f.body ++ c) := by simp [WireFrame.encode]
  rw [hbytes, nextFrame, crlfIndex_line f.whole]
  simp only [if_neg (Nat.not_lt.mpr f.short), take_line, drop_line]
  cases f with
  | control k =>
    simp only [WireFrame.line, WireFrame.body, WireFrame.frame, List.nil_append]
    exact if_neg k.not_msg
  | msg m =>
    have hlong : ¬(m.payload ++ crlf ++ c).length < m.payload.length + 2 := by
      simp [crlf]
    have hend : ((m.payload ++ crlf ++ c).drop m.payload.length).take 2 = crlf := by
      rw [List.append_assoc, List.drop_left]
      rfl
    have hpayload : (m.payload ++ crlf ++ c).take m.payload.length = m.payload := by
      rw [List.append_assoc, List.take_left]
    have hrest : (m.payload ++ crlf ++ c).drop (m.payload.length + 2) = c := by
      have hlen : m.payload.length + 2 = (m.payload ++ crlf).length := by simp [crlf]
      rw [hlen, List.drop_left]
    rw [if_pos m.isPrefixOf_tag, m.readMsg_eq]
    simp only [WireFrame.body, hlong, hend, hpayload, hrest, if_false, ne_eq, not_true_eq_false]
    rfl

/-- A part of a frame is not taken for one. It is refused in one case only. -/
theorem nextFrame_part {f : WireFrame} {p : Bytes} (hp : p <+: f.encode) (hne : p ≠ f.encode) :
    nextFrame p = if p = f.line ++ [13] ∧ f.line.length = maxControlLine
      then .bad .controlLineExceeds else .more := by
  rcases Nat.lt_or_ge p.length (f.line.length + 2) with hshort | hlong
  · -- the line is not over yet
    have hcr : p <+: f.line ++ [13] := by
      have hcr' : f.line ++ [13] <+: f.encode := ⟨10 :: f.body, by simp [WireFrame.encode, crlf]⟩
      refine List.prefix_of_prefix_length_le hp hcr' ?_
      simp only [List.length_append, List.length_singleton]
      omega
    rw [nextFrame, crlfIndex_begins hcr (crlfIndex_line_cr f.whole)]
    have hle := f.short
    by_cases hall : p = f.line ++ [13]
    · have hlen : p.length = f.line.length + 1 := by simp [hall]
      have hiff : maxControlLine < p.length ↔ f.line.length = maxControlLine := by omega
      by_cases hmax : f.line.length = maxControlLine
      · simp [hall, hmax]
      · simp only [hiff, hmax, and_false, if_false]
    · have hlen : p.length < f.line.length + 1 := by
        refine Nat.lt_of_le_of_ne (by simpa using hcr.length_le) fun heq => hall ?_
        exact hcr.eq_of_length (by simpa using heq)
      simp only [hall, false_and, if_false]
      rw [if_neg (by omega)]
  · -- the line is over, so the payload is not
    obtain ⟨q, rfl⟩ : f.line ++ crlf <+: p := by
      refine List.prefix_of_prefix_length_le ⟨f.body, rfl⟩ hp ?_
      simpa [crlf] using hlong
    have hq : q <+: f.body := by
      rw [WireFrame.encode, List.prefix_append_right_inj] at hp
      exact hp
    have hqne : q ≠ f.body := by
      rintro rfl
      exact hne rfl
    have hnot : ¬(f.line ++ crlf ++ q = f.line ++ [13] ∧ f.line.length = maxControlLine) := by
      rintro ⟨heq, -⟩
      have := congrArg List.length heq
      simp only [List.length_append, crlf, List.length_cons, List.length_nil] at this
      omega
    rw [if_neg hnot, nextFrame, crlfIndex_line f.whole]
    simp only [if_neg (Nat.not_lt.mpr f.short), take_line, drop_line]
    cases f with
    | control k => exact absurd (List.prefix_nil.mp hq) hqne
    | msg m =>
      have hlt : q.length < m.payload.length + 2 := by
        have hle : q.length ≤ (m.payload ++ crlf).length := hq.length_le
        have hlen : (m.payload ++ crlf).length = m.payload.length + 2 := by simp [crlf]
        refine hlen ▸ Nat.lt_of_le_of_ne hle fun heq => hqne (hq.eq_of_length heq)
      rw [if_pos m.isPrefixOf_tag, m.readMsg_eq, if_pos hlt]

/-! ### Feeding chunks -/

section Run
variable {infoMaxPayload : Text → Option Nat} {listeners : Listeners} {t : Transport}

theorem Transport.onMessage_eq (h : t.Ready) {c : Bytes}
    (hfit : t.buffer.length + c.length ≤ maxBufferedBytes) :
    t.onMessage infoMaxPayload listeners c =
      { (drainBuffer infoMaxPayload listeners t (t.buffer ++ c)).1 with
        buffer := (drainBuffer infoMaxPayload listeners t (t.buffer ++ c)).2 } := by
  simp [Transport.onMessage, h.current, Nat.not_lt.mpr hfit]

/-- A chunk with which nothing is refused: its frames are read, and the rest is kept. -/
theorem Transport.onMessage_read (hstay : listeners.Stay) (h : t.Ready) {c rest : Bytes}
    {fs : List Frame} (hfit : t.buffer.length + c.length ≤ maxBufferedBytes)
    (hdrain : frames.drain (t.buffer ++ c) = (fs, .ok rest)) (herr : ∀ f ∈ fs, f.isError = false) :
    t.Read fs (t.onMessage infoMaxPayload listeners c) ∧
      (t.onMessage infoMaxPayload listeners c).buffer = rest := by
  obtain ⟨hgo, hread⟩ := Transport.read_handleAll infoMaxPayload hstay h herr
  rw [Transport.onMessage_eq h hfit, drainBuffer_eq, hdrain]
  cases hall : t.handleAll infoMaxPayload listeners fs with
  | mk t' go =>
    rw [hall] at hgo hread
    obtain rfl : go = true := hgo
    exact ⟨hread.sameReading ⟨rfl, rfl, rfl, rfl, rfl⟩, rfl⟩

/-- A chunk that is refused: its frames are read, and then it is reported. -/
theorem Transport.onMessage_refused (hstay : listeners.Stay) (h : t.Ready) {c : Bytes}
    {fs : List Frame} {v : Violation} (hfit : t.buffer.length + c.length ≤ maxBufferedBytes)
    (hdrain : frames.drain (t.buffer ++ c) = (fs, .error v))
    (herr : ∀ f ∈ fs, f.isError = false) :
    (t.onMessage infoMaxPayload listeners c).violations = t.violations ++ [v] ∧
      (t.onMessage infoMaxPayload listeners c).messages =
        t.messages ++ fs.filterMap Frame.message? ∧
      (t.onMessage infoMaxPayload listeners c).taken = t.taken + fs.length := by
  obtain ⟨hgo, hread⟩ := Transport.read_handleAll infoMaxPayload hstay h herr
  rw [Transport.onMessage_eq h hfit, drainBuffer_eq, hdrain]
  cases hall : t.handleAll infoMaxPayload listeners fs with
  | mk t' go =>
    rw [hall] at hgo hread
    obtain rfl : go = true := hgo
    obtain ⟨hmessages, htaken⟩ := Transport.protocolViolation_reading hstay t' v
    rw [← hread.violations]
    exact ⟨t'.protocolViolation_violations v, hmessages.trans hread.messages,
      htaken.trans hread.taken⟩

/-- No chunk is so long that it and what is still waiting exceed the buffer. -/
def Fits (infoMaxPayload : Text → Option Nat) (listeners : Listeners) (t : Transport)
    (chunks : List Bytes) : Prop :=
  ∀ cs c, cs ++ [c] <+: chunks →
    (t.onMessages infoMaxPayload listeners cs).buffer.length + c.length ≤ maxBufferedBytes

theorem Fits.of_begins {cs chunks : List Bytes} (h : Fits infoMaxPayload listeners t chunks)
    (hcs : cs <+: chunks) : Fits infoMaxPayload listeners t cs :=
  fun cs' c hc => h cs' c (hc.trans hcs)

theorem Transport.onMessages_append (t : Transport) (cs : List Bytes) (c : Bytes) :
    t.onMessages infoMaxPayload listeners (cs ++ [c]) =
      (t.onMessages infoMaxPayload listeners cs).onMessage infoMaxPayload listeners c := by
  simp [Transport.onMessages]

theorem Transport.onMessages_violations (t : Transport) {cs chunks : List Bytes}
    (h : cs <+: chunks) :
    (t.onMessages infoMaxPayload listeners cs).violations <+:
      (t.onMessages infoMaxPayload listeners chunks).violations := by
  obtain ⟨more, rfl⟩ := h
  induction more using List.reverseRecOn with
  | nil => simp
  | append_singleton more c ih =>
    rw [← List.append_assoc, t.onMessages_append]
    exact ih.trans (Transport.onMessage_violations _ _ _)

/-- The joined input of some chunks and one more, when the former were not refused. -/
theorem drain_flatten_snoc {cs : List Bytes} {r : Bytes}
    (hr : (frames.drain cs.flatten).2 = .ok r) (c : Bytes) :
    frames.drain (cs ++ [c]).flatten =
      ((frames.drain cs.flatten).1 ++ (frames.drain (r ++ c)).1, (frames.drain (r ++ c)).2) := by
  have hcs : frames.drain cs.flatten = ((frames.drain cs.flatten).1, .ok r) := Prod.ext rfl hr
  rw [List.flatten_append, List.flatten_singleton, Scanner.drain_append hcs c]

/-- As long as the joined input is not refused, what has been read is what the joined input
holds, whatever the chunks were. -/
theorem Transport.onMessages_read (hstay : listeners.Stay) (h : t.Ready) (hbuf : t.buffer = [])
    {chunks : List Bytes} (hfits : Fits infoMaxPayload listeners t chunks)
    (hok : ∀ cs, cs <+: chunks → ∃ rest, (frames.drain cs.flatten).2 = .ok rest)
    (herr : ∀ f ∈ (frames.drain chunks.flatten).1, f.isError = false) :
    t.Read (frames.drain chunks.flatten).1 (t.onMessages infoMaxPayload listeners chunks) ∧
      (frames.drain chunks.flatten).2 =
        .ok (t.onMessages infoMaxPayload listeners chunks).buffer := by
  induction chunks using List.reverseRecOn with
  | nil =>
    have hnil : frames.drain [] = ([], .ok []) := Scanner.drain_more rfl
    simp only [List.flatten_nil, hnil, Transport.onMessages, List.foldl_nil, hbuf]
    exact ⟨.nil h, trivial⟩
  | append_singleton cs c ih =>
    obtain ⟨r, hr⟩ := hok cs (List.prefix_append _ _)
    have hjoin := drain_flatten_snoc hr c
    obtain ⟨r', hr'⟩ := hok (cs ++ [c]) List.prefix_rfl
    rw [hjoin] at herr hr' ⊢
    obtain ⟨hread, hrest⟩ := ih (hfits.of_begins (List.prefix_append _ _))
      (fun cs' hcs' => hok cs' (hcs'.trans (List.prefix_append _ _)))
      fun f hf => herr f (List.mem_append_left _ hf)
    have hbuffer : (t.onMessages infoMaxPayload listeners cs).buffer = r := by
      rw [hr] at hrest
      exact (Except.ok.inj hrest).symm
    have hdrain : frames.drain ((t.onMessages infoMaxPayload listeners cs).buffer ++ c) =
        ((frames.drain (r ++ c)).1, .ok r') := by
      rw [hbuffer]
      exact Prod.ext rfl hr'
    obtain ⟨hlast, hlast'⟩ := Transport.onMessage_read hstay hread.ready
      (hfits cs c List.prefix_rfl) hdrain fun f hf => herr f (List.mem_append_right _ hf)
    rw [t.onMessages_append, hlast']
    exact ⟨hread.append hlast, hr'⟩

/-- If the joined input is refused at the end of some chunk, that is reported. -/
theorem Transport.onMessages_refused (hstay : listeners.Stay) (h : t.Ready) (hbuf : t.buffer = [])
    {chunks : List Bytes} (hfits : Fits infoMaxPayload listeners t chunks)
    (herr : ∀ cs, cs <+: chunks → ∀ f ∈ (frames.drain cs.flatten).1, f.isError = false)
    (hbad : ∃ cs, cs <+: chunks ∧ ∃ v, (frames.drain cs.flatten).2 = .error v) :
    (t.onMessages infoMaxPayload listeners chunks).violations ≠ t.violations := by
  induction chunks using List.reverseRecOn with
  | nil =>
    obtain ⟨cs, hcs, v, hv⟩ := hbad
    obtain rfl := List.prefix_nil.mp hcs
    have hnil : frames.drain [] = ([], .ok []) := Scanner.drain_more rfl
    simp [hnil] at hv
  | append_singleton cs c ih =>
    have hinit : cs <+: cs ++ [c] := List.prefix_append cs [c]
    by_cases hearly : ∃ cs', cs' <+: cs ∧ ∃ v, (frames.drain cs'.flatten).2 = .error v
    · -- it was reported before this chunk, and nothing takes it back
      have hne := ih (hfits.of_begins hinit) (fun cs' hcs' => herr cs' (hcs'.trans hinit)) hearly
      have hold : t.violations <+: (t.onMessages infoMaxPayload listeners cs).violations :=
        t.onMessages_violations List.nil_prefix
      have hgrow : (t.onMessages infoMaxPayload listeners cs).violations <+: _ :=
        t.onMessages_violations hinit
      intro heq
      rw [heq] at hgrow
      exact hne (hgrow.eq_of_length_le hold.length_le)
    · -- it is this chunk that is refused
      have hok : ∀ cs', cs' <+: cs → ∃ rest, (frames.drain cs'.flatten).2 = .ok rest := by
        intro cs' hcs'
        cases hdrain : (frames.drain cs'.flatten).2 with
        | ok rest => exact ⟨rest, rfl⟩
        | error v => exact absurd ⟨cs', hcs', v, hdrain⟩ hearly
      obtain ⟨hread, hrest⟩ := Transport.onMessages_read hstay h hbuf (hfits.of_begins hinit) hok
        (herr cs hinit)
      obtain ⟨cs', hcs', v, hv⟩ := hbad
      have hlast : cs' = cs ++ [c] := by
        rcases List.prefix_concat_iff.mp hcs' with heq | hbefore
        · exact heq
        · exact absurd ⟨cs', hbefore, v, hv⟩ hearly
      subst hlast
      have herrs := herr (cs ++ [c]) List.prefix_rfl
      rw [drain_flatten_snoc hrest c] at hv herrs
      rw [t.onMessages_append, (Transport.onMessage_refused hstay hread.ready
        (hfits cs c List.prefix_rfl) (Prod.ext rfl hv)
        fun f hf => herrs f (List.mem_append_right _ hf)).1, hread.violations]
      simp

/-! ### Any cut but one -/

/-- Some chunk ends between the CR and the LF after a line of the greatest length. -/
def CutAtLimit (fs : List WireFrame) (chunks : List Bytes) : Prop :=
  ∃ cs, cs <+: chunks ∧ ∃ before f after, fs = before ++ f :: after ∧
    cs.flatten = before.flatMap WireFrame.encode ++ (f.line ++ [13]) ∧
    f.line.length = maxControlLine

theorem drain_encode (fs : List WireFrame) (c : Bytes) :
    frames.drain (fs.flatMap WireFrame.encode ++ c) =
      (fs.map WireFrame.frame ++ (frames.drain c).1, (frames.drain c).2) :=
  Scanner.drain_encoded (fun f _ => nextFrame_encode f) c

/-- What the beginning of a well-formed stream holds, and when it is refused. -/
theorem drain_begins {fs : List WireFrame} {p : Bytes} (hp : p <+: fs.flatMap WireFrame.encode) :
    ∃ done todo, fs = done ++ todo ∧ (frames.drain p).1 = done.map WireFrame.frame ∧
      (∀ v, (frames.drain p).2 = .error v → ∃ f after, todo = f :: after ∧
        p = done.flatMap WireFrame.encode ++ (f.line ++ [13]) ∧
        f.line.length = maxControlLine) := by
  obtain ⟨done, todo, part, rfl, rfl, hpart⟩ := prefix_flatMap hp
  have hmore : part = [] → frames.drain part = ([], .ok []) := by
    rintro rfl
    exact Scanner.drain_more rfl
  refine ⟨done, todo, rfl, ?_, ?_⟩
  · rw [drain_encode]
    rcases hpart with hnil | ⟨f, after, rfl, hpre, hne⟩
    · simp [hmore hnil]
    · have hnext : frames.next part = _ := nextFrame_part hpre hne
      split at hnext
      · simp [Scanner.drain_bad hnext]
      · simp [Scanner.drain_more hnext]
  · intro v hv
    rw [drain_encode] at hv
    rcases hpart with hnil | ⟨f, after, rfl, hpre, hne⟩
    · simp [hmore hnil] at hv
    · have hnext : frames.next part = _ := nextFrame_part hpre hne
      split at hnext
      next hcut => exact ⟨f, after, rfl, by rw [hcut.1], hcut.2⟩
      next => simp [Scanner.drain_more hnext] at hv

theorem isError_frame (f : WireFrame) : f.frame.isError = false := by
  cases f with
  | control c => exact Bool.eq_false_iff.mpr c.not_err
  | msg m => rfl

/-- What is to come of a list of frames: no violation, exactly its messages in order, one
answer to each PING and nothing left over. -/
structure Transport.Received (t : Transport) (fs : List WireFrame) (t' : Transport) : Prop where
  violations : t'.violations = t.violations
  messages : t'.messages = t.messages ++ fs.filterMap WireFrame.message?
  pongs : t'.pongs = t.pongs + fs.countP WireFrame.isPing
  buffer : t'.buffer = []

theorem filterMap_message_frame (fs : List WireFrame) :
    (fs.map WireFrame.frame).filterMap Frame.message? = fs.filterMap WireFrame.message? := by
  rw [List.filterMap_map]
  congr 1
  funext f
  cases f <;> rfl

theorem countP_isPing_frame (fs : List WireFrame) :
    (fs.map WireFrame.frame).countP Frame.isPing = fs.countP WireFrame.isPing := by
  rw [List.countP_map]
  congr 1
  funext f
  cases f <;> rfl

section Stream
variable {fs : List WireFrame} {chunks : List Bytes}
  (hstream : chunks.flatten = fs.flatMap WireFrame.encode)
include hstream

theorem flatten_begins {cs : List Bytes} (hcs : cs <+: chunks) :
    cs.flatten <+: fs.flatMap WireFrame.encode := by
  obtain ⟨more, rfl⟩ := hcs
  rw [← hstream, List.flatten_append]
  exact List.prefix_append _ _

theorem isError_of_drain {cs : List Bytes} (hcs : cs <+: chunks) {f : Frame}
    (hf : f ∈ (frames.drain cs.flatten).1) : f.isError = false := by
  obtain ⟨done, todo, -, hdone, -⟩ := drain_begins (flatten_begins hstream hcs)
  rw [hdone] at hf
  obtain ⟨g, -, rfl⟩ := List.mem_map.mp hf
  exact isError_frame g

/-- The cut line is refused, and that stays in the record. -/
theorem not_received_of_cutAtLimit (hstay : listeners.Stay) (h : t.Ready) (hbuf : t.buffer = [])
    (hfits : Fits infoMaxPayload listeners t chunks) (hcut : CutAtLimit fs chunks) :
    ¬t.Received fs (t.onMessages infoMaxPayload listeners chunks) := by
  intro hreceived
  obtain ⟨cs, hcs, before, f, after, rfl, hbytes, hmax⟩ := hcut
  have hnext : frames.next (f.line ++ [13]) = .bad .controlLineExceeds := by
    have hpart : f.line ++ [13] <+: f.encode := ⟨10 :: f.body, by simp [WireFrame.encode, crlf]⟩
    have hne : f.line ++ [13] ≠ f.encode := by
      simp [WireFrame.encode, crlf]
    exact (nextFrame_part hpart hne).trans (if_pos ⟨rfl, hmax⟩)
  have hbad : (frames.drain cs.flatten).2 = .error .controlLineExceeds := by
    rw [hbytes, drain_encode, Scanner.drain_bad hnext]
  exact Transport.onMessages_refused hstay h hbuf hfits
    (fun cs hcs f hf => isError_of_drain hstream hcs hf) ⟨cs, hcs, _, hbad⟩ hreceived.violations

theorem received_of_not_cutAtLimit (hstay : listeners.Stay) (h : t.Ready) (hbuf : t.buffer = [])
    (hfits : Fits infoMaxPayload listeners t chunks) (hcut : ¬CutAtLimit fs chunks) :
    t.Received fs (t.onMessages infoMaxPayload listeners chunks) := by
  have hok : ∀ cs, cs <+: chunks → ∃ rest, (frames.drain cs.flatten).2 = .ok rest := by
    intro cs hcs
    obtain ⟨done, todo, hfs, -, hrefused⟩ := drain_begins (flatten_begins hstream hcs)
    cases hdrain : (frames.drain cs.flatten).2 with
    | ok rest => exact ⟨rest, rfl⟩
    | error v =>
      obtain ⟨f, after, rfl, hbytes, hmax⟩ := hrefused v hdrain
      exact absurd ⟨cs, hcs, done, f, after, hfs, hbytes, hmax⟩ hcut
  obtain ⟨hread, hrest⟩ := Transport.onMessages_read hstay h hbuf hfits hok
    fun f hf => isError_of_drain hstream List.prefix_rfl hf
  have hall : frames.drain chunks.flatten = (fs.map WireFrame.frame, .ok []) := by
    have hnil : frames.drain [] = ([], .ok []) := Scanner.drain_more rfl
    have hend := drain_encode fs []
    rw [hnil, List.append_nil, List.append_nil] at hend
    rw [hstream, hend]
  rw [hall] at hread hrest
  exact ⟨hread.violations, by rw [hread.messages, filterMap_message_frame],
    by rw [hread.pongs, countP_isPing_frame], (Except.ok.inj hrest).symm⟩

end Stream

/-- **The framing is exact for every cut but one.** On a connection that is ready, the frames
of a well-formed stream are received as they were written, in whatever chunks it arrives, if
and only if no chunk ends inside the CRLF of a line of exactly the greatest length. -/
theorem received_iff_not_cutAtLimit (infoMaxPayload : Text → Option Nat) {listeners : Listeners}
    (hstay : listeners.Stay) {t : Transport} (h : t.Ready) (hbuf : t.buffer = [])
    {fs : List WireFrame} {chunks : List Bytes}
    (hstream : chunks.flatten = fs.flatMap WireFrame.encode)
    (hfits : Fits infoMaxPayload listeners t chunks) :
    t.Received fs (t.onMessages infoMaxPayload listeners chunks) ↔ ¬CutAtLimit fs chunks :=
  ⟨fun hreceived hcut => not_received_of_cutAtLimit hstream hstay h hbuf hfits hcut hreceived,
    received_of_not_cutAtLimit hstream hstay h hbuf hfits⟩

end Run

/-! ### A stream that is short enough always fits -/

section Short
variable {infoMaxPayload : Text → Option Nat} {listeners : Listeners}

theorem Transport.onMessage_buffer_le (t : Transport) {c : Bytes}
    (hfit : t.buffer.length + c.length ≤ maxBufferedBytes) :
    (t.onMessage infoMaxPayload listeners c).buffer.length ≤ t.buffer.length + c.length := by
  unfold Transport.onMessage
  split
  · exact Nat.le_add_right _ _
  · rw [if_neg (Nat.not_lt.mpr hfit), drainBuffer_eq]
    cases t.handleAll infoMaxPayload listeners (frames.drain (t.buffer ++ c)).1 with
    | mk t' go =>
      cases go with
      | false => exact Nat.zero_le _
      | true =>
        cases hrest : (frames.drain (t.buffer ++ c)).2 with
        | ok rest =>
          rw [← List.length_append]
          exact Scanner.length_of_drain (Prod.ext rfl hrest)
        | error v => exact Nat.zero_le _

theorem Transport.onMessages_buffer_le (t : Transport) {chunks : List Bytes}
    (hfit : t.buffer.length + chunks.flatten.length ≤ maxBufferedBytes) :
    (t.onMessages infoMaxPayload listeners chunks).buffer.length ≤
      t.buffer.length + chunks.flatten.length := by
  induction chunks using List.reverseRecOn with
  | nil => simp [Transport.onMessages]
  | append_singleton cs c ih =>
    rw [List.flatten_append, List.flatten_singleton, List.length_append] at hfit ⊢
    have hcs := ih (by omega)
    rw [t.onMessages_append]
    have hc : ((t.onMessages infoMaxPayload listeners cs).onMessage infoMaxPayload listeners
        c).buffer.length ≤ _ := Transport.onMessage_buffer_le _ (by omega)
    omega

theorem fits_of_length {t : Transport} {chunks : List Bytes}
    (hfit : t.buffer.length + chunks.flatten.length ≤ maxBufferedBytes) :
    Fits infoMaxPayload listeners t chunks := by
  intro cs c hcs
  have hsum : (cs ++ [c]).flatten.length ≤ chunks.flatten.length := by
    obtain ⟨more, rfl⟩ := hcs
    simp
  rw [List.flatten_append, List.flatten_singleton, List.length_append] at hsum
  have hbuffer : (t.onMessages infoMaxPayload listeners cs).buffer.length ≤ _ :=
    t.onMessages_buffer_le (by omega)
  omega

end Short

/-! ### A cut inside the CRLF of the longest line -/

theorem crlfIndex_eq_none {b : Bytes} (h : 13 ∉ b) : crlfIndex b = none := by
  induction b with
  | nil => rfl
  | cons a b ih =>
    have ha : ¬(a = 13 ∧ b.head? = some 10) := fun hcr => h (by simp [hcr.1])
    rw [crlfIndex, if_neg ha, ih fun hmem => h (by simp [hmem])]
    rfl

/-- A connection after its handshake. -/
def established : Transport where
  current := true
  isOpen := true
  buffer := []
  signing := false
  connectSent := false
  connectOnWire := true
  established := true
  connected := true
  serverMaxPayload := maxPayload
  sidCounter := 0
  subs := []
  sent := [.connect, .ping]
  flushMarks := []
  flushWaiters := []
  settled := []
  events := [.connect]
  taken := 0

theorem established_ready : established.Ready := ⟨rfl, rfl⟩

def quiet : Listeners := fun _ _ => []

theorem quiet_stay : quiet.Stay := fun _ _ => List.not_mem_nil

def pingFrame : ControlLine where
  line := [80, 73, 78, 71]
  whole := by decide
  short := by decide
  not_msg := by decide
  not_err := by decide

/-- A payload of a CR and an LF. -/
def crlfMsg : MsgFrame where
  subject := [97]
  sid := [49]
  replyTo := none
  count := [50]
  payload := [13, 10]
  subject_token := ⟨by decide, by decide⟩
  sid_token := ⟨by decide, by decide⟩
  replyTo_token := by simp
  count_ne := by decide
  count_digits := List.forall_mem_singleton.mpr (by decide)
  count_value := by decide
  payload_le := by decide
  whole := by decide
  short := by decide

/-- A PING and a MSG, cut inside the CRLF of the one and the payload of the other. -/
def pingMsgChunks : List Bytes :=
  [[80, 73, 78, 71, 13], [10, 77, 83, 71, 32, 97, 32, 49, 32, 50, 13, 10, 13], [10, 13, 10]]

theorem received_iff_not_cutAtLimit_ping_msg :
    established.Received [.control pingFrame, .msg crlfMsg]
      (established.onMessages (fun _ => none) quiet pingMsgChunks) := by
  refine (received_iff_not_cutAtLimit _ quiet_stay established_ready rfl (by decide)
    (fits_of_length (by decide))).mpr ?_
  rintro ⟨cs, -, before, f, after, hfs, -, hmax⟩
  have hmem : f ∈ [WireFrame.control pingFrame, .msg crlfMsg] := by simp [hfs]
  simp only [List.mem_cons, List.not_mem_nil, or_false] at hmem
  obtain rfl | rfl := hmem
  · exact absurd hmax (by decide)
  · exact absurd hmax (by decide)

/-- The longest line of one letter. -/
def longestLine : Bytes := List.replicate maxControlLine 65

theorem decode_longestLine : decodeUtf8 longestLine = List.replicate maxControlLine 'A' := by
  have hascii : ∀ b ∈ longestLine, b.toNat ≤ 0x7F := by
    intro b hb
    rw [List.eq_of_mem_replicate hb]
    decide
  have hletter : Char.ofNat (65 : UInt8).toNat = 'A' := by decide
  rw [decodeUtf8_ascii hascii, longestLine, List.map_replicate, hletter]

theorem not_isPrefixOf_replicate {c : Char} {tag : Text} (hc : c ≠ 'A') (n : Nat) :
    ¬(c :: tag).isPrefixOf (List.replicate n 'A') := by
  cases n with
  | zero => simp
  | succ n => simp [List.replicate_succ, List.isPrefixOf, hc]

def longest : ControlLine where
  line := longestLine
  whole := crlfIndex_eq_none (by simp [longestLine])
  short := by simp [longestLine]
  not_msg := by
    rw [decode_longestLine]
    exact not_isPrefixOf_replicate (by decide) _
  not_err := by
    rw [decode_longestLine]
    exact not_isPrefixOf_replicate (by decide) _

/-- A line of the greatest length, in two chunks of which the first ends with its CR. -/
theorem not_received_of_cut_line (k : ControlLine) (hmax : k.line.length = maxControlLine) :
    [k.line ++ [13], [10]].flatten = [WireFrame.control k].flatMap WireFrame.encode ∧
      Fits (fun _ => none) quiet established [k.line ++ [13], [10]] ∧
      ¬established.Received [.control k]
        (established.onMessages (fun _ => none) quiet [k.line ++ [13], [10]]) := by
  have hstream : [k.line ++ [13], [10]].flatten =
      [WireFrame.control k].flatMap WireFrame.encode := by
    simp [WireFrame.encode, WireFrame.line, WireFrame.body, crlf]
  have hfits : Fits (fun _ => none) quiet established [k.line ++ [13], [10]] := by
    apply fits_of_length
    simp only [hstream, established, List.flatMap_cons, List.flatMap_nil, WireFrame.encode,
      WireFrame.line, WireFrame.body, List.length_append, hmax, crlf, List.length_cons,
      List.length_nil, maxBufferedBytes]
    omega
  have hcut : CutAtLimit [.control k] [k.line ++ [13], [10]] :=
    ⟨[k.line ++ [13]], ⟨[[10]], rfl⟩, [], .control k, [], rfl, by simp [WireFrame.line], hmax⟩
  exact ⟨hstream, hfits,
    not_received_of_cutAtLimit hstream quiet_stay established_ready rfl hfits hcut⟩

/-- 65536 letters and the CR in one chunk, the LF in the next. -/
theorem longest_line_cut_refused :
    [longest.line ++ [13], [10]].flatten = [WireFrame.control longest].flatMap WireFrame.encode ∧
      Fits (fun _ => none) quiet established [longest.line ++ [13], [10]] ∧
      ¬established.Received [.control longest]
        (established.onMessages (fun _ => none) quiet [longest.line ++ [13], [10]]) :=
  not_received_of_cut_line longest List.length_replicate

end Webchannel.Nats
