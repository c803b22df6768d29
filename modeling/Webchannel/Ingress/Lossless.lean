import Webchannel.Ingress.Chunks

/-!
# A chunk writer loses nothing

A writer whose measure is a function that grows with the ids: every frame it publishes is well sized, and between the
published frames and the open chunk no id that fits is lost.
-/

namespace Webchannel.Ingress

open Webchannel.Program Webchannel.Runs Webchannel.Retention

/-- The options of a writer with a measure that is a function; what it publishes is a call. -/
def measuredOptions (type : ResultType) (measure : List String → Number) :
    ChunkOptions (Site × IngressResultFrame) (fun _ => Bool) ChunkWriter where
  type := type
  publish site frame := Code.call (site, frame)
  measureWireBytes frame := pure (measure frame.ids)
  onTooSmall := pure ()
  writer w := w
  put w _ := w

abbrev Publications := Trace (Site × IngressResultFrame) fun _ => Bool

abbrev Publication := Event (Site × IngressResultFrame) fun _ => Bool

abbrev Writing (α : Type) := Code (Site × IngressResultFrame) (fun _ => Bool) ChunkWriter α

/-- A candidate that `add` takes. -/
def validCandidate (candidate : Option String) : Option String :=
  candidate.filter fun id => 0 < utf16Length id ∧ utf16Length id ≤ maxIngressResultIdLength

/-- A measure that no longer list of ids makes smaller. -/
def Grows (measure : List String → Number) : Prop :=
  ∀ ids ids' : List String, ids.Sublist ids' → (measure ids).le (measure ids') = true

variable (type : ResultType) (measure : List String → Number) (limits : ChunkLimits)

/-- All candidates in turn; for each the ids of the chunk that was open before it. -/
def addAll : List (Option String) → Writing (List (List String))
  | [] => pure []
  | candidate :: rest => do
    let w ← Code.get
    let _ ← (measuredOptions type measure).add candidate
    let opened ← addAll rest
    pure (w.ids :: opened)

def addAllAndFinish (candidates : List (Option String)) : Writing (List (List String) × Bool) := do
  let opened ← addAll type measure candidates
  let ok ← (measuredOptions type measure).finish
  pure (opened, ok)

/-! ## What is published -/

/-- The published ids, in order. -/
def publishedIds (t : Publications) : List String := t.reverse.flatMap fun e => e.call.2.ids

def fits (ids : List String) : Bool := (measure ids).le (.ofNat limits.effectiveLimit)

/-- A candidate with the chunk that was open before it: its id, if it is to be published. -/
def keptId (added : Option String × List String) : Option String :=
  (validCandidate added.1).filter fun id => fits measure limits [id] && decide (id ∉ added.2)

structure WellSized (frame : IngressResultFrame) : Prop where
  type : frame.type = type
  nonempty : frame.ids ≠ []
  length : frame.ids.length ≤ limits.maxIds
  nodup : frame.ids.Nodup
  bytes : fits measure limits frame.ids = true

def WellSizedAll (t : Publications) : Prop := ∀ e ∈ t, WellSized type measure limits e.call.2

/-- A frame was not published, or the size of one is no size: the writer throws. -/
def Failed (t : Publications) : Prop :=
  (∃ e ∈ t, e.reply = none) ∨ ∃ ids, (measure ids).safeNat = none

/-- The writer behind some candidates. -/
structure Written (added : List (Option String × List String)) (w : ChunkWriter) (t : Publications) : Prop where
  bounds : w.limits = limits
  nodup : w.ids.Nodup
  length : w.ids.length ≤ limits.maxIds
  bytes : w.ids ≠ [] → fits measure limits w.ids = true
  ids : publishedIds t ++ w.ids = added.filterMap (keptId measure limits)
  ok : w.ok = true ↔ (∀ e ∈ t, e.reply = some true) ∧
    ∀ x ∈ added, ∀ id, validCandidate x.1 = some id → fits measure limits [id] = true
  frames : WellSizedAll type measure limits t

variable {type measure limits}

theorem publishedIds_cons (e : Publication) (t : Publications) : publishedIds (e :: t) = publishedIds t ++ e.call.2.ids := by
  unfold publishedIds
  rw [List.reverse_cons, List.flatMap_append]
  simp

section One

variable {added : List (Option String × List String)} {w : ChunkWriter} {t : Publications}
  {candidate : Option String} {opened : List String} {id : String}

/-- The open chunk as a frame. -/
theorem Written.wellSized (h : Written type measure limits added w t) (hids : w.ids ≠ []) :
    WellSized type measure limits ⟨type, w.ids⟩ :=
  ⟨rfl, hids, h.length, h.nodup, h.bytes hids⟩

/-- The open chunk has been published. -/
theorem Written.published (h : Written type measure limits added w t) (hids : w.ids ≠ []) (site : Site) (sent : Bool) :
    Written type measure limits added { w with ids := [], ok := sent && w.ok } (⟨(site, ⟨type, w.ids⟩), some sent⟩ :: t) where
  bounds := h.bounds
  nodup := List.nodup_nil
  length := Nat.zero_le _
  bytes := fun hne => absurd rfl hne
  ids := by
    rw [publishedIds_cons, List.append_nil]
    exact h.ids
  ok := by
    rw [Bool.and_eq_true, h.ok, List.forall_mem_cons, and_assoc]
    exact and_congr_left fun _ => ⟨fun hsent => hsent ▸ rfl, fun hsent => Option.some.inj hsent⟩
  frames := List.forall_mem_cons.mpr ⟨h.wellSized hids, h.frames⟩

/-- A candidate that leaves the writer as it is. -/
theorem Written.passed (h : Written type measure limits added w t) (hkept : keptId measure limits (candidate, opened) = none)
    (hfits : ∀ id, validCandidate candidate = some id → fits measure limits [id] = true) :
    Written type measure limits (added ++ [(candidate, opened)]) w t where
  bounds := h.bounds
  nodup := h.nodup
  length := h.length
  bytes := h.bytes
  ids := by
    rw [List.filterMap_append, List.filterMap_cons_none hkept]
    exact h.ids.trans (List.append_nil _).symm
  ok := by
    rw [h.ok, List.forall_mem_append, List.forall_mem_singleton]
    exact and_congr_right fun _ => ⟨fun hall => ⟨hall, hfits⟩, fun hall => hall.1⟩
  frames := h.frames

/-- A candidate that fits no frame. -/
theorem Written.tooSmall (h : Written type measure limits added w t) (hid : validCandidate candidate = some id)
    (hfits : fits measure limits [id] = false) :
    Written type measure limits (added ++ [(candidate, opened)]) { w with ok := false } t where
  bounds := h.bounds
  nodup := h.nodup
  length := h.length
  bytes := h.bytes
  ids := by
    have hkept : keptId measure limits (candidate, opened) = none := by
      unfold keptId
      rw [hid, Option.filter_some, hfits]
      rfl
    rw [List.filterMap_append, List.filterMap_cons_none hkept]
    exact h.ids.trans (List.append_nil _).symm
  ok := by
    refine ⟨fun hfalse => (Bool.false_ne_true hfalse).elim, fun hall => ?_⟩
    have hyes := hall.2 _ (List.mem_append_right added (List.mem_singleton_self (candidate, opened))) id hid
    rw [hfits] at hyes
    exact hyes
  frames := h.frames

/-- A candidate that the open chunk takes. -/
theorem Written.placed (h : Written type measure limits added w t) (hid : validCandidate candidate = some id)
    (hsingle : fits measure limits [id] = true) (hall : fits measure limits (w.ids ++ [id]) = true)
    (hlength : w.ids.length < limits.maxIds) (hnew : id ∉ w.ids) (hopened : id ∉ opened) :
    Written type measure limits (added ++ [(candidate, opened)]) { w with ids := w.ids ++ [id] } t where
  bounds := h.bounds
  nodup := by
    refine List.nodup_append.mpr ⟨h.nodup, List.pairwise_singleton _ id, fun a ha b hb hab => ?_⟩
    obtain rfl := List.mem_singleton.mp hb
    exact hnew (hab ▸ ha)
  length := by
    rw [List.length_append]
    exact hlength
  bytes := fun _ => hall
  ids := by
    have hkept : keptId measure limits (candidate, opened) = some id := by
      unfold keptId
      rw [hid, Option.filter_some, hsingle, decide_eq_true hopened]
      rfl
    rw [List.filterMap_append, List.filterMap_cons_some hkept, ← List.append_assoc, h.ids]
    rfl
  ok := by
    rw [h.ok, List.forall_mem_append, List.forall_mem_singleton]
    refine and_congr_right fun _ => ⟨fun hadded => ⟨hadded, fun id' hid' => ?_⟩, fun hadded => hadded.1⟩
    obtain rfl := Option.some.inj (hid.symm.trans hid')
    exact hsingle
  frames := h.frames

end One

/-! ## The code -/

/-- Code that returns ends in `Q`. -/
def OrFailed {α : Type} (measure : List String → Number) (Q : ChunkWriter → Publications → Prop) :
    Option α → ChunkWriter → Publications → Prop
  | some _, w, t => Q w t
  | none, _, t => Failed measure t

abbrev WriterSpec {α : Type} (type : ResultType) (measure : List String → Number) (limits : ChunkLimits)
    (I : ChunkWriter → Publications → Prop) (m : Writing α) (Q : Option α → ChunkWriter → Publications → Prop) : Prop :=
  Spec (fun _ _ => True) (WellSizedAll type measure limits) I m Q

section Code

variable {added : List (Option String × List String)} {candidate : Option String} {opened : List String} {id : String}

variable (added) in
theorem flush_written (site : Site) :
    WriterSpec type measure limits (Written type measure limits added) ((measuredOptions type measure).flush site)
      (OrFailed measure fun w t => w.ids = [] ∧ Written type measure limits added w t) := by
  refine Spec.get fun w => Spec.ite (fun hnil => Spec.pure ?_) fun hids => ?_
  · rintro _ _ ⟨rfl, h⟩
    exact ⟨hnil, h⟩
  refine Spec.bind (Q := fun r w' t => r.elim (Failed measure t) fun sent =>
    w' = w ∧ Written type measure limits added { w with ids := [], ok := sent && w.ok } t) (Spec.call ?_) (fun sent => ?_) fun _ _ h => h
  · rintro _ t r ⟨rfl, h⟩ -
    refine ⟨List.forall_mem_cons.mpr ⟨h.wellSized hids, h.frames⟩, ?_⟩
    cases r with
    | none => exact .inl ⟨_, .head _, rfl⟩
    | some sent => exact ⟨rfl, h.published hids site sent⟩
  · refine Spec.bind (Q := OrFailed measure fun w t => w.ids = [] ∧ Written type measure limits added w t)
      (Spec.modify ?_) (fun _ => Spec.pure fun _ _ h => h) fun _ _ h => h
    rintro _ t ⟨rfl, h⟩
    exact ⟨rfl, h⟩

theorem fits_eq_not_lt (hgrows : Grows measure) (ids : List String) :
    fits measure limits ids = !(Number.ofNat limits.effectiveLimit).lt (measure ids) := by
  cases h : (Number.ofNat limits.effectiveLimit).lt (measure ids) with
  | true =>
    refine Bool.eq_false_iff.mpr fun hfits => ?_
    rw [Number.not_lt_of_le hfits] at h
    cases h
  | false =>
    refine Number.le_of_not_lt ?_ (Number.ne_nan_of_le (hgrows ids ids (List.Sublist.refl ids))) h
    intro hnan
    cases hnan

/-- A candidate that fits with others fits alone. -/
theorem fits_of_append (hgrows : Grows measure) {ids : List String} (h : fits measure limits (ids ++ [id]) = true) :
    fits measure limits [id] = true :=
  Number.le_trans (hgrows [id] (ids ++ [id]) (List.sublist_append_right ids [id])) h

variable (type added) in
/-- The candidate goes to a chunk that has room for it, or to an empty one. -/
theorem place_written (hgrows : Grows measure) (hid : validCandidate candidate = some id) (hopened : id ∉ opened)
    (w₀ : ChunkWriter) (hlength : w₀.ids.length < limits.maxIds) (hnew : id ∉ w₀.ids)
    (hroom : fits measure limits (w₀.ids ++ [id]) = true ∨ w₀.ids = []) :
    WriterSpec type measure limits (fun w t => w = w₀ ∧ Written type measure limits added w t)
      ((measuredOptions type measure).place (w₀.ids ++ [id]) (measure (w₀.ids ++ [id])))
      (OrFailed measure fun w t => Written type measure limits (added ++ [(candidate, opened)]) w t) := by
  have hsome (I : ChunkWriter → Publications → Prop) (f : ChunkWriter → ChunkWriter) (b : Bool)
      (h : ∀ w t, I w t → Written type measure limits (added ++ [(candidate, opened)]) (f w) t) :
      WriterSpec type measure limits I (((measuredOptions type measure).update f).bind fun _ => pure b)
        (OrFailed measure fun w t => Written type measure limits (added ++ [(candidate, opened)]) w t) :=
    Spec.bind (Q := OrFailed measure fun w t => Written type measure limits (added ++ [(candidate, opened)]) w t)
      (Spec.modify h) (fun _ => Spec.pure fun _ _ h => h) fun _ _ h => h
  refine Spec.get fun w => Spec.ite (fun hbig => ?_) fun hsmall => ?_
  · refine Spec.bind (Q := fun r w' t => r = some () ∧ w' = w ∧ w' = w₀ ∧ Written type measure limits added w' t)
      (Spec.pure fun _ _ h => ⟨rfl, h⟩) (fun _ => hsome _ _ _ ?_) fun _ _ h => nomatch h.1
    rintro w' t ⟨-, rfl, rfl, h⟩
    have hlarge : fits measure limits (w'.ids ++ [id]) = false := by
      rw [fits_eq_not_lt hgrows, ← h.bounds]
      exact congrArg (!·) hbig
    have hnil : w'.ids = [] := hroom.resolve_left fun hfits => Bool.false_ne_true (hlarge.symm.trans hfits)
    rw [hnil] at hlarge
    exact h.tooSmall hid hlarge
  · refine hsome _ _ _ ?_
    rintro w' t ⟨rfl, rfl, h⟩
    have hfits : fits measure limits (w'.ids ++ [id]) = true := by
      rw [fits_eq_not_lt hgrows, ← h.bounds]
      exact congrArg (!·) (Bool.eq_false_iff.mpr hsmall)
    exact h.placed hid (fits_of_append hgrows hfits) hfits hlength hnew hopened

theorem append_written (hgrows : Grows measure) (hid : validCandidate candidate = some id) (hopened : id ∉ opened)
    (hone : 1 ≤ limits.maxIds) :
    WriterSpec type measure limits
      (fun w t => (w.ids.length < limits.maxIds ∧ id ∉ w.ids) ∧ Written type measure limits added w t)
      ((measuredOptions type measure).append id)
      (OrFailed measure fun w t => Written type measure limits (added ++ [(candidate, opened)]) w t) := by
  refine Spec.get fun w => ?_
  refine Spec.bind (Q := fun r w' t => r = some (measure (w.ids ++ [id])) ∧ w' = w ∧
    (w'.ids.length < limits.maxIds ∧ id ∉ w'.ids) ∧ Written type measure limits added w' t)
    (Spec.pure fun _ _ h => ⟨rfl, h⟩) (fun bytes => ?_) fun _ _ h => nomatch h.1
  refine Spec.of_fact fun hbytes => ?_
  obtain rfl := Option.some.inj hbytes
  refine Spec.ite (fun hunsafe => Spec.throw fun _ _ _ => .inr ⟨_, hunsafe⟩) fun _ => Spec.ite (fun hbig => ?_) fun hsmall => ?_
  · -- The chunk goes first; its place is taken by an empty one.
    refine Spec.bind ((flush_written added .add).pre fun _ _ h => h.2.2) (fun _ => ?_) fun _ _ h => h
    rintro w' t ⟨hnil, h⟩
    refine Spec.bind (Q := fun r w'' t => r = some (measure [id]) ∧ w'' = w' ∧ Written type measure limits added w'' t)
      (K := OrFailed measure fun w t => Written type measure limits (added ++ [(candidate, opened)]) w t)
      (Spec.pure fun _ _ h => ⟨rfl, h⟩) (fun bytes => ?_) (fun _ _ h => nomatch h.1) w' t ⟨rfl, h⟩
    refine Spec.of_fact fun hbytes => ?_
    obtain rfl := Option.some.inj hbytes
    have hplace := place_written type added hgrows hid hopened w'
      (by rw [hnil]; exact hone) (by rw [hnil]; exact List.not_mem_nil) (.inr hnil)
    rw [hnil] at hplace
    exact hplace
  · rintro w' t ⟨rfl, ⟨hlength, hnew⟩, h⟩
    refine place_written type added hgrows hid hopened _ hlength hnew ?_ w' t ⟨rfl, h⟩
    rw [fits_eq_not_lt hgrows, ← h.bounds]
    refine or_iff_not_imp_right.mpr fun hne => congrArg (!·) (Bool.eq_false_iff.mpr fun hlt => hsmall ⟨hlt, hne⟩)

variable (added opened) in
theorem add_written (hgrows : Grows measure) (hone : 1 ≤ limits.maxIds) (candidate : Option String) :
    WriterSpec type measure limits (fun w t => w.ids = opened ∧ Written type measure limits added w t)
      ((measuredOptions type measure).add candidate)
      (OrFailed measure fun w t => Written type measure limits (added ++ [(candidate, opened)]) w t) := by
  unfold ChunkOptions.add
  cases hid : validCandidate candidate with
  | none =>
    rw [show candidate.filter _ = none from hid]
    refine Spec.pure fun w t h => h.2.passed ?_ fun id hsome => ?_
    · unfold keptId
      rw [hid]
      rfl
    · rw [hid] at hsome
      cases hsome
  | some id =>
    rw [show candidate.filter _ = some id from hid]
    refine Spec.get fun w => Spec.ite (fun hmem => Spec.pure ?_) fun hnew => Spec.ite (fun hfull => ?_) fun hroom => ?_
    · rintro _ t ⟨rfl, rfl, h⟩
      refine h.passed ?_ fun id' hid' => ?_
      · unfold keptId
        rw [hid, Option.filter_some]
        exact if_neg fun hyes => absurd hmem (of_decide_eq_true (Bool.and_eq_true_iff.mp hyes).2)
      · obtain rfl := Option.some.inj (hid.symm.trans hid')
        have hsub : [id].Sublist _ := List.singleton_sublist.mpr hmem
        exact Number.le_trans (hgrows _ _ hsub) (h.bytes (List.ne_nil_of_mem hmem))
    · intro w' t hI
      obtain ⟨rfl, rfl, h⟩ := hI
      refine Spec.bind (K := OrFailed measure (Written type measure limits (added ++ [(candidate, _)])))
        (flush_written _ .add) (fun _ => ?_) (fun _ _ h => h) w' t h
      refine (append_written hgrows hid hnew hone).pre fun w t h => ⟨⟨?_, ?_⟩, h.2⟩
      · rw [h.1]
        exact hone
      · rw [h.1]
        exact List.not_mem_nil
    · intro w' t hI
      obtain ⟨rfl, rfl, h⟩ := hI
      refine append_written hgrows hid hnew hone w' t ⟨⟨?_, hnew⟩, h⟩
      rw [← h.bounds]
      exact Nat.lt_of_not_le hroom

/-- All candidates, and the chunks that were open before them. -/
theorem addAll_written (hgrows : Grows measure) (hone : 1 ≤ limits.maxIds) (candidates : List (Option String)) :
    WriterSpec type measure limits (Written type measure limits added) (addAll type measure candidates)
      fun r w t => match r with
        | some opened => opened.length = candidates.length ∧ Written type measure limits (added ++ candidates.zip opened) w t
        | none => Failed measure t := by
  induction candidates generalizing added with
  | nil =>
    refine Spec.pure fun w t h => ⟨rfl, ?_⟩
    rw [List.zip_nil_left, List.append_nil]
    exact h
  | cons candidate rest ih =>
    refine Spec.get fun w => ?_
    refine Spec.bind ((add_written added w.ids hgrows hone candidate).pre ?_) (fun _ => ?_)
      fun _ _ h => h
    · rintro _ t ⟨rfl, h⟩
      exact ⟨rfl, h⟩
    · refine Spec.bind ih (fun opened => Spec.pure fun w' t h => ?_) fun _ _ h => h
      refine ⟨congrArg (· + 1) h.1, ?_⟩
      rw [List.zip_cons_cons, List.append_cons]
      exact h.2

theorem finish_written :
    WriterSpec type measure limits (Written type measure limits added) (measuredOptions type measure).finish
      fun r w t => match r with
        | some ok => ok = w.ok ∧ w.ids = [] ∧ Written type measure limits added w t
        | none => Failed measure t := by
  refine Spec.bind (flush_written _ .finish) (fun _ => Spec.get fun w => Spec.pure ?_) fun _ _ h => h
  rintro _ t ⟨rfl, hnil, h⟩
  exact ⟨rfl, hnil, h⟩

variable (type) in
theorem addAllAndFinish_written (hgrows : Grows measure) (hone : 1 ≤ limits.maxIds) (candidates : List (Option String)) :
    WriterSpec type measure limits (Written type measure limits []) (addAllAndFinish type measure candidates)
      fun r w t => match r with
        | some r => r.1.length = candidates.length ∧ r.2 = w.ok ∧ w.ids = [] ∧
            Written type measure limits (candidates.zip r.1) w t
        | none => Failed measure t := by
  refine Spec.bind (addAll_written hgrows hone candidates) (fun opened => Spec.of_fact fun hlength => ?_) fun _ _ h => h
  refine Spec.bind finish_written (fun ok => Spec.pure fun w t h => ?_) fun _ _ h => h
  exact ⟨hlength, h⟩

end Code

theorem written_create : Written type measure limits [] (ChunkWriter.create limits) [] where
  bounds := rfl
  nodup := List.nodup_nil
  length := Nat.zero_le _
  bytes := fun hne => absurd rfl hne
  ids := rfl
  ok := ⟨fun _ => ⟨nofun, nofun⟩, fun _ => rfl⟩
  frames := nofun

theorem chunkLimits_one_le {maxIds maxWireBytes effectiveOutboundLimit : Option Number} {limits : ChunkLimits}
    (h : chunkLimits maxIds maxWireBytes effectiveOutboundLimit = some limits) : 1 ≤ limits.maxIds := by
  unfold chunkLimits at h
  obtain ⟨maxIds, -, h⟩ := Option.bind_eq_some_iff.mp h
  obtain ⟨effectiveLimit, -, h⟩ := Option.bind_eq_some_iff.mp h
  split at h
  · cases h
  · rename_i hlt
    obtain rfl := Option.some.inj h
    exact Nat.le_of_not_lt hlt

/-- A writer with a measure that grows: in every run, whatever is published and however it ends, each frame is well
sized; and when all candidates have been added and the writer is finished, the published ids are the valid candidates
that fit a frame alone, in order, but for the ones that were in the open chunk, and the result tells whether every
frame went out and every valid candidate fitted. It throws only when publishing or measuring does. -/
theorem chunks_lossless (type : ResultType) {measure : List String → Number} (hgrows : Grows measure)
    {maxIds maxWireBytes effectiveOutboundLimit : Option Number} {limits : ChunkLimits}
    (hlimits : chunkLimits maxIds maxWireBytes effectiveOutboundLimit = some limits) (candidates : List (Option String))
    {c : Config (Site × IngressResultFrame) (fun _ => Bool) (Option (List (List String) × Bool) × ChunkWriter)}
    (hrun : ReachedBy Config.step (fun _ _ => True)
      (Config.start (addAllAndFinish type measure candidates (ChunkWriter.create limits))) c) :
    WellSizedAll type measure limits c.trace ∧
      (∀ w, c.prog = .done (none, w) → Failed measure c.trace) ∧
      ∀ opened ok w, c.prog = .done (some (opened, ok), w) →
        opened.length = candidates.length ∧
        publishedIds c.trace = (candidates.zip opened).filterMap (keptId measure limits) ∧
        (ok = true ↔ (∀ e ∈ c.trace, e.reply = some true) ∧
          ∀ candidate ∈ candidates, ∀ id, validCandidate candidate = some id → fits measure limits [id] = true) := by
  have hsafe := addAllAndFinish_written type hgrows (chunkLimits_one_le hlimits) candidates
    (ChunkWriter.create limits) [] written_create
  obtain ⟨hframes, hend⟩ := hsafe.reached nofun hrun
  refine ⟨hframes, fun w hdone => ?_, fun opened ok w hdone => ?_⟩
  · rw [hdone] at hend
    exact hend
  · rw [hdone] at hend
    obtain ⟨hlength, hok, hnil, h⟩ := hend
    have hids := h.ids
    rw [hnil, List.append_nil] at hids
    refine ⟨hlength, hids, (hok ▸ h.ok : ok = true ↔ _).trans (and_congr_right fun _ => ⟨fun hall candidate hmem => ?_, fun hall x hx => ?_⟩)⟩
    · rw [← (List.map_fst_zip hlength.ge : (candidates.zip opened).map Prod.fst = candidates)] at hmem
      obtain ⟨x, hx, rfl⟩ := List.mem_map.mp hmem
      exact hall x hx
    · exact hall x.1 (List.of_mem_zip hx).1

/-- The number of ids as measure. -/
def idCount (ids : List String) : Number := .ofNat ids.length

theorem idCount_grows : Grows idCount := fun _ _ hsub => Number.ofNat_le hsub.length_le

theorem chunks_lossless_pairs :
    publishedIds [⟨(.finish, ⟨.ack, ["c"]⟩), some true⟩, ⟨(.add, ⟨.ack, ["a", "b"]⟩), some true⟩] =
      ([some "a", some "b", some "b", some "c"].zip [[], ["a"], ["a", "b"], ["a", "b"]]).filterMap
        (keptId idCount ⟨2, 65536⟩) := by
  have hrun : Prog.RunsTo (addAllAndFinish .ack idCount [some "a", some "b", some "b", some "c"] (.create ⟨2, 65536⟩))
      [⟨(.add, ⟨.ack, ["a", "b"]⟩), some true⟩, ⟨(.finish, ⟨.ack, ["c"]⟩), some true⟩]
      (some ([[], ["a"], ["a", "b"], ["a", "b"]], true), ⟨⟨2, 65536⟩, [], true⟩) :=
    .ask (.ask (.done _))
  have hlimits : chunkLimits (some (.ofNat 2)) none none = some ⟨2, 65536⟩ := by decide
  exact ((chunks_lossless .ack idCount_grows hlimits _ (hrun.reached [])).2.2 _ _ _ rfl).2.1

end Webchannel.Ingress
