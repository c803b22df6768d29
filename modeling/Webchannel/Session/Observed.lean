import Webchannel.Session.Inert

/-!
# The browser client: what its listeners and its peer observe

The send-state events of an id, those that were delivered followed by those that still wait, trace
the course of its tracker entry. Ids keep the order of the calls in the ledger and the queue, so a
publication never overtakes a queued message. An acceptance goes back to an acknowledgement.
-/

namespace Webchannel.Session

open Webchannel.Reentrant Contract Webchannel.Runs

/-! ### Reports -/

def SendStateEvent.reports (id : WireId) (e : SendStateEvent) : Option SendState :=
  if e.id = id then some e.state else none

def Out.reports (id : WireId) : Out → Option SendState
  | .sendState e => e.reports id
  | _ => none

/-- What the listeners were told about an id, oldest first. -/
def reported (id : WireId) (t : List Out) : List SendState := t.reverse.filterMap (Out.reports id)

/-- What they are still to be told. -/
def waiting (id : WireId) (events : List SendStateEvent) : List SendState := events.filterMap (SendStateEvent.reports id)

/-- A send is queued first, and no report repeats or takes back an earlier one. -/
structure Course (l : List SendState) : Prop where
  first : ∀ st ∈ l.head?, st = .queued
  rising : l.Pairwise fun st st' => st.rank < st'.rank

/-- What may be reported next. -/
def Follows (last : Option SendState) (st : SendState) : Prop :=
  (last = none → st = .queued) ∧ ∀ st' ∈ last, st'.rank < st.rank

theorem reported_cons (id : WireId) (e : Out) (t : List Out) :
    reported id (e :: t) = reported id t ++ (e.reports id).toList := by
  unfold reported
  rw [List.reverse_cons, List.filterMap_append]
  cases h : e.reports id <;> simp [h]

theorem waiting_raise (id : WireId) (events : List SendStateEvent) (e : SendStateEvent) :
    waiting id (events ++ [e]) = waiting id events ++ (e.reports id).toList := by
  unfold waiting
  rw [List.filterMap_append]
  cases h : e.reports id <;> simp [h]

theorem waiting_cons (id : WireId) (e : SendStateEvent) (rest : List SendStateEvent) :
    waiting id (e :: rest) = (e.reports id).toList ++ waiting id rest := by
  unfold waiting
  cases h : e.reports id <;> simp [h]

namespace Course

variable {l l' : List SendState} {st : SendState}

theorem nil : Course [] := ⟨fun _ h => (by cases h), .nil⟩

theorem left (h : Course (l ++ l')) : Course l := by
  refine ⟨fun st hst => h.first st ?_, (List.pairwise_append.mp h.rising).1⟩
  cases l with
  | nil => cases hst
  | cons a l => exact hst

/-- The ranks rise, so the last one bounds them all. -/
theorem rank_le_last (h : Course l) (hlast : l.getLast? = some st) : ∀ st' ∈ l, st'.rank ≤ st.rank := by
  obtain ⟨init, rfl⟩ := List.getLast?_eq_some_iff.mp hlast
  intro st' hst'
  rcases List.mem_append.mp hst' with hinit | hlast'
  · exact ((List.pairwise_append.mp h.rising).2.2 st' hinit st (List.mem_singleton.mpr rfl)).le
  · rw [List.mem_singleton.mp hlast']

theorem snoc (h : Course l) (hst : Follows l.getLast? st) : Course (l ++ [st]) := by
  refine ⟨?_, List.pairwise_append.mpr ⟨h.rising, List.pairwise_singleton _ _, fun st' hst' st'' hst'' => ?_⟩⟩
  · cases l with
    | nil =>
      intro st' hst'
      exact Option.some.inj hst' ▸ hst.1 rfl
    | cons a l => exact h.first
  · obtain rfl := List.mem_singleton.mp hst''
    cases hlast : l.getLast? with
    | none =>
      rw [List.getLast?_eq_none_iff.mp hlast] at hst'
      cases hst'
    | some last => exact (h.rank_le_last hlast st' hst').trans_lt (hst.2 last hlast)

end Course

/-- Reports and tracker agree. -/
def View.Told (v : View) (t : List Out) : Prop :=
  ∀ id, Course (reported id t ++ waiting id v.events) ∧ (reported id t ++ waiting id v.events).getLast? = v.states id

def reportTerms : Terms where
  inv _ := View.Told
  atAct e _ t := ∀ id, Course (reported id t) → Course (reported id (e :: t))
  okAnswer _ _ _ := True
  okEnter _ _ _ := True

namespace View.Told

variable {d d' : Duty} {v v' : View} {t t' : List Out}

/-- A state is entered in the tracker and reported. -/
theorem update (h : v.Told t) {id : WireId} {st : SendState} {f : Option SendFailure} (hst : Follows (v.states id) st)
    (hevents : v'.events = v.events ++ [⟨id, st, f⟩]) (hstates : v'.states = Function.update v.states id (some st)) :
    v'.Told t := by
  intro id'
  obtain ⟨hcourse, hlast⟩ := h id'
  rw [hevents, hstates, waiting_raise, ← List.append_assoc]
  by_cases hid : id = id'
  · subst hid
    have hreports : (SendStateEvent.mk id st f).reports id = some st := if_pos rfl
    rw [hreports, Function.update_self, Option.toList_some, List.getLast?_concat]
    exact ⟨hcourse.snoc (hlast ▸ hst), rfl⟩
  · have hreports : (SendStateEvent.mk id st f).reports id' = none := if_neg hid
    rw [hreports, Function.update_of_ne (Ne.symm hid), Option.toList_none, List.append_nil]
    exact ⟨hcourse, hlast⟩

theorem enter (h : v.Told t) {id : WireId} (hfree : v.states id = none) : (v.enter id).Told t :=
  h.update (hfree ▸ ⟨fun _ => rfl, fun _ hst => (by cases hst)⟩) rfl rfl

theorem set (h : v.Told t) {id : WireId} {st st' : SendState} {f : Option SendFailure} (hget : v.states id = some st)
    (hrank : st.rank < st'.rank) : ((v.setState id st').raise ⟨id, st', f⟩).Told t := by
  refine h.update (hget ▸ ⟨fun hnone => (by cases hnone), fun st'' hst => ?_⟩) rfl rfl
  rwa [← Option.some.inj hst]

/-- An action that tells the listeners nothing. -/
theorem silent (h : v.Told t) {e : Out} (he : ∀ id, e.reports id = none) : v.Told (e :: t) := by
  intro id
  rw [reported_cons, he, Option.toList_none, List.append_nil]
  exact h id

theorem rank_lt_failed {st : SendState} (h : st ≠ .failed) : st.rank < SendState.failed.rank := by
  cases st <;> simp [SendState.rank] at h ⊢

theorem reports_plain {e : Out} (he : e.isPlain = true) (id : WireId) : e.reports id = none := by
  cases e <;> first | rfl | cases he

theorem deliver (h : v.Told t) {e : SendStateEvent} {rest : List SendStateEvent} (hevents : v.events = e :: rest) :
    View.Told { v with events := rest } (.sendState e :: t) := by
  intro id
  have hid := h id
  rw [hevents, waiting_cons, ← List.append_assoc] at hid
  rw [reported_cons]
  exact hid

theorem change (hc : Change reportTerms.okAnswer d v t d' v' t') (h : v.Told t) : v'.Told t' := by
  cases hc with
  | plain e he => exact h.silent (reports_plain he)
  | deliver e rest hevents => exact h.deliver hevents
  | enterDead id hres hfree hlive => exact h.enter hfree
  | enterLive id hres hfree hlive => exact (h.enter hfree :)
  | advance id f hget => exact h.set hget (by decide)
  | fail id ids st f hd hget hst => exact h.set hget (rank_lt_failed hst)
  | accept id ids taken st f hd ht hget hst =>
    refine h.set hget ?_
    cases st <;> first | decide | cases hst
  | reject id ids taken st f hd ht hget hst => exact h.set hget (rank_lt_failed hst)
  | session | protocol | request | publishSealed | publish | refuseSealed | refuse | failFlow | redial | disconnectFlow =>
    exact h.silent fun _ => rfl
  | _ => exact h

end View.Told

theorem outline_reportTerms : Outline reportTerms where
  change hc _ _ h := View.Told.change hc h
  act hc _ _ h _ id _ := (View.Told.change hc h id).1.left
  sends _ _ _ h := h
  continues _ _ h := h

/-- In every run the listeners are told of each send in order: first that it is queued, then at most
once each that it is sent, accepted or failed, never backwards, and nothing after a failure. Whenever
code other than the client's runs, what they were told and what still waits for them ends in the
state that the tracker has for the id. -/
theorem reports_in_order {options : Options} {c : Config Client Ask Answer Out}
    (hc : Reached (Config.step machine) (Config.start (Client.init options)) c) (id : WireId) :
    Course (reported id c.trace) ∧ (c.running = none →
      Course (reported id c.trace ++ waiting id c.state.pendingSendStateEvents) ∧
      (reported id c.trace ++ waiting id c.state.pendingSendStateEvents).getLast?
        = (c.state.sendTracker.get id).map (·.state)) := by
  have hrun : ReachedBy (Config.step machine) reportTerms.contract.Ok (Config.start (Client.init options)) c :=
    hc.mono fun c mv _ => by cases mv <;> trivial
  have hstart : reportTerms.contract.inv reportTerms.contract.base (Client.init options) [] :=
    holds_init (T := reportTerms) fun _ => ⟨Course.nil, rfl⟩
  refine ⟨?_, fun hcontrol => ?_⟩
  · exact trace_of_reached (honours outline_reportTerms) hstart hrun (P := fun t => ∀ id, Course (reported id t))
      (fun _ => Course.nil) (fun _ _ _ hact h id => hact id (h id)) id
  · obtain ⟨w, hw⟩ := inv_of_control (honours outline_reportTerms) hstart hrun hcontrol
    exact hw.kept id

theorem reports_in_order_sent : ∃ c : Config Client Ask Answer Out,
    Reached (Config.step machine) (Config.start (Client.init ⟨30000, true⟩)) c ∧ reported "m1" c.trace = [.queued, .sent] ∧
      Course (reported "m1" c.trace) := by
  have hrun : (Script.run (.session ⟨1, 1⟩ ++ .send "hi" "m1")).map (fun c =>
      reported "m1" c.trace == [.queued, .sent]) = some true := by decide +kernel
  obtain ⟨c, hc, hp⟩ := Script.exists_reached hrun
  exact ⟨c, hc, beq_iff_eq.mp hp, (reports_in_order hc "m1").1⟩

/-! ### Order -/

/-- The ids in hand are in the order of the calls, and the one that is being sealed is the newest
of the ledger. -/
structure View.Ordered (d : Duty) (v : View) : Prop where
  calls : (v.ledger ++ v.queue).Sublist v.keys
  newest : ∀ id, d.sealing = some id → id ∈ v.ledger → v.ledger.getLast? = some id

/-- A user message that is published is in the ledger, and every queued one was sent after it. -/
def View.InTurn (v : View) : Out → Prop
  | .wire (.pub m _ _) => ∀ id ∈ m.userId, id ∈ v.ledger ∧ (id :: v.queue).Sublist v.keys
  | _ => True

def orderTerms : Terms where
  inv d v _ := v.Ordered d
  atAct e v _ := v.InTurn e
  okAnswer _ _ _ := True
  okEnter _ _ _ := True

theorem getLast?_filter {l : List WireId} {id : WireId} {p : WireId → Bool} (hlast : l.getLast? = some id)
    (hid : p id = true) : (l.filter p).getLast? = some id := by
  obtain ⟨init, rfl⟩ := List.getLast?_eq_some_iff.mp hlast
  rw [List.filter_append, List.filter_singleton, hid]
  exact List.getLast?_concat

/-- The newest of a list without repetitions is taken off its end. -/
theorem filter_ne_last {l : List WireId} {id : WireId} (hl : l.Nodup) (hlast : l.getLast? = some id) :
    l.filter (· ≠ id) ++ [id] = l := by
  obtain ⟨init, rfl⟩ := List.getLast?_eq_some_iff.mp hlast
  have hinit : ∀ x ∈ init, x ≠ id := fun x hx => (List.nodup_append.mp hl).2.2 x hx id (List.mem_singleton.mpr rfl)
  rw [List.filter_append, List.filter_eq_self.mpr fun x hx => decide_eq_true (hinit x hx)]
  simp

namespace View.Ordered

variable {d d' : Duty} {v v' : View} {t t' : List Out}

/-- Ids leave the ledger; the newest of the rest is what it was. -/
theorem detach (h : v.Ordered d) {p : WireId → Bool} (hsealing : d'.sealing = d.sealing) :
    View.Ordered d' { v with ledger := v.ledger.filter p } := by
  refine ⟨(List.filter_sublist.append (List.Sublist.refl _)).trans h.calls, fun id hs hid => ?_⟩
  obtain ⟨hid, hp⟩ := List.mem_filter.mp hid
  exact getLast?_filter (h.newest id (hsealing ▸ hs) hid) hp

/-- Queue and ledger are taken. -/
theorem swept (hqueue : v'.queue = []) (hledger : v'.ledger = []) : v'.Ordered d' := by
  refine ⟨?_, fun id _ hid => ?_⟩
  · rw [hqueue, hledger]
    exact List.nil_sublist _
  · rw [hledger] at hid
    cases hid

theorem change (hc : Change orderTerms.okAnswer d v t d' v' t') (howns : v.Owns d) (h : v.Ordered d) : v'.Ordered d' := by
  cases hc with
  | enterDead id hres hfree hlive => exact ⟨h.calls.trans (List.sublist_append_left _ _), h.newest⟩
  | enterLive id hres hfree hlive =>
    refine ⟨?_, h.newest⟩
    show (v.ledger ++ (v.queue ++ [id])).Sublist (v.keys ++ [id])
    rw [← List.append_assoc]
    exact h.calls.append (List.Sublist.refl _)
  | record id rest hq hlive hclean hs =>
    have hcalls := h.calls
    rw [hq] at hcalls
    refine ⟨?_, fun id' hid' _ => ?_⟩
    · show (v.ledger ++ [id] ++ rest).Sublist v.keys
      rwa [List.append_assoc]
    · rw [← Option.some.inj hid']
      exact List.getLast?_concat
  | evict ids rest hl =>
    have hcalls := h.calls
    have hnewest := h.newest
    rw [hl] at hcalls hnewest
    rw [List.append_assoc] at hcalls
    refine ⟨(List.sublist_append_right _ _).trans hcalls, fun id hs hid => ?_⟩
    have hlast := hnewest id hs (List.mem_append_right _ hid)
    rwa [List.getLast?_append_of_ne_nil _ (List.ne_nil_of_mem hid)] at hlast
  | requeue id hs hid hlive =>
    refine ⟨?_, fun id' hid' => (by cases hid')⟩
    show (v.ledger.filter (· ≠ id) ++ ([id] ++ v.queue)).Sublist v.keys
    rw [← List.append_assoc, filter_ne_last howns.ledger_nodup (h.newest id hs hid)]
    exact h.calls
  | leave | publishSealed | refuseSealed => exact ⟨h.calls, fun id hid => (by cases hid)⟩
  | replay => exact ⟨h.calls, fun id _ hid => (by cases hid)⟩
  | detachAck payload ids hok => exact h.detach rfl
  | detachRejected payload ids hok => exact h.detach rfl
  | terminate => exact swept rfl rfl
  | part => exact swept rfl rfl
  | pong | retire | establish => exact ⟨h.calls, fun id hid => (by cases hid)⟩
  | «begin» => exact ⟨h.calls, fun id hid => (by cases hid)⟩
  | _ => exact ⟨h.calls, h.newest⟩

theorem inTurn (h : v.Ordered d) {m : OutboundMessage} {key : SessionKey} {epoch : Nat} (hp : v.Presents m key epoch) :
    v.InTurn (.wire (.pub m key epoch)) := by
  intro id hid
  have hmem := hp.owned id hid
  exact ⟨hmem, ((List.singleton_sublist.mpr hmem).append (List.Sublist.refl v.queue)).trans h.calls⟩

theorem act {e : Out} (hc : Change orderTerms.okAnswer d v t d' v' (e :: t)) (h : v.Ordered d) : v.InTurn e := by
  cases hc with
  | plain e he =>
    cases e with
    | wire frame =>
      cases frame with
      | pub => cases he
      | _ => trivial
    | _ => trivial
  | publishSealed id m key epoch hs hm hp hv => exact h.inTurn hp
  | publish m key epoch hclean hp hv => exact h.inTurn hp
  | _ => trivial

end View.Ordered

theorem outline_orderTerms : Outline orderTerms where
  change hc _ howns h := View.Ordered.change hc howns h
  act hc _ _ h _ := by
    have hturn := View.Ordered.act hc h
    exact hturn
  sends _ _ _ h := ⟨h.calls, h.newest⟩
  continues _ _ h := ⟨h.calls, fun id hid => (by cases hid)⟩

/-- Whenever code other than the client's runs, the ids in the ledger followed by those in the queue
are in the order in which their messages were sent. So no publication, a first one or a retry,
overtakes an older message that is still queued. -/
theorem publications_in_order {options : Options} {c : Config Client Ask Answer Out}
    (hc : Reached (Config.step machine) (Config.start (Client.init options)) c) :
    (c.running = none → (c.state.ledgerIds ++ c.state.queuedIds).Sublist c.state.sendTracker.keys) ∧
    ∀ m key epoch id, m.userId = some id → c.Acts (.wire (.pub m key epoch)) →
      id ∈ c.state.ledgerIds ∧ (id :: c.state.queuedIds).Sublist c.state.sendTracker.keys := by
  have hrun : ReachedBy (Config.step machine) orderTerms.contract.Ok (Config.start (Client.init options)) c :=
    hc.mono fun c mv _ => by cases mv <;> trivial
  have hstart : orderTerms.contract.inv orderTerms.contract.base (Client.init options) [] :=
    holds_init (T := orderTerms) ⟨.slnil, fun id hid => (by cases hid)⟩
  refine ⟨fun hcontrol => ?_, fun m key epoch id hid hacts => ?_⟩
  · obtain ⟨w, hw⟩ := inv_of_control (honours outline_orderTerms) hstart hrun hcontrol
    exact hw.kept.calls
  · exact atAct_of_acts (honours outline_orderTerms) hstart hrun hacts id hid

theorem publications_in_order_presented : ∃ c : Config Client Ask Answer Out,
    Reached (Config.step machine) (Config.start (Client.init ⟨30000, true⟩)) c ∧
      c.Acts (.wire (.pub (.userMessage "hi" "m1") ⟨1, 1⟩ 1)) ∧
      "m1" ∈ c.state.ledgerIds ∧ ("m1" :: c.state.queuedIds).Sublist c.state.sendTracker.keys := by
  have hplay : ((Config.play machine 200 (fun _ _ => decide True) (Config.start (Client.init ⟨30000, true⟩))
      Script.presented).bind fun c => (Config.play machine 0 (fun _ _ => decide True) c
        [Script.ask .sendThrows false]).map fun c => decide (acting c =
          some (.wire (.pub (.userMessage "hi" "m1") ⟨1, 1⟩ 1))) && true) = some true := by decide +kernel
  obtain ⟨c, hc, hacts, -⟩ := exists_acting (p := fun _ => true) hplay fun _ => trivial
  exact ⟨c, hc, hacts, (publications_in_order hc).2 _ _ _ _ rfl hacts⟩

/-! ### Acceptance -/

def InboundMessage.acknowledged : InboundMessage → List WireId
  | .ack (some ids) => ids
  | _ => []

/-- The environment acknowledges only ids of a set. -/
def Acks (acked : WireId → Prop) (_ : View) : (q : Ask) → Answer q → Prop
  | .openMessage _, message => ∀ m : InboundMessage, message = some m → ∀ id ∈ m.acknowledged, acked id
  | _, _ => True

def Acking (acked : WireId → Prop) (c : Config Client Ask Answer Out) : Move Ask Answer Entry → Prop
  | .answer q a => Acks acked c.state.view q a
  | _ => True

structure View.Credits (acked : WireId → Prop) (d : Duty) (v : View) : Prop where
  accepting : ∀ id ∈ d.accepting, acked id
  states : ∀ id, v.states id = some .accepted → acked id
  events : ∀ e ∈ v.events, e.state = .accepted → acked e.id

def creditTerms (acked : WireId → Prop) : Terms where
  inv d v _ := v.Credits acked d
  atAct e _ _ := ∀ event, e = .sendState event → event.state = .accepted → acked event.id
  okAnswer := Acks acked
  okEnter _ _ _ := True

namespace View.Credits

variable {acked : WireId → Prop} {d d' : Duty} {v v' : View} {t t' : List Out}

theorem update (h : v.Credits acked d) {id : WireId} {st : SendState} {f : Option SendFailure}
    (haccepting : ∀ id ∈ d'.accepting, id ∈ d.accepting) (hst : st = .accepted → acked id)
    (hevents : v'.events = v.events ++ [⟨id, st, f⟩]) (hstates : v'.states = Function.update v.states id (some st)) :
    v'.Credits acked d' := by
  refine ⟨fun id' hid' => h.accepting id' (haccepting id' hid'), fun id' hget => ?_, fun e he haccepted => ?_⟩
  · rw [hstates] at hget
    by_cases hid : id' = id
    · rw [hid, Function.update_self] at hget
      exact hid ▸ hst (Option.some.inj hget)
    · rw [Function.update_of_ne hid] at hget
      exact h.states id' hget
  · rw [hevents] at he
    rcases List.mem_append.mp he with hold | hnew
    · exact h.events e hold haccepted
    · obtain rfl := List.mem_singleton.mp hnew
      exact hst haccepted

theorem change (hc : Change (Acks acked) d v t d' v' t') (h : v.Credits acked d) : v'.Credits acked d' := by
  have hnot : ∀ {st : SendState} {id : WireId}, st ≠ .accepted → st = .accepted → acked id := fun hne heq => (hne heq).elim
  cases hc with
  | deliver e rest hevents => exact ⟨h.accepting, h.states, fun e' he' => h.events e' (hevents ▸ .tail _ he')⟩
  | enterDead id hres hfree hlive => exact h.update (fun _ hid => hid) (hnot (by decide)) rfl rfl
  | enterLive id hres hfree hlive =>
    have hentered : (v.enter id).Credits acked d := h.update (fun _ hid => hid) (hnot (by decide)) rfl rfl
    exact ⟨hentered.accepting, hentered.states, hentered.events⟩
  | advance id f hget => exact h.update (fun _ hid => hid) (hnot (by decide)) rfl rfl
  | fail id ids st f hd hget hst => exact h.update (fun _ hid => hid) (hnot (by decide)) rfl rfl
  | reject id ids taken st f hd ht hget hst => exact h.update (fun _ hid => hid) (hnot (by decide)) rfl rfl
  | accept id ids taken st f hd ht hget hst =>
    refine h.update (fun id' hid' => hd ▸ .tail _ hid') (fun _ => h.accepting id (hd ▸ .head _)) rfl rfl
  | acceptSkip id ids taken hd ht hset => exact ⟨fun id' hid' => h.accepting id' (hd ▸ .tail _ hid'), h.states, h.events⟩
  | detachAck payload ids hok =>
    refine ⟨fun id hid => ?_, h.states, h.events⟩
    rcases List.mem_append.mp hid with hnew | hold
    · exact hok _ rfl id (OrderedSet.mem_keys_ofList.mp hnew)
    · exact h.accepting id hold
  | _ => exact ⟨h.accepting, h.states, h.events⟩

theorem act {e : Out} (hc : Change (Acks acked) d v t d' v' (e :: t)) (h : v.Credits acked d) :
    ∀ event, e = .sendState event → event.state = .accepted → acked event.id := by
  rintro event rfl haccepted
  cases hc with
  | plain e he => cases he
  | deliver e rest hevents => exact h.events event (hevents ▸ .head _) haccepted

end View.Credits

theorem outline_creditTerms (acked : WireId → Prop) : Outline (creditTerms acked) where
  change hc _ _ h := View.Credits.change hc h
  act hc _ _ h _ := View.Credits.act hc h
  sends _ _ _ h := ⟨h.accepting, h.states, h.events⟩
  continues _ _ h := ⟨fun _ hid => (by cases hid), h.states, h.events⟩

/-- A send is taken for accepted, in the tracker or in a report, only when an acknowledgement that was
decrypted in the same run has named its id. -/
theorem accepted_only_acked {options : Options} {acked : WireId → Prop} {c : Config Client Ask Answer Out}
    (hc : ReachedBy (Config.step machine) (Acking acked) (Config.start (Client.init options)) c) :
    (∀ id, .accepted ∈ reported id c.trace → acked id) ∧
    (c.running = none → ∀ id e, c.state.sendTracker.get id = some e → e.state = .accepted → acked id) := by
  have hrun : ReachedBy (Config.step machine) (creditTerms acked).contract.Ok (Config.start (Client.init options)) c := by
    refine hc.mono fun c mv hok => ?_
    cases mv with
    | answer q a => exact hok
    | _ => trivial
  have hstart : (creditTerms acked).contract.inv (creditTerms acked).contract.base (Client.init options) [] := by
    refine holds_init (T := creditTerms acked) ⟨fun id hid => ?_, fun id hget => ?_, fun e he => ?_⟩
    · cases hid
    · cases hget
    · cases he
  refine ⟨fun id hmem => ?_, fun hcontrol id e hget haccepted => ?_⟩
  · have htrace : ∀ e ∈ c.trace, ∀ event, e = .sendState event → event.state = .accepted → acked event.id :=
      trace_of_reached (honours (outline_creditTerms acked)) hstart hrun
        (P := fun t => ∀ e ∈ t, ∀ event, e = .sendState event → event.state = .accepted → acked event.id)
        (fun e he => (by cases he)) fun e s t hact h => List.forall_mem_cons.mpr ⟨hact, h⟩
    obtain ⟨e, he, hreports⟩ := List.mem_filterMap.mp hmem
    cases e with
    | sendState event =>
      have hid : event.id = id ∧ event.state = .accepted := by
        simpa [Out.reports, SendStateEvent.reports] using hreports
      exact hid.1 ▸ htrace _ (List.mem_reverse.mp he) event rfl hid.2
    | _ => cases hreports
  · obtain ⟨w, hw⟩ := inv_of_control (honours (outline_creditTerms acked)) hstart hrun hcontrol
    exact hw.kept.states id (haccepted ▸ Client.states_eq_some hget)

def acksOnly (ids : List WireId) : Move Ask Answer Entry → Bool
  | .answer (.openMessage _) message => Option.all (fun m : InboundMessage => m.acknowledged.all ids.contains) message
  | _ => true

theorem accepted_only_acked_once : ∃ c : Config Client Ask Answer Out,
    ReachedBy (Config.step machine) (Acking (· ∈ ["m1"])) (Config.start (Client.init ⟨30000, true⟩)) c ∧
      reported "m1" c.trace = [.queued, .sent, .accepted] ∧ "m1" ∈ ["m1"] := by
  have hrun : (Config.play machine 200 (fun _ mv => acksOnly ["m1"] mv) (Config.start (Client.init ⟨30000, true⟩))
      (Script.session ⟨1, 1⟩ ++ Script.send "hi" "m1" ++ [.enter (.message "ack"),
        Script.ask (.openMessage "ack") (some (InboundMessage.ack (some ["m1"]))), .resume])).map (fun c =>
      reported "m1" c.trace == [.queued, .sent, .accepted]) = some true := by decide +kernel
  have htest : ∀ (c : Config Client Ask Answer Out) mv, acksOnly ["m1"] mv = true → Acking (· ∈ ["m1"]) c mv := by
    rintro c (_ | ⟨q, a⟩ | _ | _) hall
    · trivial
    · cases q with
      | openMessage payload =>
        rintro m rfl id hid
        exact List.contains_iff_mem.mp (List.all_eq_true.mp hall id hid)
      | _ => trivial
    · trivial
    · trivial
  obtain ⟨c, hc, hp⟩ := Config.exists_reachedBy_of_play (fun _ => trivial) htest hrun
  have hreported := beq_iff_eq.mp hp
  exact ⟨c, hc, hreported, (accepted_only_acked hc).1 "m1" (by rw [hreported]; decide)⟩

end Webchannel.Session
