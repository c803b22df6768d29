import Webchannel.Session.View

/-!
# The browser client: every pending send has one owner

A wire id that the tracker reports as queued or sent is in the outbound queue or in the ledger,
exactly once. In the middle of a method an id may instead be in a local variable of a suspended
program, which still has to settle it. Every change keeps this.
-/

namespace Webchannel.Session

/-- The ids in `all` are tracked and distinct, and they include every pending one. -/
structure Owned (states : WireId → Option SendState) (all : List WireId) : Prop where
  held : ∀ id st, states id = some st → st.pending = true → id ∈ all
  tracked : ∀ id ∈ all, (states id).isSome = true
  nodup : all.Nodup

namespace Owned

variable {states : WireId → Option SendState} {all all' : List WireId} {id : WireId}
  {st st' : SendState}

theorem perm (h : Owned states all) (hp : all.Perm all') : Owned states all' where
  held id st hget hpend := hp.mem_iff.mp (h.held id st hget hpend)
  tracked id hid := h.tracked id (hp.mem_iff.mpr hid)
  nodup := hp.nodup_iff.mp h.nodup

/-- A change of a state that makes no settled send pending again. -/
theorem set (h : Owned states all) (hget : states id = some st)
    (hst : st'.pending = true → st.pending = true) :
    Owned (Function.update states id (some st')) all where
  held id' st'' hget' hpend := by
    by_cases heq : id' = id
    · subst heq
      rw [Function.update_self] at hget'
      obtain rfl := Option.some.inj hget'
      exact h.held id' st hget (hst hpend)
    · rw [Function.update_of_ne heq] at hget'
      exact h.held id' st'' hget' hpend
  tracked id' hid' := by
    by_cases heq : id' = id
    · rw [heq, Function.update_self]
      rfl
    · rw [Function.update_of_ne heq]
      exact h.tracked id' hid'
  nodup := h.nodup

theorem insert (h : Owned states all) (hid : states id = none) :
    Owned (Function.update states id (some st)) (id :: all) where
  held id' st' hget hpend := by
    by_cases heq : id' = id
    · exact heq ▸ .head _
    · rw [Function.update_of_ne heq] at hget
      exact .tail _ (h.held id' st' hget hpend)
  tracked id' hid' := by
    by_cases heq : id' = id
    · rw [heq, Function.update_self]
      rfl
    · rw [Function.update_of_ne heq]
      exact h.tracked id' ((List.mem_cons.mp hid').resolve_left heq)
  nodup := by
    refine List.nodup_cons.mpr ⟨fun hmem => ?_, h.nodup⟩
    have := h.tracked id hmem
    rw [hid] at this
    cases this

/-- A settled id needs no owner. -/
theorem discharge (h : Owned states (id :: all))
    (hset : ∀ st, states id = some st → st.pending = false) : Owned states all where
  held id' st hget hpend := by
    rcases List.mem_cons.mp (h.held id' st hget hpend) with rfl | hmem
    · rw [hset st hget] at hpend
      cases hpend
    · exact hmem
  tracked id' hid' := h.tracked id' (.tail _ hid')
  nodup := (List.nodup_cons.mp h.nodup).2

/-- An owed id is settled. -/
theorem settle (h : Owned states (id :: all)) (hget : states id = some st)
    (hst : st'.pending = false) : Owned (Function.update states id (some st')) all := by
  refine discharge (h.set hget fun hp => ?_) fun st'' hget' => ?_
  · rw [hst] at hp
    cases hp
  · rw [Function.update_self] at hget'
    exact Option.some.inj hget' ▸ hst

end Owned

/-- Take some members of a list without repetitions to the front. -/
theorem perm_append_filter {l sub : List WireId} (hl : l.Nodup) (hsub : sub.Nodup)
    (hmem : ∀ x ∈ sub, x ∈ l) : l.Perm (sub ++ l.filter (· ∉ sub)) := by
  refine (List.perm_ext_iff_of_nodup hl ?_).mpr fun x => ?_
  · refine hsub.append (hl.filter _) fun x hx hx' => ?_
    exact (of_decide_eq_true (List.mem_filter.mp hx').2) hx
  · simp only [List.mem_append, List.mem_filter, decide_eq_true_eq]
    have := hmem x
    tauto

/-- The invariant. A closed or retired instance holds no user message. -/
structure View.Owns (d : Duty) (v : View) : Prop where
  owned : Owned v.states (d.inHand v)
  retired : v.live = false → v.queue = [] ∧ v.ledger = []

namespace View.Owns

variable {d : Duty} {v : View} {id : WireId}

theorem queue_ledger_nodup (h : v.Owns d) : (v.queue ++ v.ledger).Nodup :=
  (List.nodup_append.mp h.owned.nodup).2.1

theorem ledger_nodup (h : v.Owns d) : v.ledger.Nodup :=
  (List.nodup_append.mp h.queue_ledger_nodup).2.1

theorem live_of_ledger (h : v.Owns d) (hid : id ∈ v.ledger) : v.live = true := by
  by_contra hdead
  have hl := (h.retired (Bool.eq_false_iff.mpr hdead)).2
  rw [hl] at hid
  cases hid

theorem live_of_queue (h : v.Owns d) (hid : id ∈ v.queue) : v.live = true := by
  by_contra hdead
  have hq := (h.retired (Bool.eq_false_iff.mpr hdead)).1
  rw [hq] at hid
  cases hid

/-- The ids of a result frame leave the ledger and are owed by the program that applies it. -/
theorem detach (h : v.Owns d) {frame : List WireId} (hframe : frame.Nodup) {d' : Duty}
    (hfailing : d'.failing = d.failing)
    (htaken : d'.taken = frame.filter (· ∈ v.ledger) ++ d.taken) :
    { v with ledger := v.ledger.filter (· ∉ frame) }.Owns d' := by
  refine ⟨h.owned.perm ?_, fun hlive => ⟨(h.retired hlive).1, ?_⟩⟩
  · have hrest : v.ledger.filter (· ∉ frame) = v.ledger.filter (· ∉ frame.filter (· ∈ v.ledger)) := by
      refine List.filter_congr fun x hx => ?_
      simp [List.mem_filter, hx]
    have hsplit := perm_append_filter h.ledger_nodup (hframe.filter (· ∈ v.ledger)) fun x hx => by
      simpa using (List.mem_filter.mp hx).2
    rw [← hrest] at hsplit
    calc d.inHand v
        _ |>.Perm (d.failing ++ d.taken ++ (v.queue ++ (frame.filter (· ∈ v.ledger)
            ++ v.ledger.filter (· ∉ frame)))) := (hsplit.append_left _).append_left _
        _ |>.Perm (d.failing ++ (frame.filter (· ∈ v.ledger) ++ d.taken)
            ++ (v.queue ++ v.ledger.filter (· ∉ frame))) := by
          simp only [List.append_assoc]
          refine List.Perm.append_left _ ?_
          have hswap := @List.perm_append_comm _ (d.taken ++ v.queue)
            (frame.filter (· ∈ v.ledger))
          simpa using hswap.append_right (v.ledger.filter (· ∉ frame))
        _ = d'.inHand { v with ledger := v.ledger.filter (· ∉ frame) } := by
          rw [Duty.inHand, hfailing, htaken]
  · show v.ledger.filter _ = []
    rw [(h.retired hlive).2]
    rfl

/-- One id of a result frame is settled, whether it was taken from the ledger or not. -/
theorem settleTaken (h : v.Owns d) {d' : Duty} {st st' : SendState} {f : Option SendFailure}
    {taken : List WireId} (hfailing : d'.failing = d.failing) (htaken : d'.taken = taken)
    (ht : d.taken = id :: taken ∨ d.taken = taken) (hget : v.states id = some st)
    (hst : st'.pending = false) :
    ((v.setState id st').raise ⟨id, st', f⟩).Owns d' := by
  refine ⟨?_, h.retired⟩
  have howned := h.owned
  rcases ht with ht | ht
  · have hperm : (d.inHand v).Perm (id :: d'.inHand v) := by
      rw [Duty.inHand, Duty.inHand, hfailing, htaken, ht]
      simp only [List.append_assoc, List.cons_append]
      exact List.perm_middle
    exact (howned.perm hperm).settle hget hst
  · have hsame : d'.inHand ((v.setState id st').raise ⟨id, st', f⟩) = d.inHand v := by
      simp only [Duty.inHand, hfailing, htaken, ht, setState, raise]
    rw [hsame]
    refine howned.set hget fun hp => ?_
    rw [hst] at hp
    cases hp

theorem skipTaken (h : v.Owns d) {d' : Duty} {taken : List WireId} (hfailing : d'.failing = d.failing)
    (htaken : d'.taken = taken) (ht : d.taken = id :: taken ∨ d.taken = taken)
    (hset : ∀ st, v.states id = some st → st.pending = false) : v.Owns d' := by
  refine ⟨?_, h.retired⟩
  have howned := h.owned
  rcases ht with ht | ht
  · refine Owned.discharge (howned.perm ?_) hset
    rw [Duty.inHand, Duty.inHand, hfailing, htaken, ht]
    simp only [List.append_assoc, List.cons_append]
    exact List.perm_middle
  · have hsame : d'.inHand v = d.inHand v := by simp only [Duty.inHand, hfailing, htaken, ht]
    exact hsame ▸ howned

end View.Owns

/-- A sweep: everything in the queue and the ledger is owed by the program that took it. -/
theorem perm_sweep (d : Duty) (v : View) :
    (d.inHand v).Perm (v.queue ++ v.ledger ++ d.failing ++ d.taken ++ ([] ++ [])) := by
  rw [List.append_nil, List.append_nil, Duty.inHand, List.append_assoc (v.queue ++ v.ledger)]
  exact List.perm_append_comm

variable {ok : View → (q : Ask) → Answer q → Prop} {d d' : Duty} {v v' : View} {t t' : List Out}

theorem Change.owns (hc : Change ok d v t d' v' t') (h : v.Owns d) : v'.Owns d' := by
  have howned := h.owned
  cases hc with
  | enterDead id hres hfree hlive => exact ⟨howned.insert hfree, h.retired⟩
  | enterLive id hres hfree hlive =>
    refine ⟨(howned.insert hfree).perm ?_, fun hdead => ?_⟩
    · refine List.perm_iff_count.mpr fun x => ?_
      simp only [Duty.inHand, View.enter, List.count_append, List.count_cons, List.count_nil]
      omega
    · have hdead' : v.live = false := hdead
      rw [hlive] at hdead'
      cases hdead'
  | advance id f hget => exact ⟨howned.set hget fun _ => rfl, h.retired⟩
  | fail id ids st f hd hget hst =>
    rw [Duty.inHand, hd] at howned
    exact ⟨howned.settle hget rfl, h.retired⟩
  | failSkip id ids hd hget =>
    rw [Duty.inHand, hd] at howned
    refine ⟨Owned.discharge howned fun st hst => ?_, h.retired⟩
    rcases hget with hget | hget
    · rw [hget] at hst
      cases hst
    · rw [hget] at hst
      exact Option.some.inj hst ▸ rfl
  | record id rest hq hlive hclean hs =>
    refine ⟨howned.perm (List.perm_iff_count.mpr fun x => ?_), fun hdead => ?_⟩
    · simp only [Duty.inHand, hq, List.count_append, List.count_cons, List.count_nil]
      omega
    · have hdead' : v.live = false := hdead
      rw [hlive] at hdead'
      cases hdead'
  | evict ids rest hl =>
    refine ⟨howned.perm (List.perm_iff_count.mpr fun x => ?_), fun hdead => ?_⟩
    · simp only [Duty.inHand, hl, List.count_append]
      omega
    · obtain ⟨hq, hl'⟩ := h.retired hdead
      rw [hl] at hl'
      exact ⟨hq, (List.append_eq_nil_iff.mp hl').2⟩
  | requeue id hs hid hlive =>
    refine ⟨howned.perm (List.perm_iff_count.mpr fun x => ?_), fun hdead => ?_⟩
    · have hsplit := perm_append_filter h.ledger_nodup (List.nodup_singleton id) fun y hy => by
        rw [List.mem_singleton.mp hy]
        exact hid
      have hcount := List.perm_iff_count.mp hsplit x
      simp only [List.mem_singleton, List.count_append, List.count_cons, List.count_nil] at hcount
      simp only [Duty.inHand, List.count_append, List.count_cons, hcount, ne_eq]
      omega
    · have hdead' : v.live = false := hdead
      rw [hlive] at hdead'
      cases hdead'
  | replay =>
    refine ⟨howned.perm (List.perm_iff_count.mpr fun x => ?_), fun hdead => ?_⟩
    · simp only [Duty.inHand, List.count_append, List.count_nil]
      omega
    · obtain ⟨hq, hl⟩ := h.retired hdead
      exact ⟨by simp [hq, hl], rfl⟩
  | detachAck payload ids hok => exact h.detach (OrderedMap.keys_nodup _) rfl rfl
  | detachRejected payload ids hok => exact h.detach (OrderedMap.keys_nodup _) rfl rfl
  | accept id ids taken st f hd ht hget hst => exact h.settleTaken rfl rfl ht hget rfl
  | acceptSkip id ids taken hd ht hset => exact h.skipTaken rfl rfl ht hset
  | reject id ids taken st f hd ht hget hst => exact h.settleTaken rfl rfl ht hget rfl
  | rejectSkip id ids taken hd ht hget =>
    refine h.skipTaken rfl rfl ht fun st hst => ?_
    rcases hget with hget | hget
    · rw [hget] at hst
      cases hst
    · rw [hget] at hst
      exact Option.some.inj hst ▸ rfl
  | reopen hterminal =>
    refine ⟨howned, fun hdead => ?_⟩
    simp [View.live, hterminal] at hdead
  | terminate => exact ⟨howned.perm (perm_sweep d v), fun _ => ⟨rfl, rfl⟩⟩
  | part => exact ⟨howned.perm (perm_sweep d v), fun _ => ⟨rfl, rfl⟩⟩
  | _ => exact ⟨howned, h.retired⟩

end Webchannel.Session
