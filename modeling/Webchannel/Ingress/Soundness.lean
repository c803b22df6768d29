import Webchannel.Ingress.Flush

/-!
# What a flush may publish

A result is sound when it was read from a marker, or when the write and the offer behind it
were committed and stayed so. A flush collects its results in chunks and decides about its
writes and offers only after the loop, so a chunk that fills up earlier is published too
early; and a throw after the last ACK takes back offers that were acknowledged.
-/

namespace Webchannel.Ingress

open Webchannel.Program Webchannel.Runs
open Webchannel.Outcome (IngressOutcome Durability OutcomeLookup)

abbrev History := Trace Call Reply

/-! ### What the calls so far say -/

/-- The position and the outcome of a lookup that found a marker. -/
def found : Event Call Reply → Option (Nat × IngressOutcome)
  | ⟨.lookup e _, some (.found outcome)⟩ => some (e, outcome)
  | _ => none

/-- A write that was recorded, other than the retry of a cancelled message. -/
def recorded : Event Call Reply → Option (Nat × IngressOutcome × Durability)
  | ⟨.record e _ outcome false, some (.recorded durability)⟩ => some (e, outcome, durability)
  | _ => none

def tombstone : Event Call Reply → Option String
  | ⟨.hasFallback key, some true⟩ => some key
  | _ => none

/-- A frame of results that was published, and from where. -/
def published (type : ResultType) (event : Event Call Reply) : Option (Site × List String) :=
  match type, event with
  | .ack, ⟨.sendAck site _ ids, some true⟩ => some (site, ids)
  | .inboundRejected, ⟨.sendInboundRejected site _ ids, some true⟩ => some (site, ids)
  | _, _ => none

variable (items : List IngressDedupeItem)

def idAt (e : Nat) : Option String := items[e]?.bind IngressDedupeItem.id

def FoundAs (t : History) (outcome : IngressOutcome) (id : String) : Prop :=
  ∃ f ∈ t.filterMap found, f.2 = outcome ∧ idAt items f.1 = some id

/-- A tombstone was there when an entry with this id was reached. -/
def Tombstoned (t : History) (id : String) : Prop :=
  ∃ item ∈ items, item.id = some id ∧ ∃ key ∈ t.filterMap tombstone, ingressDedupeKey item = some key

def Published (t : History) (type : ResultType) (id : String) : Prop :=
  ∃ f ∈ t.filterMap (published type), id ∈ f.2

/-- The accepted write and the offer of an entry with this id are committed and stay so. -/
def Admitted (t : History) (id : String) : Prop :=
  ∃ r ∈ t.filterMap recorded, r.2.1 = .accepted ∧ idAt items r.1 = some id ∧
    t.Returned (.commitWrite r.1) ∧ ¬ t.Called (.rollbackWrite r.1) ∧
    t.Returned (.commitOffer r.1) ∧ ¬ t.Called (.rollbackOffer r.1)

/-- The durable overloaded write of an entry with this id is committed and stays so. -/
def Refused (t : History) (id : String) : Prop :=
  ∃ r ∈ t.filterMap recorded, r.2 = (.overloaded, .durable) ∧ idAt items r.1 = some id ∧
    t.Returned (.commitWrite r.1) ∧ ¬ t.Called (.rollbackWrite r.1)

/-- Every published result is one that the store or the dispatcher stands behind. -/
structure Sound (t : History) : Prop where
  ack : ∀ id, Published t .ack id → ¬ Tombstoned items t id →
    FoundAs items t .accepted id ∨ Admitted items t id
  rejected : ∀ id, Published t .inboundRejected id →
    FoundAs items t .overloaded id ∨ Refused items t id

/-- Every published result was found. -/
structure OnlyFound (t : History) : Prop where
  ack : ∀ id, Published t .ack id → ¬ Tombstoned items t id → FoundAs items t .accepted id
  rejected : ∀ id, Published t .inboundRejected id → FoundAs items t .overloaded id

def outcomeOf : ResultType → IngressOutcome
  | .ack => .accepted
  | .inboundRejected => .overloaded

/-- The frames published from a site hold found ids only. -/
def FoundAt (t : History) (site : Site) : Prop :=
  ∀ type, ∀ f ∈ t.filterMap (published type), f.1 = site →
    ∀ id ∈ f.2, FoundAs items t (outcomeOf type) id

/-- A chunk that is published before the batch is decided holds found ids only, and nothing
throws after the last chunks were published unless they held found ids only. -/
def Unhurried (t : History) (event : Event Call Reply) : Prop :=
  (∀ type, ∀ f ∈ published type event, f.1 = .add →
    ∀ id ∈ f.2, FoundAs items t (outcomeOf type) id) ∧
  (event.reply = none → FoundAt items t .finish)

section Decidability

variable (t : History) (event : Event Call Reply) (id : String)

instance {p : ResultType → Prop} [DecidablePred p] : Decidable (∀ type, p type) :=
  decidable_of_iff (p .ack ∧ p .inboundRejected)
    ⟨fun h type => by cases type; exacts [h.1, h.2], fun h => ⟨h _, h _⟩⟩

instance (outcome : IngressOutcome) : Decidable (FoundAs items t outcome id) :=
  inferInstanceAs (Decidable (∃ f ∈ t.filterMap found, f.2 = outcome ∧ idAt items f.1 = some id))

instance : Decidable (Tombstoned items t id) :=
  inferInstanceAs (Decidable (∃ item ∈ items, item.id = some id ∧
    ∃ key ∈ t.filterMap tombstone, ingressDedupeKey item = some key))

instance (type : ResultType) : Decidable (Published t type id) :=
  inferInstanceAs (Decidable (∃ f ∈ t.filterMap (published type), id ∈ f.2))

instance : Decidable (Admitted items t id) :=
  inferInstanceAs (Decidable (∃ r ∈ t.filterMap recorded, r.2.1 = .accepted ∧
    idAt items r.1 = some id ∧ t.Returned (.commitWrite r.1) ∧ ¬ t.Called (.rollbackWrite r.1) ∧
      t.Returned (.commitOffer r.1) ∧ ¬ t.Called (.rollbackOffer r.1)))

instance (site : Site) : Decidable (FoundAt items t site) :=
  inferInstanceAs (Decidable (∀ type, ∀ f ∈ t.filterMap (published type), f.1 = site →
    ∀ id ∈ f.2, FoundAs items t (outcomeOf type) id))

instance : Decidable (Unhurried items t event) :=
  inferInstanceAs (Decidable ((∀ type, ∀ f ∈ published type event, f.1 = .add →
    ∀ id ∈ f.2, FoundAs items t (outcomeOf type) id) ∧
      (event.reply = none → FoundAt items t .finish)))

end Decidability

/-! ### Facts that further calls cannot undo -/

variable {items} {t : History} {event : Event Call Reply} {id : String} {n : Nat} {l : Locals}

theorem mem_filterMap_cons {β : Type} {f : Event Call Reply → Option β} {b : β} :
    b ∈ (event :: t).filterMap f ↔ f event = some b ∨ b ∈ t.filterMap f := by
  simp only [List.mem_filterMap, List.mem_cons, exists_eq_or_imp]

theorem FoundAs.cons {outcome : IngressOutcome} (h : FoundAs items t outcome id) :
    FoundAs items (event :: t) outcome id := by
  obtain ⟨f, hf, hid⟩ := h
  exact ⟨f, mem_filterMap_cons.mpr (.inr hf), hid⟩

theorem Tombstoned.cons (h : Tombstoned items t id) : Tombstoned items (event :: t) id := by
  obtain ⟨item, hitem, hid, key, hkey, hk⟩ := h
  exact ⟨item, hitem, hid, key, mem_filterMap_cons.mpr (.inr hkey), hk⟩

variable (items) in
/-- A result with nothing of this batch behind it. -/
def Given (t : History) (type : ResultType) (id : String) : Prop :=
  (type = .ack ∧ Tombstoned items t id) ∨ FoundAs items t (outcomeOf type) id

theorem Given.cons {type : ResultType} (h : Given items t type id) :
    Given items (event :: t) type id :=
  h.imp (fun h => ⟨h.1, h.2.cons⟩) FoundAs.cons

variable (items) in
/-- The entry whose committed write, and offer, will stand behind a result. -/
def Backed (l : Locals) (t : History) (e : Nat) : ResultType → Prop
  | .ack => e ∈ l.pendingWrites ∧ e ∈ l.commitOffers ∧
      ∃ r ∈ t.filterMap recorded, r.1 = e ∧ r.2.1 = .accepted
  | .inboundRejected => e ∈ l.pendingWrites ∧
      ∃ r ∈ t.filterMap recorded, r.1 = e ∧ r.2 = (.overloaded, .durable)

variable (items) in
/-- What a chunk may hold. -/
def Good (l : Locals) (t : History) (type : ResultType) (id : String) : Prop :=
  Given items t type id ∨ ∃ e, idAt items e = some id ∧ Backed l t e type

theorem Backed.cons {type : ResultType} {e : Nat} (h : Backed l t e type) :
    Backed l (event :: t) e type := by
  cases type with
  | ack =>
    obtain ⟨hw, ho, r, hr, he⟩ := h
    exact ⟨hw, ho, r, mem_filterMap_cons.mpr (.inr hr), he⟩
  | inboundRejected =>
    obtain ⟨hw, r, hr, he⟩ := h
    exact ⟨hw, r, mem_filterMap_cons.mpr (.inr hr), he⟩

theorem Good.cons {type : ResultType} (h : Good items l t type id) :
    Good items l (event :: t) type id :=
  h.imp Given.cons fun ⟨e, he, hb⟩ => ⟨e, he, hb.cons⟩

def Locals.writer (l : Locals) : ResultType → ChunkWriter
  | .ack => l.ack
  | .inboundRejected => l.rejected

variable (items) in
/-- The results published before the end of the batch. -/
def Early (t : History) : Prop :=
  ∀ type, ∀ f ∈ t.filterMap (published type), f.1 ≠ .finish → ∀ id ∈ f.2, Given items t type id

variable (items) in
/-- Inside the loop, before position `n`. -/
structure Batch (n : Nat) (l : Locals) (t : History) : Prop where
  early : Early items t
  undecided : ∀ type, ∀ f ∈ t.filterMap (published type), f.1 ≠ .finish
  writes : ∀ e ∈ l.pendingWrites, e < n ∧ ¬ t.Called (.rollbackWrite e)
  offers : ∀ e ∈ l.commitOffers, e < n ∧ ¬ t.Called (.rollbackOffer e)
  rolledBack : ∀ e, t.Called (.rollbackWrite e) ∨ t.Called (.rollbackOffer e) → e < n
  chunks : ∀ type, ∀ id ∈ (l.writer type).ids, Good items l t type id

variable (items) in
/-- After the commits. -/
structure Settled (l : Locals) (t : History) : Prop where
  early : Early items t
  last : ∀ type, ∀ f ∈ t.filterMap (published type), f.1 = .finish →
    ∀ id ∈ f.2, Good items l t type id
  writes : ∀ e ∈ l.pendingWrites, t.Returned (.commitWrite e) ∧ ¬ t.Called (.rollbackWrite e)
  offers : ∀ e ∈ l.commitOffers, t.Returned (.commitOffer e) ∧ ¬ t.Called (.rollbackOffer e)
  chunks : ∀ type, ∀ id ∈ (l.writer type).ids, Good items l t type id

theorem OnlyFound.sound (h : OnlyFound items t) : Sound items t :=
  ⟨fun id hp ht => .inl (h.ack id hp ht), fun id hp => .inl (h.rejected id hp)⟩

theorem Early.onlyFound (h : Early items t) (hlast : FoundAt items t .finish) :
    OnlyFound items t := by
  have hfound (type : ResultType) (id : String) (hp : Published t type id) :
      Given items t type id := by
    obtain ⟨f, hf, hid⟩ := hp
    by_cases hsite : f.1 = .finish
    · exact .inr (hlast type f hf hsite id hid)
    · exact h type f hf hsite id hid
  constructor
  · intro id hp ht
    exact (hfound .ack id hp).resolve_left fun h => ht h.2
  · intro id hp
    exact (hfound .inboundRejected id hp).resolve_left fun h => by cases h.1

theorem Batch.onlyFound (h : Batch items n l t) : OnlyFound items t :=
  h.early.onlyFound fun type f hf hsite => absurd hsite (h.undecided type f hf)

theorem Settled.good (h : Settled items l t) {type : ResultType} (hp : Published t type id) :
    Good items l t type id := by
  obtain ⟨f, hf, hid⟩ := hp
  by_cases hsite : f.1 = .finish
  · exact h.last type f hf hsite id hid
  · exact .inl (h.early type f hf hsite id hid)

theorem Settled.sound (h : Settled items l t) : Sound items t := by
  constructor
  · intro id hp ht
    rcases h.good hp with (hg | hg) | ⟨e, hid, hw, ho, r, hr, rfl, hacc⟩
    · exact absurd hg.2 ht
    · exact .inl hg
    · exact .inr ⟨r, hr, hacc, hid, (h.writes _ hw).1, (h.writes _ hw).2, (h.offers _ ho).1,
        (h.offers _ ho).2⟩
  · intro id hp
    rcases h.good hp with (hg | hg) | ⟨e, hid, hw, r, hr, rfl, hov⟩
    · cases hg.1
    · exact .inl hg
    · exact .inr ⟨r, hr, hov, hid, (h.writes _ hw).1, (h.writes _ hw).2⟩

/-! ### One call -/

def silent : Call → Bool
  | .sendAck _ _ _ | .sendInboundRejected _ _ _ => false
  | _ => true

def undoes : Call → Bool
  | .rollbackWrite _ | .rollbackOffer _ => true
  | _ => false

/-- A call that publishes nothing and rolls nothing back. -/
def quiet (c : Call) : Bool := silent c && !undoes c

theorem published_silent {c : Call} (h : silent c = true) (type : ResultType) (r : Option (Reply c)) :
    published type ⟨c, r⟩ = none := by
  cases type <;> cases c <;> first | rfl | cases h

theorem published_sendAck {type : ResultType} {site : Site} {peerId : String} {ids : List String}
    {r : Option Bool} {f : Site × List String}
    (h : published type ⟨.sendAck site peerId ids, r⟩ = some f) :
    type = .ack ∧ f.1 = site ∧ f.2 = ids := by
  cases type with
  | inboundRejected => cases h
  | ack =>
    rcases r with _ | _ | _ <;> cases h
    exact ⟨rfl, rfl, rfl⟩

theorem published_sendInboundRejected {type : ResultType} {site : Site} {peerId : String}
    {ids : List String} {r : Option Bool} {f : Site × List String}
    (h : published type ⟨.sendInboundRejected site peerId ids, r⟩ = some f) :
    type = .inboundRejected ∧ f.1 = site ∧ f.2 = ids := by
  cases type with
  | ack => cases h
  | inboundRejected =>
    rcases r with _ | _ | _ <;> cases h
    exact ⟨rfl, rfl, rfl⟩

theorem published_threw {c : Call} (type : ResultType) : published type ⟨c, none⟩ = none := by
  cases type <;> cases c <;> rfl

theorem mem_published_cons {type : ResultType} {f : Site × List String}
    (h : published type event = none) (hf : f ∈ (event :: t).filterMap (published type)) :
    f ∈ t.filterMap (published type) := by
  rw [mem_filterMap_cons, h] at hf
  simpa using hf

theorem called_of_not_undoes (event : Event Call Reply) (h : undoes event.call = false) (e : Nat) :
    (Trace.Called (event :: t) (.rollbackWrite e) ↔ t.Called (.rollbackWrite e)) ∧
      (Trace.Called (event :: t) (.rollbackOffer e) ↔ t.Called (.rollbackOffer e)) := by
  simp only [Trace.called_cons]
  constructor
  · exact or_iff_right fun hc => by rw [hc] at h; cases h
  · exact or_iff_right fun hc => by rw [hc] at h; cases h

theorem Published.of_cons {type : ResultType} (hnew : published type event = none)
    (h : Published (event :: t) type id) : Published t type id := by
  obtain ⟨f, hf, hid⟩ := h
  exact ⟨f, mem_published_cons hnew hf, hid⟩

theorem OnlyFound.cons (h : OnlyFound items t) (hnew : ∀ type, published type event = none) :
    OnlyFound items (event :: t) where
  ack id hp ht := (h.ack id (hp.of_cons (hnew _)) fun h => ht h.cons).cons
  rejected id hp := (h.rejected id (hp.of_cons (hnew _))).cons

theorem Early.cons (h : Early items t) (hnew : ∀ type, ∀ f ∈ published type event, f.1 ≠ .finish →
    ∀ id ∈ f.2, Given items (event :: t) type id) : Early items (event :: t) := by
  intro type f hf hsite id hid
  rcases mem_filterMap_cons.mp hf with hf | hf
  · exact hnew type f hf hsite id hid
  · exact (h type f hf hsite id hid).cons

theorem Batch.cons (h : Batch items n l t) (hcall : undoes event.call = false)
    (hnew : ∀ type, ∀ f ∈ published type event, f.1 ≠ .finish ∧
      ∀ id ∈ f.2, Given items (event :: t) type id) : Batch items n l (event :: t) where
  early := h.early.cons fun type f hf _ => (hnew type f hf).2
  undecided type f hf := by
    rcases mem_filterMap_cons.mp hf with hf | hf
    · exact (hnew type f hf).1
    · exact h.undecided type f hf
  writes e he := ⟨(h.writes e he).1, (called_of_not_undoes _ hcall e).1.not.mpr (h.writes e he).2⟩
  offers e he := ⟨(h.offers e he).1, (called_of_not_undoes _ hcall e).2.not.mpr (h.offers e he).2⟩
  rolledBack e he := h.rolledBack e
    (he.imp (called_of_not_undoes _ hcall e).1.mp (called_of_not_undoes _ hcall e).2.mp)
  chunks type id hid := (h.chunks type id hid).cons

theorem Settled.cons (h : Settled items l t) (hcall : undoes event.call = false)
    (hnew : ∀ type, ∀ f ∈ published type event, f.1 = .finish ∧
      ∀ id ∈ f.2, Good items l (event :: t) type id) : Settled items l (event :: t) where
  early := h.early.cons fun type f hf hsite => absurd (hnew type f hf).1 hsite
  last type f hf hsite id hid := by
    rcases mem_filterMap_cons.mp hf with hf | hf
    · exact (hnew type f hf).2 id hid
    · exact (h.last type f hf hsite id hid).cons
  writes e he := ⟨(h.writes e he).1.cons _, (called_of_not_undoes _ hcall e).1.not.mpr (h.writes e he).2⟩
  offers e he := ⟨(h.offers e he).1.cons _, (called_of_not_undoes _ hcall e).2.not.mpr (h.offers e he).2⟩
  chunks type id hid := (h.chunks type id hid).cons

theorem quiet_iff {c : Call} : quiet c = true ↔ silent c = true ∧ undoes c = false := by
  simp [quiet]

theorem Batch.quiet {c : Call} {r : Option (Reply c)} (h : Batch items n l t)
    (hc : quiet c = true) : Batch items n l (⟨c, r⟩ :: t) := by
  refine h.cons (quiet_iff.mp hc).2 fun type f hf => ?_
  rw [published_silent (quiet_iff.mp hc).1] at hf
  cases hf

theorem Settled.quiet {c : Call} {r : Option (Reply c)} (h : Settled items l t)
    (hc : quiet c = true) : Settled items l (⟨c, r⟩ :: t) := by
  refine h.cons (quiet_iff.mp hc).2 fun type f hf => ?_
  rw [published_silent (quiet_iff.mp hc).1] at hf
  cases hf

/-- A chunk that fills up inside the loop. -/
theorem Batch.chunk (h : Batch items n l t) (hok : Unhurried items t event)
    (hcall : undoes event.call = false)
    (hsite : ∀ type, ∀ f ∈ published type event, f.1 = .add) : Batch items n l (event :: t) := by
  refine h.cons hcall fun type f hf => ⟨?_, fun id hid => .inr ?_⟩
  · rw [hsite type f hf]
    decide
  · exact (hok.1 type f hf (hsite type f hf) id hid).cons

theorem Batch.next (h : Batch items n l t) : Batch items (n + 1) l t where
  early := h.early
  undecided := h.undecided
  writes e he := ⟨Nat.lt_succ_of_lt (h.writes e he).1, (h.writes e he).2⟩
  offers e he := ⟨Nat.lt_succ_of_lt (h.offers e he).1, (h.offers e he).2⟩
  rolledBack e he := Nat.lt_succ_of_lt (h.rolledBack e he)
  chunks := h.chunks

/-- What belongs to the entry at hand is rolled back. -/
theorem Batch.undone {c : Call} {r : Option (Reply c)} (h : Batch items n l t)
    (hc : c = .rollbackWrite n ∨ c = .rollbackOffer n) : Batch items (n + 1) l (⟨c, r⟩ :: t) := by
  have hsilent : silent c = true := by rcases hc with rfl | rfl <;> rfl
  constructor
  · intro type f hf hsite id hid
    exact (h.early type f (mem_published_cons (published_silent hsilent _ _) hf) hsite id hid).cons
  · intro type f hf
    exact h.undecided type f (mem_published_cons (published_silent hsilent _ _) hf)
  · intro e he
    have hlt := (h.writes e he).1
    refine ⟨by omega, fun hcalled => ?_⟩
    rcases Trace.called_cons.mp hcalled with heq | hcalled
    · rcases hc with rfl | rfl <;> cases heq
      omega
    · exact (h.writes e he).2 hcalled
  · intro e he
    have hlt := (h.offers e he).1
    refine ⟨by omega, fun hcalled => ?_⟩
    rcases Trace.called_cons.mp hcalled with heq | hcalled
    · rcases hc with rfl | rfl <;> cases heq
      omega
    · exact (h.offers e he).2 hcalled
  · intro e he
    simp only [Trace.called_cons] at he
    rcases he with (heq | he) | (heq | he)
    · rcases hc with rfl | rfl <;> cases heq
      omega
    · exact Nat.lt_succ_of_lt (h.rolledBack e (.inl he))
    · rcases hc with rfl | rfl <;> cases heq
      omega
    · exact Nat.lt_succ_of_lt (h.rolledBack e (.inr he))
  · intro type id hid
    exact (h.chunks type id hid).cons

/-- Variables that no published result depends on may change. -/
theorem Batch.locals {l' : Locals} (h : Batch items n l t) (hw : l'.pendingWrites = l.pendingWrites)
    (ho : l'.commitOffers = l.commitOffers)
    (hids : ∀ type, ∀ id ∈ (l'.writer type).ids, Good items l t type id) : Batch items n l' t where
  early := h.early
  undecided := h.undecided
  writes e he := h.writes e (hw ▸ he)
  offers e he := h.offers e (ho ▸ he)
  rolledBack := h.rolledBack
  chunks type id hid := by
    refine (hids type id hid).imp_right fun ⟨e, he, hb⟩ => ⟨e, he, ?_⟩
    cases type
    · exact ⟨hw ▸ hb.1, ho ▸ hb.2.1, hb.2.2⟩
    · exact ⟨hw ▸ hb.1, hb.2⟩

/-- The write is kept for the end of the batch, and the offer with it if there is one. -/
theorem Batch.push {l' : Locals} (h : Batch items n l t) (hw : l'.pendingWrites = l.pendingWrites ++ [n])
    (ho : l'.commitOffers = l.commitOffers ∨ l'.commitOffers = l.commitOffers ++ [n])
    (hids : ∀ type, l'.writer type = l.writer type) : Batch items (n + 1) l' t where
  early := h.early
  undecided := h.undecided
  writes e he := by
    rw [hw, List.mem_append, List.mem_singleton] at he
    rcases he with he | rfl
    · exact h.next.writes e he
    · exact ⟨Nat.lt_succ_self _, fun hc => Nat.lt_irrefl _ (h.rolledBack _ (.inl hc))⟩
  offers e he := by
    have he' : e ∈ l.commitOffers ∨ e = n := by
      rcases ho with ho | ho
      · exact .inl (ho ▸ he)
      · simpa [ho] using he
    rcases he' with he | rfl
    · exact h.next.offers e he
    · exact ⟨Nat.lt_succ_self _, fun hc => Nat.lt_irrefl _ (h.rolledBack _ (.inr hc))⟩
  rolledBack := h.next.rolledBack
  chunks type id hid := by
    have hmem : ∀ e ∈ l.commitOffers, e ∈ l'.commitOffers := by
      intro e he
      rcases ho with ho | ho <;> rw [ho]
      · exact he
      · exact List.mem_append_left _ he
    rw [hids] at hid
    refine (h.chunks type id hid).imp_right fun ⟨e, he, hb⟩ => ⟨e, he, ?_⟩
    cases type
    · exact ⟨hw ▸ List.mem_append_left _ hb.1, hmem e hb.2.1, hb.2.2⟩
    · exact ⟨hw ▸ List.mem_append_left _ hb.1, hb.2⟩

/-! ### The loop -/

namespace Flush

variable {α : Type} {e : Nat} {key peerId : String}

theorem call_keeps {c : Call} (hc : quiet c = true) :
    Spec (Unhurried items) (Sound items) (Batch items n) (call c) fun _ => Batch items n :=
  Spec.call fun _ _ _ hI _ => ⟨(hI.quiet hc).onlyFound.sound, hI.quiet hc⟩

theorem inactive_keeps :
    Spec (Unhurried items) (Sound items) (Batch items n) (inactive e) fun _ => Batch items n := by
  refine Spec.keep_bind (call_keeps rfl) fun running => Spec.ite (fun _ => ?_) fun _ => ?_
  · exact Spec.keep_bind (call_keeps rfl) fun _ => Spec.pure fun _ _ hI => hI
  · exact Spec.pure fun _ _ hI => hI

theorem blockFifo_keeps :
    Spec (Unhurried items) (Sound items) (Batch items n) blockFifo fun _ => Batch items n :=
  Spec.modify fun _ _ hI => hI.locals rfl rfl hI.chunks

theorem release_blockFifo_keeps :
    Spec (Unhurried items) (Sound items) (Batch items n) (do release e; blockFifo)
      fun _ => Batch items n :=
  Spec.keep_bind (call_keeps rfl) fun _ => blockFifo_keeps

theorem rollbackLate_next {result : Option OutcomeRecordResult} :
    Spec (Unhurried items) (Sound items) (Batch items n) (rollbackLate n result)
      fun _ => Batch items (n + 1) := by
  refine Spec.ite (fun _ => Spec.call fun l t r hI _ => ?_) fun _ => Spec.pure fun _ _ hI => hI.next
  have hnext := hI.undone (r := r) (.inl rfl)
  exact ⟨hnext.onlyFound.sound, hnext⟩

theorem rollbackOnce_next :
    Spec (Unhurried items) (Sound items) (Batch items n) (rollbackOnce n)
      fun _ => Batch items (n + 1) := by
  refine Spec.get fun l => Spec.ite (fun _ => Spec.pure fun _ _ hI => hI.2.next) fun _ => ?_
  refine Spec.bind (Q := fun _ => Batch items n)
    (Spec.modify fun _ _ hI => hI.2.locals rfl rfl hI.2.chunks)
    (fun _ => Spec.call fun l t r hI _ => ?_) fun _ _ hI => hI.next
  have hnext := hI.undone (r := r) (.inr rfl)
  exact ⟨hnext.onlyFound.sound, hnext⟩

/-- What came back is known afterwards; when the adapter threw nothing did. -/
theorem guarded_keeps {failure : AdapterFailure} {m : Flush α} {F : Option α → History → Prop}
    (hF : ∀ r event t, F r t → F r (event :: t))
    (hm : Spec (Unhurried items) (Sound items) (Batch items n) m fun r l t =>
      Batch items n l t ∧ F r t) :
    Spec (Unhurried items) (Sound items) (Batch items n) (guarded failure m) fun r l t =>
      Batch items n l t ∧ F r.join t := by
  refine Spec.bind (Q := fun r l t => Batch items n l t ∧ F r.join t)
    (Spec.attempt hm) (fun result => ?_) fun _ _ hI => hI
  cases result with
  | some a => exact Spec.pure fun _ _ hI => hI
  | none =>
    refine Spec.bind ((call_keeps rfl).frame (F := F none) (hF none)) (fun _ => ?_) fun _ _ hI => hI
    exact Spec.pure fun _ _ hI => hI

/-- A record call leaves a trace of what it recorded. -/
theorem record_keeps {failure : AdapterFailure} {outcome : IngressOutcome} :
    Spec (Unhurried items) (Sound items) (Batch items n)
      (guarded failure (call (.record e key outcome false))) fun r l t =>
        Batch items n l t ∧ ∀ d, r.join = some (.recorded d) → (e, outcome, d) ∈ t.filterMap recorded := by
  refine guarded_keeps (F := fun (r : Option OutcomeRecordResult) t => ∀ d, r = some (.recorded d) →
    (e, outcome, d) ∈ t.filterMap recorded) ?_ (Spec.call fun l t r hI _ => ?_)
  · intro r event t hF d hd
    exact mem_filterMap_cons.mpr (.inr (hF d hd))
  · refine ⟨(hI.quiet rfl).onlyFound.sound, hI.quiet rfl, fun d hd => ?_⟩
    subst hd
    exact mem_filterMap_cons.mpr (.inl rfl)

def writerOptions (peerId : String) : ResultType → ChunkOptions Call Reply Locals
  | .ack => ack peerId
  | .inboundRejected => rejected peerId

theorem writer_eq (type : ResultType) (l : Locals) :
    (writerOptions peerId type).writer l = l.writer type := by
  cases type <;> rfl

/-- A chunk is put back with ids that may stand in it. -/
theorem put_keeps (peerId : String) (type : ResultType) {w : ChunkWriter} (h : Batch items n l t)
    (hids : ∀ x ∈ w.ids, Good items l t type x) :
    Batch items n ((writerOptions peerId type).put w l) t := by
  cases type with
  | ack =>
    refine h.locals rfl rfl fun type x hx => ?_
    cases type with
    | ack => exact hids x hx
    | inboundRejected => exact h.chunks .inboundRejected x hx
  | inboundRejected =>
    refine h.locals rfl rfl fun type x hx => ?_
    cases type with
    | ack => exact h.chunks .ack x hx
    | inboundRejected => exact hids x hx

theorem put_good {type type' : ResultType} {w : ChunkWriter} (h : Good items l t type' id) :
    Good items ((writerOptions peerId type).put w l) t type' id := by
  cases type <;> exact h

/-- A chunk that is full is published as it is. -/
theorem publish_keeps {type : ResultType} {frame : IngressResultFrame} {w : ChunkWriter} :
    Spec (Unhurried items) (Sound items)
      (fun l t => (writerOptions peerId type).writer l = w ∧ Batch items n l t ∧ Good items l t type id)
      ((writerOptions peerId type).publish .add frame) fun _ l t =>
        (writerOptions peerId type).writer l = w ∧ Batch items n l t ∧ Good items l t type id := by
  cases type with
  | ack =>
    refine Spec.call fun l t r hI hok => ?_
    have hb := hI.2.1.chunk hok rfl fun type f hf => (published_sendAck hf).2.1
    exact ⟨hb.onlyFound.sound, hI.1, hb, hI.2.2.cons⟩
  | inboundRejected =>
    refine Spec.call fun l t r hI hok => ?_
    have hb := hI.2.1.chunk hok rfl fun type f hf => (published_sendInboundRejected hf).2.1
    exact ⟨hb.onlyFound.sound, hI.1, hb, hI.2.2.cons⟩

theorem measure_keeps {type : ResultType} {frame : IngressResultFrame} {w : ChunkWriter} :
    Spec (Unhurried items) (Sound items)
      (fun l t => (writerOptions peerId type).writer l = w ∧ Batch items n l t ∧ Good items l t type id)
      ((writerOptions peerId type).measureWireBytes frame) fun _ l t =>
        (writerOptions peerId type).writer l = w ∧ Batch items n l t ∧ Good items l t type id := by
  have hcall : (writerOptions peerId type).measureWireBytes frame =
      call (.measureResultWireBytes peerId frame) := by cases type <;> rfl
  rw [hcall]
  exact Spec.call fun l t r hI _ =>
    ⟨(hI.2.1.quiet rfl).onlyFound.sound, hI.1, hI.2.1.quiet rfl, hI.2.2.cons⟩

theorem tooSmall_keeps {type : ResultType} :
    Spec (Unhurried items) (Sound items) (fun l t => Batch items n l t ∧ Good items l t type id)
      (writerOptions peerId type).onTooSmall fun _ l t =>
        Batch items n l t ∧ Good items l t type id := by
  have hcall : (writerOptions peerId type).onTooSmall = call (.logWarn .resultTooSmall) := by
    cases type <;> rfl
  rw [hcall]
  exact Spec.call fun l t r hI _ => ⟨(hI.1.quiet rfl).onlyFound.sound, hI.1.quiet rfl, hI.2.cons⟩

/-- An id that may stand in a chunk can be added, whatever gets published meanwhile. -/
theorem add_keeps (type : ResultType) :
    Spec (Unhurried items) (Sound items)
      (fun l t => Batch items n l t ∧ Good items l t type id)
      ((writerOptions peerId type).add (some id)) fun _ l t =>
        Batch items n l t ∧ Good items l t type id := by
  apply ChunkOptions.Allows.add
  refine ⟨fun w => publish_keeps, fun w frame => measure_keeps, tooSmall_keeps, ?_⟩
  rintro w l t ⟨hb, hg⟩ hw
  refine ⟨put_keeps _ _ hb fun x hx => ?_, put_good hg⟩
  rw [writer_eq] at hw
  rcases hw x hx with hx | rfl
  · exact hb.chunks type x hx
  · exact hg

/-- An entry that is left for later. -/
theorem setAside_next {result : Option OutcomeRecordResult} :
    Spec (Unhurried items) (Sound items) (Batch items n)
      (do rollbackLate n result; release n; blockFifo) fun _ => Batch items (n + 1) :=
  Spec.bind rollbackLate_next (fun _ => release_blockFifo_keeps) fun _ _ hI => hI

theorem recordOverloaded_next (hid : idAt items n = some id) :
    Spec (Unhurried items) (Sound items) (Batch items n) (recordOverloaded peerId n key id)
      fun _ => Batch items (n + 1) := by
  refine Spec.bind record_keeps (fun result => ?_) fun _ _ hI => hI.1.next
  refine Spec.bind (inactive_keeps.frame ?_) (fun gone => ?_) fun _ _ hI => hI.1.next
  · intro event t hF d hd
    exact mem_filterMap_cons.mpr (.inr (hF d hd))
  refine Spec.ite (fun _ => setAside_next.pre fun _ _ hI => hI.1) fun _ => ?_
  refine Spec.ite (fun hrec => ?_) fun _ => setAside_next.pre fun _ _ hI => hI.1
  refine Spec.bind (Q := fun _ l t => Batch items (n + 1) l t ∧ Good items l t .inboundRejected id)
    (Spec.modify ?_) (fun _ => ?_) fun _ _ hI => hI.1
  · rintro l t ⟨hb, hF⟩
    refine ⟨hb.push rfl (.inl rfl) fun type => by cases type <;> rfl, .inr ⟨n, hid, ?_⟩⟩
    exact ⟨by simp, _, hF .durable (by rw [hrec]; rfl), rfl, rfl⟩
  · exact Spec.bind (add_keeps .inboundRejected) (fun _ => Spec.pure fun _ _ hI => hI.1)
      fun _ _ hI => hI.1

theorem exists_recorded {result : Option OutcomeRecordResult} (h : wasRecorded result = true) :
    ∃ d, result = some (.recorded d) := by
  rcases result with _ | d | _
  · cases h
  · exact ⟨d, rfl⟩
  · cases h

theorem recordAccepted_next (hid : idAt items n = some id) :
    Spec (Unhurried items) (Sound items) (Batch items n) (recordAccepted peerId n key id)
      fun _ => Batch items (n + 1) := by
  refine Spec.bind (Q := fun _ => Batch items n)
    (Spec.modify fun _ _ hI => hI.locals rfl rfl hI.chunks) (fun _ => ?_) fun _ _ hI => hI.next
  refine Spec.bind record_keeps (fun result => ?_) fun _ _ hI => hI.1.next
  refine Spec.bind (inactive_keeps.frame ?_) (fun gone => ?_) fun _ _ hI => hI.1.next
  · intro event t hF d hd
    exact mem_filterMap_cons.mpr (.inr (hF d hd))
  refine Spec.ite (fun _ => ?_) fun _ => Spec.ite (fun hrec => ?_) fun _ => ?_
  · exact Spec.bind (rollbackLate_next.pre fun _ _ hI => hI.1) (fun _ => blockFifo_keeps)
      fun _ _ hI => hI
  · refine Spec.bind (Q := fun _ l t => Batch items (n + 1) l t ∧ Good items l t .ack id)
      (Spec.modify ?_) (fun _ => ?_) fun _ _ hI => hI.1
    · rintro l t ⟨hb, hF⟩
      obtain ⟨d, rfl⟩ := exists_recorded hrec
      refine ⟨hb.push rfl (.inr rfl) fun type => by cases type <;> rfl, .inr ⟨n, hid, ?_⟩⟩
      exact ⟨by simp, by simp, _, hF d rfl, rfl, rfl⟩
    · exact Spec.bind (add_keeps .ack) (fun _ => Spec.pure fun _ _ hI => hI.1) fun _ _ hI => hI.1
  · exact Spec.bind (rollbackOnce_next.pre fun _ _ hI => hI.1) (fun _ => blockFifo_keeps)
      fun _ _ hI => hI

theorem offerFresh_next (hid : idAt items n = some id) :
    Spec (Unhurried items) (Sound items) (Batch items n) (offerFresh peerId n key id)
      fun _ => Batch items (n + 1) := by
  refine Spec.bind (call_keeps rfl) (fun offer => ?_) fun _ _ hI => hI.next
  cases offer with
  | disposed => exact (call_keeps rfl).post fun _ _ _ hI => hI.next
  | rejected => exact recordOverloaded_next hid
  | accepted => exact recordAccepted_next hid

/-- A lookup leaves a trace of what it found. -/
theorem lookup_keeps :
    Spec (Unhurried items) (Sound items) (Batch items n)
      (guarded .lookup (call (.lookup e key))) fun r l t =>
        Batch items n l t ∧ ∀ outcome, r.join = some (.found outcome) →
          (e, outcome) ∈ t.filterMap found := by
  refine guarded_keeps (F := fun (r : Option OutcomeLookup) t => ∀ outcome,
    r = some (.found outcome) → (e, outcome) ∈ t.filterMap found) ?_ (Spec.call fun l t r hI _ => ?_)
  · intro r event t hF outcome ho
    exact mem_filterMap_cons.mpr (.inr (hF outcome ho))
  · refine ⟨(hI.quiet rfl).onlyFound.sound, hI.quiet rfl, fun outcome ho => ?_⟩
    subst ho
    exact mem_filterMap_cons.mpr (.inl rfl)

theorem addFound_next (type : ResultType) :
    Spec (Unhurried items) (Sound items)
      (fun l t => Batch items n l t ∧ FoundAs items t (outcomeOf type) id)
      ((writerOptions peerId type).add (some id)) fun _ => Batch items (n + 1) := by
  refine ((add_keeps (n := n) type).pre ?_).post fun _ _ _ hI => hI.1.next
  exact fun _ _ hI => ⟨hI.1, .inl (.inr hI.2)⟩

theorem classify_next (hid : idAt items n = some id) :
    Spec (Unhurried items) (Sound items) (Batch items n) (classify peerId n key id)
      fun _ => Batch items (n + 1) := by
  refine Spec.bind lookup_keeps (fun existing => ?_) fun _ _ hI => hI.1.next
  have hstable : ∀ (event : Event Call Reply) (t : History),
      (∀ outcome, existing = some (.found outcome) → (n, outcome) ∈ t.filterMap found) →
      ∀ outcome, existing = some (.found outcome) → (n, outcome) ∈ (event :: t).filterMap found :=
    fun event t hF outcome ho => mem_filterMap_cons.mpr (.inr (hF outcome ho))
  have haside : Spec (Unhurried items) (Sound items) (fun l t => Batch items n l t ∧
      ∀ outcome, existing = some (.found outcome) → (n, outcome) ∈ t.filterMap found)
      (do release n; blockFifo) fun _ => Batch items (n + 1) :=
    (release_blockFifo_keeps.pre fun _ _ hI => hI.1).post fun _ _ _ hI => hI.next
  refine Spec.bind (inactive_keeps.frame hstable) (fun gone => ?_) fun _ _ hI => hI.1.next
  refine Spec.ite (fun _ => haside) fun _ => ?_
  match existing, hstable, haside with
  | none, _, haside => exact haside
  | some (.unknown _), _, haside => exact haside
  | some .notFound, _, _ => exact (offerFresh_next hid).pre fun _ _ hI => hI.1
  | some (.found outcome), hstable, _ =>
    refine Spec.bind ((call_keeps rfl).frame hstable) (fun _ => ?_) fun _ _ hI => hI.1.next
    have hfound (t : History) (h : ∀ o, some (OutcomeLookup.found outcome) = some (.found o) →
        (n, o) ∈ t.filterMap found) : FoundAs items t outcome id :=
      ⟨_, h outcome rfl, rfl, hid⟩
    cases outcome with
    | accepted =>
      refine Spec.bind ((addFound_next .ack).pre fun _ t hI => ⟨hI.1, hfound t hI.2⟩) (fun _ => ?_)
        fun _ _ hI => hI
      exact Spec.pure fun _ _ hI => hI
    | overloaded =>
      refine Spec.bind ((addFound_next .inboundRejected).pre fun _ t hI => ⟨hI.1, hfound t hI.2⟩)
        (fun _ => ?_) fun _ _ hI => hI
      exact Spec.pure fun _ _ hI => hI

theorem retryFallback_keeps :
    Spec (Unhurried items) (Sound items) (Batch items n) (retryFallback e key)
      fun _ => Batch items n := by
  have hwarn : Spec (Unhurried items) (Sound items) (Batch items n)
      (call (.logWarn .fallbackRetryFailed)) fun _ => Batch items n := call_keeps rfl
  refine Spec.keep_bind (Spec.attempt ?_) fun result => ?_
  · refine Spec.keep_bind (call_keeps rfl) fun result => ?_
    refine Spec.ite (fun _ => Spec.pure fun _ _ hI => hI) fun _ => ?_
    exact Spec.keep_bind hwarn fun _ => Spec.pure fun _ _ hI => hI
  · refine Spec.ite (fun _ => ?_) fun _ => Spec.pure fun _ _ hI => hI
    exact Spec.keep_bind hwarn fun _ => Spec.pure fun _ _ hI => hI

/-- The message was cancelled before, so its ACK needs nothing of this batch. -/
theorem sendFallback_keeps :
    Spec (Unhurried items) (Sound items) (fun l t => Batch items n l t ∧ Tombstoned items t id)
      (call (.sendAck .fallback peerId [id])) fun _ => Batch items n := by
  refine Spec.call fun l t r hI _ => ?_
  have hb : Batch items n l (⟨.sendAck .fallback peerId [id], r⟩ :: t) := by
    refine hI.1.cons rfl fun type f hf => ?_
    obtain ⟨rfl, hsite, hids⟩ := published_sendAck hf
    constructor
    · rw [hsite]
      decide
    · intro x hx
      obtain rfl : x = id := by simpa [hids] using hx
      exact .inl ⟨rfl, hI.2.cons⟩
  exact ⟨hb.onlyFound.sound, hb⟩

theorem fallback_next {item : IngressDedupeItem} :
    Spec (Unhurried items) (Sound items) (fun l t => Batch items n l t ∧ Tombstoned items t id)
      (fallback item n key id) fun _ => Batch items (n + 1) := by
  have hstable : ∀ (event : Event Call Reply) (t : History), Tombstoned items t id →
      Tombstoned items (event :: t) id := fun _ _ h => h.cons
  refine Spec.bind (retryFallback_keeps.frame hstable) (fun result => ?_) fun _ _ hI => hI.1.next
  refine Spec.bind (inactive_keeps.frame hstable) (fun gone => ?_) fun _ _ hI => hI.1.next
  refine Spec.ite (fun _ => setAside_next.pre fun _ _ hI => hI.1) fun _ => ?_
  refine Spec.ite (fun _ => ?_) fun _ => ?_
  · refine Spec.bind ((call_keeps rfl).frame hstable) (fun _ => ?_) fun _ _ hI => hI.1.next
    refine Spec.bind sendFallback_keeps (fun acked => ?_) fun _ _ hI => hI.next
    refine (Spec.ite (fun _ => ?_) fun _ => ?_ : Spec (Unhurried items) (Sound items)
      (Batch items n) _ fun _ => Batch items n).post fun _ _ _ hI => hI.next
    · exact Spec.keep_bind (call_keeps rfl) fun _ => call_keeps rfl
    · exact Spec.keep_bind (call_keeps rfl) fun _ => call_keeps rfl
  · exact (release_blockFifo_keeps.pre fun _ _ hI => hI.1).post fun _ _ _ hI => hI.next

theorem offerBare_keeps :
    Spec (Unhurried items) (Sound items) (Batch items n) (offerBare e) fun _ => Batch items n := by
  refine Spec.keep_bind (call_keeps rfl) fun offer => ?_
  exact Spec.ite (fun _ => call_keeps rfl) fun _ => call_keeps rfl

theorem ingressDedupeKey_id {item : IngressDedupeItem} (h : ingressDedupeKey item = some key) :
    item.id = some (item.id.getD "") := by
  unfold ingressDedupeKey at h
  cases hid : item.id with
  | none => simp [hid] at h
  | some id => rfl

theorem flushEntry_next {item : IngressDedupeItem} (hitem : items[n]? = some item) :
    Spec (Unhurried items) (Sound items) (Batch items n) (flushEntry peerId (item, n))
      fun _ => Batch items (n + 1) := by
  refine Spec.get fun l => Spec.ite (fun _ => ?_) fun _ => ?_
  · exact ((call_keeps rfl).pre fun _ _ hI => hI.2).post fun _ _ _ hI => hI.next
  refine Spec.bind (inactive_keeps.pre fun _ _ hI => hI.2) (fun gone => ?_) fun _ _ hI => hI.next
  refine Spec.ite (fun _ => release_blockFifo_keeps.post fun _ _ _ hI => hI.next) fun _ => ?_
  cases hkey : ingressDedupeKey item with
  | none => exact offerBare_keeps.post fun _ _ _ hI => hI.next
  | some key =>
    have hid := ingressDedupeKey_id hkey
    have hat : idAt items n = some (item.id.getD "") := by rw [idAt, hitem, Option.bind_some, hid]; rfl
    have hhas : Spec (Unhurried items) (Sound items) (Batch items n) (call (.hasFallback key))
        fun r l t => Batch items n l t ∧ (r = some true → Tombstoned items t (item.id.getD "")) := by
      refine Spec.call fun l t r hI _ => ⟨(hI.quiet rfl).onlyFound.sound, hI.quiet rfl, fun hr => ?_⟩
      subst hr
      exact ⟨item, List.mem_of_getElem? hitem, hid, key, mem_filterMap_cons.mpr (.inl rfl), hkey⟩
    refine Spec.bind hhas (fun cancelled => ?_) fun _ _ hI => hI.1.next
    refine Spec.ite (fun hc => ?_) fun _ => (classify_next hat).pre fun _ _ hI => hI.1
    exact fallback_next.pre fun _ _ hI => ⟨hI.1, hI.2 (congrArg some hc)⟩

theorem loop_next {items' : List IngressDedupeItem} (hitems : items' = items) :
    Spec (Unhurried items) (Sound items) (Batch items 0)
      (Code.each (flushEntry peerId) items'.zipIdx) fun r l t =>
        r.elim (OnlyFound items t) fun _ => Batch items items.length l t := by
  subst hitems
  have hround : ∀ b ∈ items'.zipIdx, Spec (Unhurried items') (Sound items') (Batch items' b.2)
      (flushEntry peerId b) fun r l t => r.elim (OnlyFound items' t) fun _ =>
        Batch items' (b.2 + 1) l t := by
    intro b hb
    refine (flushEntry_next (List.mem_zipIdx_iff_getElem?.mp hb)).post fun r l t hI => ?_
    cases r with
    | none => exact hI.onlyFound
    | some _ => exact hI
  simpa using Spec.each_zipIdx hround

/-! ### The end of a batch -/

theorem silent_keeps {c : Call} (hc : silent c = true) :
    Spec (Unhurried items) (Sound items) (fun _ t => OnlyFound items t) (call c)
      fun _ _ t => OnlyFound items t := by
  refine Spec.call fun _ _ r hI _ => ?_
  have hnext := hI.cons fun type => published_silent hc type r
  exact ⟨hnext.sound, hnext⟩

theorem rollbackWrites_keeps :
    Spec (Unhurried items) (Sound items) (fun _ t => OnlyFound items t) rollbackWrites
      fun _ _ t => OnlyFound items t :=
  Spec.get fun _ => (Spec.keep_each fun _ _ => silent_keeps rfl).pre fun _ _ hI => hI.2

theorem rollbackOffers_keeps :
    Spec (Unhurried items) (Sound items) (fun _ t => OnlyFound items t) rollbackOffers
      fun _ _ t => OnlyFound items t := by
  refine Spec.get fun _ => (Spec.keep_each fun _ _ => ?_).pre fun _ _ hI => hI.2
  refine Spec.get fun _ => Spec.ite (fun _ => Spec.pure fun _ _ hI => hI.2) fun _ => ?_
  exact Spec.bind (Q := fun _ _ t => OnlyFound items t) (Spec.modify fun _ _ hI => hI.2)
    (fun _ => silent_keeps rfl) fun _ _ hI => hI

theorem releaseDeferred_keeps :
    Spec (Unhurried items) (Sound items) (fun _ t => OnlyFound items t) releaseDeferred
      fun _ _ t => OnlyFound items t :=
  Spec.get fun _ => (Spec.keep_each fun _ _ => silent_keeps rfl).pre fun _ _ hI => hI.2

theorem rollbackBatch_keeps :
    Spec (Unhurried items) (Sound items) (fun _ t => OnlyFound items t) rollbackBatch
      fun _ _ t => OnlyFound items t :=
  Spec.keep_bind rollbackWrites_keeps fun _ => Spec.keep_bind rollbackOffers_keeps fun _ =>
    releaseDeferred_keeps

theorem cancelledOf_keeps (es : List Nat) :
    Spec (Unhurried items) (Sound items) (fun _ t => OnlyFound items t) (cancelledOf es)
      fun _ _ t => OnlyFound items t := by
  induction es with
  | nil => exact Spec.pure fun _ _ hI => hI
  | cons e es ih =>
    exact Spec.keep_bind (silent_keeps rfl) fun _ =>
      Spec.keep_bind ih fun _ => Spec.pure fun _ _ hI => hI

theorem isInvalidated_keeps (es : List Nat) :
    Spec (Unhurried items) (Sound items) (Batch items n) (isInvalidated es)
      fun _ => Batch items n := by
  refine Spec.keep_bind (call_keeps rfl) fun running => Spec.ite (fun _ => ?_) fun _ => ?_
  · refine Spec.anyOf fun _ _ => Spec.keep_bind (call_keeps rfl) fun _ => ?_
    exact Spec.pure fun _ _ hI => hI
  · exact Spec.pure fun _ _ hI => hI

/-- A throw after the commits rolls offers back, but then no published result rested on them. -/
theorem threw_onlyFound {c : Call} (h : Settled items l t) (hok : Unhurried items t ⟨c, none⟩) :
    OnlyFound items (⟨c, none⟩ :: t) :=
  (h.early.onlyFound (hok.2 rfl)).cons published_threw

theorem settled_call {c : Call} (hc : quiet c = true) :
    Spec (Unhurried items) (Sound items) (Settled items) (call c) fun r l t =>
      r.elim (OnlyFound items t) fun _ => Settled items l t := by
  refine Spec.call fun l t r hI hok => ⟨(hI.quiet hc).sound, ?_⟩
  cases r with
  | none => exact threw_onlyFound hI hok
  | some r => exact hI.quiet hc

/-- The last chunk of a writer is published. -/
theorem settled_publish {type : ResultType} {ids : List String} :
    Spec (Unhurried items) (Sound items)
      (fun l t => (∀ id ∈ ids, Good items l t type id) ∧ Settled items l t)
      ((writerOptions peerId type).publish .finish ⟨type, ids⟩) fun r l t =>
        r.elim (OnlyFound items t) fun _ => Settled items l t := by
  cases type with
  | ack =>
    refine Spec.call fun l t r hI hok => ?_
    have hs : Settled items l (⟨.sendAck .finish peerId ids, r⟩ :: t) := by
      refine hI.2.cons rfl fun type f hf => ?_
      obtain ⟨rfl, hsite, hids⟩ := published_sendAck hf
      exact ⟨hsite, fun x hx => (hI.1 x (hids ▸ hx)).cons⟩
    refine ⟨hs.sound, ?_⟩
    cases r with
    | none => exact threw_onlyFound hI.2 hok
    | some _ => exact hs
  | inboundRejected =>
    refine Spec.call fun l t r hI hok => ?_
    have hs : Settled items l (⟨.sendInboundRejected .finish peerId ids, r⟩ :: t) := by
      refine hI.2.cons rfl fun type f hf => ?_
      obtain ⟨rfl, hsite, hids⟩ := published_sendInboundRejected hf
      exact ⟨hsite, fun x hx => (hI.1 x (hids ▸ hx)).cons⟩
    refine ⟨hs.sound, ?_⟩
    cases r with
    | none => exact threw_onlyFound hI.2 hok
    | some _ => exact hs

theorem settled_put {type : ResultType} {w : ChunkWriter} (h : Settled items l t) (hw : w.ids = []) :
    Settled items ((writerOptions peerId type).put w l) t := by
  cases type with
  | ack =>
    refine ⟨h.early, h.last, h.writes, h.offers, fun type x hx => ?_⟩
    cases type with
    | ack => exact absurd hx (by simp [Locals.writer, writerOptions, ack, hw])
    | inboundRejected => exact h.chunks .inboundRejected x hx
  | inboundRejected =>
    refine ⟨h.early, h.last, h.writes, h.offers, fun type x hx => ?_⟩
    cases type with
    | ack => exact h.chunks .ack x hx
    | inboundRejected => exact absurd hx (by simp [Locals.writer, writerOptions, rejected, hw])

theorem settled_flush (type : ResultType) :
    Spec (Unhurried items) (Sound items) (Settled items) ((writerOptions peerId type).flush .finish)
      fun r l t => r.elim (OnlyFound items t) fun _ => Settled items l t := by
  refine Spec.get fun l => Spec.ite (fun _ => Spec.pure fun _ _ hI => hI.2) fun _ => ?_
  have hframe : (writerOptions peerId type).frameFor ((writerOptions peerId type).writer l).ids =
      ⟨type, (l.writer type).ids⟩ := by
    rw [writer_eq]
    cases type <;> rfl
  rw [hframe]
  refine Spec.bind (settled_publish.pre ?_) (fun sent => ?_) fun _ _ hI => hI
  · rintro l' t ⟨rfl, hI⟩
    exact ⟨hI.chunks type, hI⟩
  · exact Spec.bind (Q := fun r l t => r.elim (OnlyFound items t) fun _ => Settled items l t)
      (Spec.modify fun _ _ hI => settled_put hI rfl) (fun _ => Spec.pure fun _ _ hI => hI)
      fun _ _ hI => hI

theorem settled_finish (type : ResultType) :
    Spec (Unhurried items) (Sound items) (Settled items) ((writerOptions peerId type).finish)
      fun r l t => r.elim (OnlyFound items t) fun _ => Settled items l t := by
  refine Spec.bind (settled_flush type) (fun _ => ?_) fun _ _ hI => hI
  exact Spec.get fun _ => Spec.pure fun _ _ hI => hI.2

theorem commit_returned {l₀ : Locals} {c : Call} (hc : quiet c = true) :
    Spec (Unhurried items) (Sound items) (fun l t => l = l₀ ∧ Batch items n l t) (call c)
      fun r l t => (l = l₀ ∧ Batch items n l t) ∧ (r.isSome = true → t.Returned c) :=
  Spec.call fun _ _ _ hI _ => ⟨(hI.2.quiet hc).onlyFound.sound, ⟨hI.1, hI.2.quiet hc⟩,
    fun hr => ⟨_, .head _, rfl, hr⟩⟩

theorem commitWrites_returned {l₀ : Locals} :
    Spec (Unhurried items) (Sound items) (fun l t => l = l₀ ∧ Batch items n l t)
      (Code.each (fun e => call (.commitWrite e)) l₀.pendingWrites)
      fun r l t => (l = l₀ ∧ Batch items n l t) ∧
        (r = some () → ∀ e ∈ l₀.pendingWrites, t.Returned (.commitWrite e)) := by
  refine Spec.each_collect (fun e event t h => h.cons event) fun e _ => ?_
  exact (commit_returned rfl).post fun r l t hI => ⟨hI.1, fun hr => hI.2 (by rw [hr]; rfl)⟩

/-- With the second of the two loops the batch is settled. -/
theorem commitOffers_settled {l₀ : Locals} :
    Spec (Unhurried items) (Sound items)
      (fun l t => (l = l₀ ∧ Batch items n l t) ∧ ∀ e ∈ l₀.pendingWrites, t.Returned (.commitWrite e))
      (Code.each (fun e => call (.commitOffer e)) l₀.commitOffers)
      fun r l t => r.elim (OnlyFound items t) fun _ => Settled items l t := by
  have hoffers : Spec (Unhurried items) (Sound items) (fun l t => l = l₀ ∧ Batch items n l t)
      (Code.each (fun e => call (.commitOffer e)) l₀.commitOffers)
      fun r l t => (l = l₀ ∧ Batch items n l t) ∧
        (r = some () → ∀ e ∈ l₀.commitOffers, t.Returned (.commitOffer e)) := by
    refine Spec.each_collect (fun e event t h => h.cons event) fun e _ => ?_
    exact (commit_returned rfl).post fun r l t hI => ⟨hI.1, fun hr => hI.2 (by rw [hr]; rfl)⟩
  refine (hoffers.frame fun event t h e he => (h e he).cons event).post ?_
  rintro (_ | _) l t ⟨⟨⟨rfl, hb⟩, ho⟩, hw⟩
  · exact hb.onlyFound
  · exact ⟨hb.early, fun type f hf hsite => absurd hsite (hb.undecided type f hf),
      fun e he => ⟨hw e he, (hb.writes e he).2⟩, fun e he => ⟨ho rfl e he, (hb.offers e he).2⟩,
      hb.chunks⟩

theorem releaseDeferred_settled :
    Spec (Unhurried items) (Sound items) (Settled items) releaseDeferred fun r l t =>
      r.elim (OnlyFound items t) fun _ => Settled items l t :=
  Spec.get fun _ => (Spec.each fun _ _ => settled_call rfl).pre fun _ _ hI => hI.2

variable (items) in
/-- What is known when the flush is about to enter its `finally` block. -/
def Ended : Option FlushEnd → Locals → History → Prop
  | some .published, l, t => Settled items l t ∧ l.finalized = true
  | _, _, t => OnlyFound items t

theorem publish_ends :
    Spec (Unhurried items) (Sound items) (Batch items n) (publish peerId) (Ended items) := by
  refine Spec.get fun l₀ => ?_
  refine Spec.bind commitWrites_returned (fun _ => ?_) fun _ _ hI => hI.1.2.onlyFound
  refine Spec.bind (commitOffers_settled.pre fun _ _ hI => ⟨hI.1, hI.2 rfl⟩) (fun _ => ?_)
    fun _ _ hI => hI
  refine Spec.bind (settled_finish .ack) (fun _ => ?_) fun _ _ hI => hI
  refine Spec.bind (settled_finish .inboundRejected) (fun _ => ?_) fun _ _ hI => hI
  refine Spec.bind releaseDeferred_settled (fun _ => ?_) fun _ _ hI => hI
  refine Spec.bind (Q := fun r l t => r.elim (OnlyFound items t) fun _ =>
    Settled items l t ∧ l.finalized = true) (Spec.modify fun l t hI => ?_)
    (fun _ => Spec.pure fun _ _ hI => hI) fun _ _ hI => hI
  exact ⟨⟨hI.early, hI.last, hI.writes, hI.offers, hI.chunks⟩, rfl⟩

theorem invalidate_ends (es : List Nat) :
    Spec (Unhurried items) (Sound items) (fun _ t => OnlyFound items t) (invalidate es)
      (Ended items) := by
  refine Spec.bind rollbackWrites_keeps (fun _ => ?_) fun _ _ hI => hI
  refine Spec.bind (cancelledOf_keeps es) (fun _ => ?_) fun _ _ hI => hI
  refine Spec.bind (silent_keeps rfl) (fun _ => ?_) fun _ _ hI => hI
  refine Spec.bind rollbackOffers_keeps (fun _ => ?_) fun _ _ hI => hI
  refine Spec.bind releaseDeferred_keeps (fun _ => ?_) fun _ _ hI => hI
  exact Spec.bind (Q := fun _ _ t => OnlyFound items t) (Spec.modify fun _ _ hI => hI)
    (fun _ => Spec.pure fun _ _ hI => hI) fun _ _ hI => hI

theorem arbitrate_ends :
    Spec (Unhurried items) (Sound items) (Batch items 0) (arbitrate peerId items) (Ended items) := by
  refine Spec.bind (loop_next rfl) (fun _ => ?_) fun _ _ hI => hI
  refine Spec.bind (isInvalidated_keeps _) (fun gone => ?_) fun _ _ hI => hI.onlyFound
  refine Spec.ite (fun _ => ?_) fun _ => publish_ends
  exact (invalidate_ends _).pre fun _ _ hI => hI.onlyFound

variable (items) in
/-- What is known when the flush has ended, by a throw if there is no result. -/
def Concluded : Option FlushEnd → Locals → History → Prop
  | some .published, _, t => Sound items t
  | _, _, t => OnlyFound items t

theorem conclude_keeps :
    Spec (Unhurried items) (Sound items) (fun _ t => OnlyFound items t) conclude
      fun _ _ t => OnlyFound items t := by
  refine Spec.get fun l => Spec.ite (fun _ => (silent_keeps rfl).pre fun _ _ hI => hI.2) fun _ => ?_
  refine Spec.bind (rollbackBatch_keeps.pre fun _ _ hI => hI.2) (fun _ => ?_) fun _ _ hI => hI
  exact silent_keeps rfl

theorem conclude_ends (r : Option FlushEnd) :
    Spec (Unhurried items) (Sound items) (Ended items r) conclude fun q l t =>
      Concluded items (q.bind fun _ => r) l t := by
  have hother (h : ∀ l t, Ended items r l t → OnlyFound items t)
      (hr : ∀ l t, OnlyFound items t → Concluded items r l t) :
      Spec (Unhurried items) (Sound items) (Ended items r) conclude fun q l t =>
        Concluded items (q.bind fun _ => r) l t := by
    refine (conclude_keeps.pre h).post fun q l t hI => ?_
    cases q with
    | none => exact hI
    | some _ => exact hr l t hI
  match r with
  | none => exact hother (fun _ _ h => h) fun _ _ h => h
  | some .inactive => exact hother (fun _ _ h => h) fun _ _ h => h
  | some .nothing => exact hother (fun _ _ h => h) fun _ _ h => h
  | some .invalidated => exact hother (fun _ _ h => h) fun _ _ h => h
  | some .published =>
    refine Spec.get fun l => Spec.ite (fun _ => ?_) fun hopen => ?_
    · refine ((settled_call rfl).pre fun _ _ hI => hI.2.1).post fun q l t hI => ?_
      cases q with
      | none => exact hI
      | some _ => exact hI.sound
    · intro l' t hI
      exact absurd (hI.1 ▸ hI.2.2) hopen

theorem createWriter_keeps :
    Spec (Unhurried items) (Sound items) (Batch items n) createWriter fun r l t =>
      Batch items n l t ∧ ∀ w, r = some w → w.ids = [] := by
  refine Spec.bind (call_keeps rfl) (fun limit => ?_) fun _ _ hI => ⟨hI, fun _ h => by cases h⟩
  cases chunkLimits none none limit with
  | none => exact Spec.throw fun _ _ hI => ⟨hI, fun _ h => by cases h⟩
  | some limits => exact Spec.pure fun _ _ hI => ⟨hI, fun w h => by cases h; rfl⟩

theorem onFlush_concludes :
    Spec (Unhurried items) (Sound items) (Batch items 0) (onFlush items) (Concluded items) := by
  have hthrow : ∀ l t, Batch items 0 l t → Concluded items none l t := fun _ _ hI => hI.onlyFound
  refine Spec.bind (call_keeps rfl) (fun running => ?_) hthrow
  refine Spec.ite (fun _ => ?_) fun _ => Spec.pure fun _ _ hI => hI.onlyFound
  match items with
  | [] => exact Spec.pure fun _ _ hI => hI.onlyFound
  | anchor :: rest =>
    refine Spec.bind (call_keeps rfl) (fun _ => ?_) hthrow
    refine Spec.bind createWriter_keeps (fun w => ?_) fun l t hI => hthrow l t hI.1
    refine Spec.bind (Q := fun _ => Batch (anchor :: rest) 0) (Spec.modify fun l t hI => ?_)
      (fun _ => ?_) hthrow
    · exact put_keeps "" .ack hI.1 (by simp [hI.2 w rfl])
    refine Spec.bind createWriter_keeps (fun w => ?_) fun l t hI => hthrow l t hI.1
    refine Spec.bind (Q := fun _ => Batch (anchor :: rest) 0) (Spec.modify fun l t hI => ?_)
      (fun _ => ?_) hthrow
    · exact put_keeps "" .inboundRejected hI.1 (by simp [hI.2 w rfl])
    exact Spec.tryFinally arbitrate_ends conclude_ends

end Flush

theorem Batch.start : Batch items 0 .create [] where
  early _ _ hf := by cases hf
  undecided _ _ hf := by cases hf
  writes _ he := by cases he
  offers _ he := by cases he
  rolledBack _ he := by rcases he with ⟨_, he, _⟩ | ⟨_, he, _⟩ <;> cases he
  chunks type _ hid := by cases type <;> cases hid

/-- In every run that publishes no undecided result and does not throw after its last ones,
every result is sound at every moment, and a batch that ends invalidated or by a throw has
published only what it found. -/
theorem flush_results_sound (items : List IngressDedupeItem)
    {c : Config Call Reply (Option FlushEnd × Locals)}
    (h : ReachedBy Config.step (fun c event => Unhurried items c.trace event)
      (Config.start (onFlush items)) c) :
    Sound items c.trace ∧ ∀ l, c.prog = .done (none, l) ∨ c.prog = .done (some .invalidated, l) →
      OnlyFound items c.trace := by
  have hsafe : (onFlush items).Safe (Unhurried items) (Sound items)
      (fun r => Flush.Concluded items r.1 r.2) [] := Flush.onFlush_concludes _ _ Batch.start
  obtain ⟨hsound, hrest⟩ := hsafe.reached Batch.start.onlyFound.sound h
  refine ⟨hsound, fun l hend => ?_⟩
  rcases hend with hend | hend
  · rw [hend] at hrest
    exact hrest
  · rw [hend] at hrest
    exact hrest

/-- A call that comes back with an answer. -/
def answered (c : Call) (r : Reply c) : Event Call Reply := ⟨c, some r⟩

/-- A batch is opened; no more than `limit` bytes go through. -/
def opened (limit : Nat) : List (Event Call Reply) :=
  [answered .isActive true, answered (.beginBatch "p") (),
    answered .effectiveOutboundLimit (some (.ofNat limit)),
    answered .effectiveOutboundLimit (some (.ofNat limit))]

/-- The lookup of an entry that is still active finds nothing. -/
def notFound (e : Nat) (key : String) : List (Event Call Reply) :=
  [answered .isActive true, answered (.entryIsActive e) true, answered (.hasFallback key) false,
    answered (.lookup e key) .notFound]

/-- Then it is admitted and recorded, and the chunk with it has a size. -/
def admitted (e : Nat) (key : String) (ids : List String) (bytes : Nat) : List (Event Call Reply) :=
  [answered .isActive true, answered (.entryIsActive e) true, answered (.offer e) .accepted,
    answered (.record e key .accepted false) (.recorded .durable), answered .isActive true,
    answered (.entryIsActive e) true,
    answered (.measureResultWireBytes "p" ⟨.ack, ids⟩) (.ofNat bytes)]

theorem flush_results_sound_one_entry :
    ∃ c : Config Call Reply (Option FlushEnd × Locals),
      Published c.trace .ack "a" ∧ Sound [⟨"p", some "a"⟩] c.trace := by
  have hrun : (exec (fun c event => if Unhurried [⟨"p", some "a"⟩] c.trace event then
      Config.step c event else none) (Config.start (onFlush [⟨"p", some "a"⟩]))
      (opened 28 ++ notFound 0 "p:a" ++ admitted 0 "p:a" ["a"] 26 ++
        [answered .isActive true, answered (.entryIsActive 0) true, answered (.commitWrite 0) (),
          answered (.commitOffer 0) (), answered (.sendAck .finish "p" ["a"]) true])).map
      (fun c => decide (Published c.trace .ack "a")) = some true := by decide +kernel
  obtain ⟨c, hc, hp⟩ := exists_reachedBy_of_exec hrun
  exact ⟨c, of_decide_eq_true hp, (flush_results_sound _ hc).1⟩

def wasInvalidated (c : Config Call Reply (Option FlushEnd × Locals)) : Bool :=
  match c.prog with
  | .done (some .invalidated, _) => true
  | _ => false

/-- Two ids do not fit in one frame, so the first is acknowledged when the second is added.
While the third is looked up the batch is stopped: the acknowledged write and its offer are
rolled back. -/
theorem flush_results_unsound :
    ∃ c, Reached Config.step (Config.start (onFlush
        [⟨"p", some "a"⟩, ⟨"p", some "b"⟩, ⟨"p", some "c"⟩])) c ∧
      wasInvalidated c = true ∧ Published c.trace .ack "a" ∧
      c.trace.Called (.rollbackWrite 0) ∧ c.trace.Called (.rollbackOffer 0) ∧
      ¬ Sound [⟨"p", some "a"⟩, ⟨"p", some "b"⟩, ⟨"p", some "c"⟩] c.trace := by
  have hrun : (exec Config.step (Config.start (onFlush
        [⟨"p", some "a"⟩, ⟨"p", some "b"⟩, ⟨"p", some "c"⟩]))
      (opened 28 ++ notFound 0 "p:a" ++ admitted 0 "p:a" ["a"] 26 ++ notFound 1 "p:b" ++
        admitted 1 "p:b" ["a", "b"] 30 ++
        [answered (.sendAck .add "p" ["a"]) true,
          answered (.measureResultWireBytes "p" ⟨.ack, ["b"]⟩) (.ofNat 26)] ++ notFound 2 "p:c" ++
        [answered .isActive true, answered (.entryIsActive 2) false, answered (.requestRelease 2) (),
          answered .isActive true, answered (.entryIsActive 0) false, answered (.rollbackWrite 0) (),
          answered (.rollbackWrite 1) (), answered (.isCancellationRequested 0) true,
          answered (.isCancellationRequested 1) true, answered (.isCancellationRequested 2) true,
          answered (.waitForCancellation [0, 1, 2]) (), answered (.rollbackOffer 0) (),
          answered (.rollbackOffer 1) (), answered .finish ()])).map
      (fun c => wasInvalidated c && decide (Published c.trace .ack "a" ∧
        c.trace.Called (.rollbackWrite 0) ∧ c.trace.Called (.rollbackOffer 0) ∧
        ¬ Tombstoned [⟨"p", some "a"⟩, ⟨"p", some "b"⟩, ⟨"p", some "c"⟩] c.trace "a" ∧
        ¬ FoundAs [⟨"p", some "a"⟩, ⟨"p", some "b"⟩, ⟨"p", some "c"⟩] c.trace .accepted "a" ∧
        ¬ Admitted [⟨"p", some "a"⟩, ⟨"p", some "b"⟩, ⟨"p", some "c"⟩] c.trace "a")) =
      some true := by decide +kernel
  obtain ⟨c, hc, hp⟩ := exists_reached_of_exec hrun
  obtain ⟨hend, hp⟩ := Bool.and_eq_true_iff.mp hp
  obtain ⟨hpub, hwrite, hoffer, htomb, hfound, hadmitted⟩ := of_decide_eq_true hp
  refine ⟨c, hc, hend, hpub, hwrite, hoffer, fun hs => ?_⟩
  exact (hs.ack "a" hpub htomb).elim hfound hadmitted

end Webchannel.Ingress
