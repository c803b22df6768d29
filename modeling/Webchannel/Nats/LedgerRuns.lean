import Webchannel.Nats.CredentialLedger

/-!
# The life of a credential record

What any run of operations, with any answers of the clock and any input, does to one record, and what
a revocation of a scope leaves of it.
-/

namespace Webchannel.Issuance

inductive LedgerOperation where
  | recordIssuance (issuance : BrowserCredentialIssuance)
  | markRevoked (scope : Json Double) (revokedAtSec : Number)
  | sweep (clockSec : Number)

namespace MemoryBrowserCredentialLedger

def apply (l : MemoryBrowserCredentialLedger) : LedgerOperation → MemoryBrowserCredentialLedger
  | .recordIssuance issuance => (l.recordIssuance issuance).2
  | .markRevoked scope revokedAtSec => (l.markRevoked scope revokedAtSec).2
  | .sweep clockSec => (l.sweep clockSec).2

def run (l : MemoryBrowserCredentialLedger) (ops : List LedgerOperation) : MemoryBrowserCredentialLedger :=
  ops.foldl apply l

variable {l : MemoryBrowserCredentialLedger} {key : JsString} {record : BrowserCredentialRecord}
  {op : LedgerOperation} {ops : List LedgerOperation} {s : BrowserCredentialScope}

/-! ### One operation -/

/-- What becomes of a record that is there: records do not depend on each other. -/
def fate (l : MemoryBrowserCredentialLedger) :
    LedgerOperation → BrowserCredentialRecord → Option BrowserCredentialRecord
  | .recordIssuance _ => some
  | .markRevoked scope revokedAtSec =>
    match assertBrowserCredentialScope scope, assertTimestampSec revokedAtSec "revokedAtSec" with
    | .ok scope, .ok revokedAtSec => fun record => some (revoke scope revokedAtSec record)
    | _, _ => some
  | .sweep clockSec =>
    match readClockSec clockSec with
    | .ok now => fun record => if l.removable now record then none else some record
    | .error _ => some

/-- An operation does to each record what its fate says, and issues at most one under a key that was free. -/
theorem get_apply (l : MemoryBrowserCredentialLedger) (op : LedgerOperation) (key : JsString) :
    (l.apply op).get key = (l.get key).bind (l.fate op) ∨
      ∃ issuance iat exp, op = .recordIssuance issuance ∧ l.get key = none ∧
        (l.apply op).get key = some (recordOf issuance iat exp) := by
  cases op with
  | recordIssuance issuance =>
    simp only [apply, recordIssuance, fate, Option.bind_fun_some]
    split
    · exact .inl rfl
    · split
      · exact .inl rfl
      · rename_i hused
        by_cases hkey : key = issuance.userPubkey
        · refine .inr ⟨issuance, _, _, rfl, ?_, (OrderedMap.get_set_eq _ _ _ _).trans (if_pos hkey)⟩
          exact hkey ▸ OrderedMap.has_eq_false_iff.mp (by simpa using hused)
        · exact .inl ((OrderedMap.get_set_eq _ _ _ _).trans (if_neg hkey))
  | markRevoked scope revokedAtSec =>
    left
    simp only [apply, markRevoked, fate]
    cases assertBrowserCredentialScope scope with
    | error e => exact (Option.bind_fun_some _).symm
    | ok s =>
      cases assertTimestampSec revokedAtSec "revokedAtSec" with
      | error e => exact (Option.bind_fun_some _).symm
      | ok t => exact (OrderedMap.get_mapValues _ _ key).trans Option.map_eq_bind
  | sweep clockSec =>
    left
    simp only [apply, sweep, fate]
    cases readClockSec clockSec with
    | error e => exact (Option.bind_fun_some _).symm
    | ok now =>
      refine (OrderedMap.get_filter _ _ key).trans ?_
      show (l.get key).filter _ = _
      cases l.get key with
      | none => rfl
      | some record =>
        rw [Option.bind_some]
        cases hold : l.removable now record <;> simp [hold]

/-- An operation of a run finds a record as it was, and makes of it what its fate is. -/
def Changes (l : MemoryBrowserCredentialLedger) (key : JsString) (record : BrowserCredentialRecord)
    (ops : List LedgerOperation) : Prop :=
  ∃ before op after, ops = before ++ op :: after ∧ (l.run before).get key = some record ∧
    (l.run (before ++ [op])).get key = (l.run before).fate op record ∧ (l.run before).fate op record ≠ some record

theorem get_run (h : l.get key = some record) (ops : List LedgerOperation) :
    (l.run ops).get key = some record ∨ l.Changes key record ops := by
  induction ops using List.reverseRecOn with
  | nil => exact .inl h
  | append_singleton ops op ih =>
    rcases ih with hsame | ⟨before, op', after, rfl, hrest⟩
    · have hrun : l.run (ops ++ [op]) = (l.run ops).apply op := List.foldl_append ..
      have hget : (l.run (ops ++ [op])).get key = (l.run ops).fate op record := by
        rcases get_apply (l.run ops) op key with hfate | ⟨issuance, iat, exp, -, hnone, -⟩
        · rw [hrun, hfate, hsame]
          rfl
        · cases hnone.symm.trans hsame
      by_cases hstays : (l.run ops).fate op record = some record
      · exact .inl (hget.trans hstays)
      · exact .inr ⟨ops, op, [], rfl, hsame, hget, hstays⟩
    · exact .inr ⟨before, op', after ++ [op], by simp, hrest⟩

/-- What changes a record that is active and does not expire is a revocation that covers it. -/
theorem covered_of_fate (hstatus : record.status = .active) (hexpiry : record.expiresAtSec = none) (h : l.fate op record ≠ some record) :
    ∃ scope s revokedAtSec, op = .markRevoked scope revokedAtSec ∧ assertBrowserCredentialScope scope = .ok s ∧
      inScope record s = true := by
  cases op with
  | recordIssuance issuance => exact (h rfl).elim
  | markRevoked scope revokedAtSec =>
    cases hscope : assertBrowserCredentialScope scope with
    | error e => simp [fate, hscope] at h
    | ok s =>
      cases htime : assertTimestampSec revokedAtSec "revokedAtSec" with
      | error e => simp [fate, hscope, htime] at h
      | ok t =>
        refine ⟨scope, s, revokedAtSec, rfl, hscope, ?_⟩
        by_contra hout
        simp [fate, hscope, htime, revoke, hout] at h
  | sweep clockSec =>
    have hkept : ∀ now, l.removable now record = false := fun now => by simp [removable, hstatus, hexpiry]
    cases hnow : readClockSec clockSec <;> simp [fate, hnow, hkept] at h

/-- A record is in the ledger unchanged after a run, or the first operation that changed it did what
its fate says: a revocation that covers it, which gives it its time once and for all, or a sweep past
its retention. And a credential that is active and does not expire is never forgotten: it stays as it
is unless some revocation in the run covers it. -/
theorem record_kept (ops : List LedgerOperation) (h : l.get key = some record) :
    ((l.run ops).get key = some record ∨ l.Changes key record ops) ∧
    (record.status = .active → record.expiresAtSec = none → (l.run ops).get key = some record ∨
      ∃ scope s revokedAtSec, .markRevoked scope revokedAtSec ∈ ops ∧ assertBrowserCredentialScope scope = .ok s ∧
        inScope record s = true) := by
  refine ⟨get_run h ops, fun hstatus hexpiry => ?_⟩
  rcases get_run h ops with hsame | ⟨before, op, after, rfl, -, -, hchanged⟩
  · exact .inl hsame
  · obtain ⟨scope, s, revokedAtSec, rfl, hscope, hin⟩ := covered_of_fate hstatus hexpiry hchanged
    exact .inr ⟨scope, s, revokedAtSec, List.mem_append_right _ (.head _), hscope, hin⟩

/-- A credential of one peer that does not expire. -/
def sampleIssuance : BrowserCredentialIssuance :=
  ⟨js "acme", js "prod", js "A1", js "alice", js "U1", ⟨.finite (1700000000 : Int), isDouble_intCast (by decide)⟩, .null⟩

def sampleLedger : MemoryBrowserCredentialLedger := ((new none none).recordIssuance sampleIssuance).2

theorem record_kept_swept : ∃ record, sampleLedger.get (js "U1") = some record ∧
    (sampleLedger.run [.sweep (some (toDouble (4000000000 : Int)))]).get (js "U1") = some record := by
  have hget : sampleLedger.get (js "U1") = some (recordOf sampleIssuance ⟨1700000000, by decide⟩ none) := by decide +kernel
  refine ⟨_, hget, ?_⟩
  rcases (record_kept [.sweep (some (toDouble (4000000000 : Int)))] hget).2 rfl rfl with hsame | ⟨scope, s, revokedAtSec, hmem, -⟩
  · exact hsame
  · cases List.mem_singleton.mp hmem

/-! ### Revocation of a scope -/

/-- Nothing in a scope is active. -/
def Cut (l : MemoryBrowserCredentialLedger) (s : BrowserCredentialScope) : Prop :=
  ∀ key record, l.get key = some record → inScope record s = true → record.status = .revoked

/-- An issuance into a scope. -/
def Into (s : BrowserCredentialScope) : LedgerOperation → Prop
  | .recordIssuance issuance => ∃ iat exp, inScope (recordOf issuance iat exp) s = true
  | _ => False

theorem inScope_revoke (s s' : BrowserCredentialScope) (t : Timestamp) (record : BrowserCredentialRecord) :
    inScope (revoke s t record) s' = inScope record s' := by
  unfold revoke
  split
  · cases s' <;> rfl
  · rfl

/-- Of a record that is there, only a revoked copy may be left. -/
theorem fate_some {record' : BrowserCredentialRecord} (h : l.fate op record' = some record) :
    record = record' ∨ ∃ s t, record = revoke s t record' := by
  cases op with
  | recordIssuance issuance => exact .inl (Option.some.inj h).symm
  | markRevoked scope revokedAtSec =>
    simp only [fate] at h
    cases hscope : assertBrowserCredentialScope scope <;>
      cases htime : assertTimestampSec revokedAtSec "revokedAtSec" <;> rw [hscope, htime] at h
    case ok.ok => exact .inr ⟨_, _, (Option.some.inj h).symm⟩
    all_goals exact .inl (Option.some.inj h).symm
  | sweep clockSec =>
    cases hnow : readClockSec clockSec <;> simp [fate, hnow] at h
    · exact .inl h.symm
    · exact .inl h.2.symm

theorem Cut.apply (h : l.Cut s) (hop : ¬ Into s op) : (l.apply op).Cut s := by
  intro key record hget hin
  rcases get_apply l op key with hfate | ⟨issuance, iat, exp, rfl, -, hissued⟩
  · obtain ⟨record', hbefore, hbecomes⟩ := Option.bind_eq_some_iff.mp (hfate.symm.trans hget)
    rcases fate_some hbecomes with rfl | ⟨s', t, rfl⟩
    · exact h key record hbefore hin
    · rw [inScope_revoke] at hin
      rw [revoke, if_neg fun hhit => hhit.2 (h key record' hbefore hin)]
      exact h key record' hbefore hin
  · obtain rfl := Option.some.inj (hissued.symm.trans hget)
    exact (hop ⟨iat, exp, hin⟩).elim

theorem Cut.run (h : l.Cut s) (hops : ∀ op ∈ ops, ¬ Into s op) : (l.run ops).Cut s := by
  induction ops generalizing l with
  | nil => exact h
  | cons op ops ih => exact ih (h.apply (hops op (.head _))) fun op' hop' => hops op' (.tail _ hop')

theorem mem_matching {status : Option BrowserCredentialStatus} :
    record ∈ l.matching s status ↔
      l.get record.userPubkey = some record ∧ inScope record s = true ∧ ∀ st ∈ status, record.status = st := by
  unfold matching
  rw [List.mem_filter, OrderedMap.mem_values, Bool.and_eq_true]
  refine and_congr ⟨fun h => ?_, fun h => ⟨_, h⟩⟩ (and_congr_right fun _ => ?_)
  · obtain ⟨key, hget⟩ := h
    rw [l.keyed key record hget]
    exact hget
  · cases status <;> simp

/-- A page holds records of the scope and status that were asked for, whatever the cursor, and a
cursor comes with a page that has a record. -/
theorem list_ok {scope : Json Double} {query : BrowserCredentialQuery} {page : BrowserCredentialPage}
    (hscope : assertBrowserCredentialScope scope = .ok s) (h : l.list scope query = .ok page) :
    (∀ record ∈ page.records, record ∈ l.matching s query.status) ∧ (page.cursor ≠ none → page.records ≠ []) := by
  unfold list at h
  rw [hscope] at h
  simp only [bind, Except.bind, pure, Except.pure] at h
  split at h
  · cases h
  · split at h
    · cases h
    · obtain rfl := Except.ok.inj h
      refine ⟨fun record hmem => ?_, fun hcursor hnil => ?_⟩
      · exact List.mem_mergeSort.mp (List.mem_of_mem_filter (List.mem_of_mem_take hmem))
      · dsimp only at hcursor hnil
        rw [hnil] at hcursor
        simp at hcursor

/-- A revocation of a scope reaches every record of it at once: what it reports as newly or already
revoked is all of the scope. From then on, in any run without a new issuance into the scope, no page
of the scope's active records has any, whatever the limit and the cursor. -/
theorem revocation_reaches_scope {scope : Json Double} {revokedAtSec : Number} {result : MarkRevokedResult}
    (h : (l.markRevoked scope revokedAtSec).1 = .ok result) :
    ∃ s, assertBrowserCredentialScope scope = .ok s ∧
      result.marked = (l.matching s (some .active)).length ∧ result.alreadyRevoked = (l.matching s (some .revoked)).length ∧
      ∀ ops : List LedgerOperation, (∀ op ∈ ops, ¬ Into s op) → ∀ query page, query.status = some .active →
        ((l.markRevoked scope revokedAtSec).2.run ops).list scope query = .ok page → page.records = [] ∧ page.cursor = none := by
  have hcount : ∀ (p : BrowserCredentialRecord → Bool) (s : BrowserCredentialScope) (st : BrowserCredentialStatus),
      (∀ record, p record = decide (record.status = st)) →
      (l.records.values.filter (inScope · s)).countP p = (l.matching s (some st)).length := by
    intro p s st hp
    rw [matching, ← List.countP_eq_length_filter, List.countP_filter]
    exact List.countP_congr fun record _ => by simp [hp, and_comm]
  unfold markRevoked at h ⊢
  split at h
  · cases h
  · cases h
  · rename_i s t hscope htime
    obtain rfl := Except.ok.inj h
    refine ⟨s, hscope, hcount _ s _ fun record => ?_, hcount _ s _ fun record => rfl, fun ops hops query page hquery hlist => ?_⟩
    · cases record.status <;> rfl
    · obtain ⟨hmem, hcursor⟩ := list_ok hscope hlist
      have hempty : page.records = [] := by
        refine List.eq_nil_iff_forall_not_mem.mpr fun record hrecord => ?_
        obtain ⟨hget, hin, hstatus⟩ := mem_matching.mp (hmem record hrecord)
        refine absurd (Cut.run (fun key r hr hinr => ?_) hops _ record hget hin) (by rw [hstatus .active (hquery ▸ rfl)]; decide)
        obtain ⟨r', -, rfl⟩ := Option.map_eq_some_iff.mp ((OrderedMap.get_mapValues _ _ key).symm.trans hr)
        rw [inScope_revoke] at hinr
        unfold revoke
        split
        · rfl
        · rename_i hmiss
          by_contra hactive
          exact hmiss ⟨hinr, hactive⟩
      exact ⟨hempty, by_contra fun hsome => hcursor hsome hempty⟩

def sampleScope : Json Double :=
  .obj [(js "kind", .str (js "peer")), (js "natsAccountPublicKey", .str (js "A1")), (js "peerId", .str (js "alice"))]

def sampleTime : Number := some ⟨.finite (1800000000 : Int), isDouble_intCast (by decide)⟩

theorem revocation_reaches_scope_peer : ∃ page,
    (sampleLedger.markRevoked sampleScope sampleTime).2.list sampleScope { status := some .active } = .ok page ∧
      page.records = [] ∧ page.cursor = none := by
  have hresult : (sampleLedger.markRevoked sampleScope sampleTime).1 = .ok ⟨1, 0⟩ := by rfl
  obtain ⟨s, hscope, -, -, hcut⟩ := revocation_reaches_scope hresult
  have hok : ((sampleLedger.markRevoked sampleScope sampleTime).2.list sampleScope { status := some .active }).isOk = true := by
    decide +kernel
  cases hlist : (sampleLedger.markRevoked sampleScope sampleTime).2.list sampleScope { status := some .active } with
  | error e => rw [hlist] at hok; cases hok
  | ok page => exact ⟨page, rfl, hcut [] (fun op hop => (by cases hop)) _ page rfl hlist⟩

end MemoryBrowserCredentialLedger

end Webchannel.Issuance
