import Webchannel.Lib.Log
import Webchannel.Lib.Tally
import Webchannel.Overflow.Resolver

/-!
# The indexes of the overflow resolver

The two indexes and the byte count speak of the tasks that have not been released: one for a session, one for a claim,
and no more than the limits allow.
-/

namespace Webchannel.Overflow

open Runs Tally

namespace Resolver

variable {r r' : Resolver} {t t' : Nat} {T : ActiveTask}

def active (T : ActiveTask) : Bool := !T.released

def weight (T : ActiveTask) : Int := T.bytes

def one (_ : ActiveTask) : Int := 1

structure Indexed (r : Resolver) : Prop where
  sessions : ∀ token t, r.activeBySession.get token = some t ↔
    ∃ T, r.tasks[t]? = some T ∧ T.released = false ∧ T.request.sessionToken = token
  claims : ∀ accountId key t, (r.activeClaimsByAccount.get accountId).bind (·.get key) = some t ↔
    ∃ T, r.tasks[t]? = some T ∧ T.released = false ∧ T.request.accountId = accountId ∧ T.request.key = key
  size : (r.activeBySession.size : Int) = tally one active r.tasks
  size_le : r.activeBySession.size ≤ r.maxTasks
  bytes : r.activeBytes = tally weight active r.tasks
  bytes_le : r.activeBytes ≤ r.maxMetadataBytes
  charged : ∀ T ∈ r.tasks, T.bytes = overflowResolverMetadataBytes T.request
  underflows : r.underflows = 0

theorem getElem?_snoc {α : Type} {l : List α} {a b : α} {i : Nat} :
    (l ++ [a])[i]? = some b ↔ l[i]? = some b ∨ i = l.length ∧ b = a := by
  rcases Nat.lt_trichotomy i l.length with hi | rfl | hi
  · rw [List.getElem?_append_left hi]
    constructor
    · exact .inl
    · rintro (h | ⟨rfl, -⟩)
      · exact h
      · exact absurd hi (Nat.lt_irrefl _)
  · rw [List.getElem?_append_right (Nat.le_refl _), Nat.sub_self, List.getElem?_cons_zero,
      List.getElem?_eq_none (Nat.le_refl _)]
    constructor
    · intro h
      exact .inr ⟨rfl, (Option.some.inj h).symm⟩
    · rintro (h | ⟨-, rfl⟩)
      · cases h
      · rfl
  · rw [List.getElem?_eq_none (by simp; omega), List.getElem?_eq_none (Nat.le_of_lt hi)]
    constructor
    · exact .inl
    · rintro (h | ⟨rfl, -⟩)
      · exact h
      · exact absurd hi (Nat.lt_irrefl _)

/-! ### Steps that keep the books -/

/-- What the indexes know of a task. -/
def books (T : ActiveTask) : Retained × Nat × Bool := (T.request, T.bytes, T.released)

structure SameBooks (r r' : Resolver) : Prop where
  activeBySession : r'.activeBySession = r.activeBySession
  activeClaimsByAccount : r'.activeClaimsByAccount = r.activeClaimsByAccount
  activeBytes : r'.activeBytes = r.activeBytes
  maxTasks : r'.maxTasks = r.maxTasks
  maxMetadataBytes : r'.maxMetadataBytes = r.maxMetadataBytes
  underflows : r'.underflows = r.underflows
  tasks : r'.tasks.map books = r.tasks.map books

theorem SameBooks.refl (r : Resolver) : SameBooks r r := ⟨rfl, rfl, rfl, rfl, rfl, rfl, rfl⟩

/-- A task after the step has the books of the task that was in its place. -/
theorem SameBooks.before (h : SameBooks r r') {T' : ActiveTask} (hT' : r'.tasks[t]? = some T') :
    ∃ T, r.tasks[t]? = some T ∧ books T = books T' := by
  have hmap : (r'.tasks.map books)[t]? = some (books T') := by rw [List.getElem?_map, hT', Option.map_some]
  rw [h.tasks, List.getElem?_map] at hmap
  exact Option.map_eq_some_iff.mp hmap

theorem SameBooks.after (h : SameBooks r r') (hT : r.tasks[t]? = some T) :
    ∃ T', r'.tasks[t]? = some T' ∧ books T' = books T := by
  have hmap : (r.tasks.map books)[t]? = some (books T) := by rw [List.getElem?_map, hT, Option.map_some]
  rw [← h.tasks, List.getElem?_map] at hmap
  exact Option.map_eq_some_iff.mp hmap

theorem books_eq_iff {T T' : ActiveTask} :
    books T = books T' ↔ T.request = T'.request ∧ T.bytes = T'.bytes ∧ T.released = T'.released := by
  rw [books, books, Prod.mk.injEq, Prod.mk.injEq]

theorem SameBooks.exists_iff (h : SameBooks r r') {p : Retained → Prop} :
    (∃ T, r'.tasks[t]? = some T ∧ T.released = false ∧ p T.request) ↔
      ∃ T, r.tasks[t]? = some T ∧ T.released = false ∧ p T.request := by
  constructor
  · rintro ⟨T', hT', hreleased, hp⟩
    obtain ⟨T, hT, heq⟩ := h.before hT'
    obtain ⟨hrequest, -, hrel⟩ := books_eq_iff.mp heq
    exact ⟨T, hT, hrel.trans hreleased, hrequest ▸ hp⟩
  · rintro ⟨T, hT, hreleased, hp⟩
    obtain ⟨T', hT', heq⟩ := h.after hT
    obtain ⟨hrequest, -, hrel⟩ := books_eq_iff.mp heq
    exact ⟨T', hT', hrel.trans hreleased, hrequest ▸ hp⟩

theorem SameBooks.tally_one (h : SameBooks r r') : tally one active r'.tasks = tally one active r.tasks :=
  tally_eq_of_map_eq (w := fun (_ : Retained × Nat × Bool) => 1) (b := fun b => !b.2.2) h.tasks

theorem SameBooks.tally_weight (h : SameBooks r r') : tally weight active r'.tasks = tally weight active r.tasks :=
  tally_eq_of_map_eq (w := fun b : Retained × Nat × Bool => b.2.1) (b := fun b => !b.2.2) h.tasks

theorem Indexed.sameBooks (h : r.Indexed) (hbooks : SameBooks r r') : r'.Indexed where
  sessions token t := by
    rw [hbooks.activeBySession, hbooks.exists_iff (p := fun request => request.sessionToken = token)]
    exact h.sessions token t
  claims accountId key t := by
    rw [hbooks.activeClaimsByAccount,
      hbooks.exists_iff (p := fun request => request.accountId = accountId ∧ request.key = key)]
    exact h.claims accountId key t
  size := by rw [hbooks.activeBySession, hbooks.tally_one, h.size]
  size_le := by rw [hbooks.activeBySession, hbooks.maxTasks]; exact h.size_le
  bytes := by rw [hbooks.activeBytes, hbooks.tally_weight, h.bytes]
  bytes_le := by rw [hbooks.activeBytes, hbooks.maxMetadataBytes]; exact h.bytes_le
  charged T' hmem := by
    obtain ⟨t, hT'⟩ := List.mem_iff_getElem?.mp hmem
    obtain ⟨T, hT, heq⟩ := hbooks.before hT'
    obtain ⟨hrequest, hbytes, -⟩ := books_eq_iff.mp heq
    rw [← hbytes, ← hrequest]
    exact h.charged T (List.mem_of_getElem? hT)
  underflows := hbooks.underflows.trans h.underflows

theorem map_books_set {T' : ActiveTask} (hT : r.tasks[t]? = some T) (heq : books T' = books T) :
    (r.tasks.set t T').map books = r.tasks.map books := by
  obtain ⟨hlt, hget⟩ := List.getElem?_eq_some_iff.mp hT
  rw [List.map_set, heq, ← hget, ← List.getElem_map books (h := by simpa using hlt), List.set_getElem_self]

theorem tell_books (r : Resolver) (event : Event) : SameBooks r (r.tell event) := ⟨rfl, rfl, rfl, rfl, rfl, rfl, rfl⟩

theorem cancel_books (r : Resolver) (t : Nat) : SameBooks r (r.cancel t) := by
  refine ⟨rfl, rfl, rfl, rfl, rfl, rfl, ?_⟩
  apply List.ext_getElem?
  intro i
  rw [cancel, List.getElem?_map, List.getElem?_map, List.getElem?_modify]
  split
  · cases r.tasks[i]? <;> rfl
  · cases r.tasks[i]? <;> rfl

/-! ### A task comes and goes -/

theorem Indexed.no_session (h : r.Indexed) {token : Retention.SessionToken} (hfree : r.activeBySession.has token = false)
    (hT : r.tasks[t]? = some T) (hactive : T.released = false) : T.request.sessionToken ≠ token := by
  intro htoken
  have hget := (h.sessions token t).mpr ⟨T, hT, hactive, htoken⟩
  cases (OrderedMap.has_eq_false_iff.mp hfree).symm.trans hget

theorem Indexed.no_claim (h : r.Indexed) {accountId key : String} (hfree : r.hasActiveClaim accountId key = false)
    (hT : r.tasks[t]? = some T) (hactive : T.released = false) :
    ¬ (T.request.accountId = accountId ∧ T.request.key = key) := by
  intro hclaim
  obtain ⟨accountClaims, hget, hkey⟩ := Option.bind_eq_some_iff.mp ((h.claims accountId key t).mpr ⟨T, hT, hactive, hclaim⟩)
  rw [hasActiveClaim, hget, Option.any_some, OrderedMap.has, hkey] at hfree
  cases hfree

theorem start_claims (r : Resolver) (retained : Retained) (accountId key : String) :
    ((r.start retained).activeClaimsByAccount.get accountId).bind (·.get key) =
      if accountId = retained.accountId ∧ key = retained.key then some r.tasks.length
      else (r.activeClaimsByAccount.get accountId).bind (·.get key) := by
  unfold start
  dsimp only
  rw [OrderedMap.get_set_eq]
  by_cases haccount : accountId = retained.accountId
  · subst haccount
    rw [if_pos rfl, Option.bind_some, OrderedMap.get_set_eq]
    by_cases hkey : key = retained.key
    · rw [if_pos hkey, if_pos ⟨rfl, hkey⟩]
    · rw [if_neg hkey, if_neg fun h => hkey h.2]
      cases r.activeClaimsByAccount.get retained.accountId <;> rfl
  · rw [if_neg haccount, if_neg fun h => haccount h.1]

theorem Indexed.start (h : r.Indexed) {retained : Retained} (hsession : r.activeBySession.has retained.sessionToken = false)
    (hclaim : r.hasActiveClaim retained.accountId retained.key = false) (hcount : r.activeBySession.size < r.maxTasks)
    (hbytes : (overflowResolverMetadataBytes retained : Int) ≤ r.maxMetadataBytes - r.activeBytes) :
    (r.start retained).Indexed where
  sessions token t := by
    have hget : (r.start retained).activeBySession.get token =
      if token = retained.sessionToken then some r.tasks.length else r.activeBySession.get token := OrderedMap.get_set_eq ..
    rw [hget]
    constructor
    · intro ht
      split at ht
      · rename_i htoken
        obtain rfl := Option.some.inj ht
        exact ⟨_, getElem?_snoc.mpr (.inr ⟨rfl, rfl⟩), rfl, htoken.symm⟩
      · obtain ⟨T, hT, hactive, htoken⟩ := (h.sessions token t).mp ht
        exact ⟨T, getElem?_snoc.mpr (.inl hT), hactive, htoken⟩
    · rintro ⟨T, hT, hactive, rfl⟩
      obtain hT | ⟨rfl, rfl⟩ := getElem?_snoc.mp hT
      · rw [if_neg (h.no_session hsession hT hactive)]
        exact (h.sessions _ t).mpr ⟨T, hT, hactive, rfl⟩
      · exact if_pos rfl
  claims accountId key t := by
    rw [start_claims]
    constructor
    · intro ht
      split at ht
      · rename_i hsame
        obtain rfl := Option.some.inj ht
        exact ⟨_, getElem?_snoc.mpr (.inr ⟨rfl, rfl⟩), rfl, hsame.1.symm, hsame.2.symm⟩
      · obtain ⟨T, hT, hactive, hsame⟩ := (h.claims accountId key t).mp ht
        exact ⟨T, getElem?_snoc.mpr (.inl hT), hactive, hsame⟩
    · rintro ⟨T, hT, hactive, rfl, rfl⟩
      obtain hT | ⟨rfl, rfl⟩ := getElem?_snoc.mp hT
      · rw [if_neg (h.no_claim hclaim hT hactive)]
        exact (h.claims _ _ t).mpr ⟨T, hT, hactive, rfl, rfl⟩
      · exact if_pos ⟨rfl, rfl⟩
  size := by
    have hsize : (r.start retained).activeBySession.size = r.activeBySession.size + 1 :=
      OrderedMap.size_set_of_not_has _ hsession
    rw [hsize, Resolver.start, tally_append, ← h.size]
    rfl
  size_le := by
    have hsize : (r.start retained).activeBySession.size = r.activeBySession.size + 1 :=
      OrderedMap.size_set_of_not_has _ hsession
    rw [hsize]
    exact hcount
  bytes := by
    rw [Resolver.start, tally_append, ← h.bytes]
    rfl
  bytes_le := by
    rw [Resolver.start]
    dsimp only
    omega
  charged T hmem := by
    obtain hmem | hmem := List.mem_append.mp hmem
    · exact h.charged T hmem
    · rw [List.mem_singleton.mp hmem]
  underflows := h.underflows

/-- The claims after a task has been released. -/
theorem release_claims (h : r.Indexed) (hT : r.tasks[t]? = some T) (hactive : T.released = false) (accountId key : String) :
    ((r.release t T).activeClaimsByAccount.get accountId).bind (·.get key) =
      if accountId = T.request.accountId ∧ key = T.request.key then none
      else (r.activeClaimsByAccount.get accountId).bind (·.get key) := by
  obtain ⟨accountClaims, hget, hkey⟩ :=
    Option.bind_eq_some_iff.mp ((h.claims T.request.accountId T.request.key t).mpr ⟨T, hT, hactive, rfl, rfl⟩)
  rw [release, if_neg (by rw [hactive]; exact Bool.false_ne_true)]
  dsimp only
  rw [hget]
  dsimp only
  rw [if_pos hkey]
  by_cases haccount : accountId = T.request.accountId
  · subst haccount
    have hdelete : (accountClaims.delete T.request.key).get key =
        if key = T.request.key then none else accountClaims.get key := OrderedMap.get_delete_eq ..
    have hleft : ((if (accountClaims.delete T.request.key).size = 0 then r.activeClaimsByAccount.delete T.request.accountId
        else r.activeClaimsByAccount.set T.request.accountId (accountClaims.delete T.request.key)).get
          T.request.accountId).bind (·.get key) = (accountClaims.delete T.request.key).get key := by
      split
      · rename_i hempty
        rw [OrderedMap.get_delete_self, OrderedMap.get_of_size_eq_zero hempty]
        rfl
      · rw [OrderedMap.get_set_self]
        rfl
    rw [hleft, hdelete, hget]
    by_cases hsame : key = T.request.key
    · rw [if_pos hsame, if_pos ⟨rfl, hsame⟩]
    · rw [if_neg hsame, if_neg fun h => hsame h.2]
      rfl
  · rw [if_neg fun h : accountId = T.request.accountId ∧ key = T.request.key => haccount h.1]
    split
    · rw [OrderedMap.get_delete_of_ne _ haccount]
    · rw [OrderedMap.get_set_of_ne _ _ haccount]

/-- The task in its place after the release. -/
def ended (T : ActiveTask) : ActiveTask := { T with released := true, point := .settled }

theorem Indexed.active_session (h : r.Indexed) (hT : r.tasks[t]? = some T) (hactive : T.released = false) :
    r.activeBySession.get T.request.sessionToken = some t := (h.sessions _ t).mpr ⟨T, hT, hactive, rfl⟩

/-- What `release` does to a task that is active. -/
theorem release_eq (h : r.Indexed) (hT : r.tasks[t]? = some T) (hactive : T.released = false) :
    r.release t T = { r with
      tasks := r.tasks.set t (ended T)
      activeBySession := r.activeBySession.delete T.request.sessionToken
      activeClaimsByAccount := (r.release t T).activeClaimsByAccount
      activeBytes := r.activeBytes - T.bytes
      log := r.log ++ [.released t] } := by
  have hmem : T ∈ r.tasks := List.mem_of_getElem? hT
  have hnonneg : ¬ r.activeBytes - T.bytes < 0 := by
    have hle : weight T ≤ tally weight active r.tasks :=
      weight_le_tally (fun T => Int.natCast_nonneg _) hmem (by rw [active, hactive]; rfl)
    rw [weight, ← h.bytes] at hle
    omega
  have hsession := h.active_session hT hactive
  unfold release
  rw [if_neg (by rw [hactive]; exact Bool.false_ne_true)]
  dsimp only
  rw [if_pos hsession, if_neg hnonneg]
  rfl

theorem getElem?_set_active {T' : ActiveTask} (hT : r.tasks[t]? = some T) :
    (r.tasks.set t (ended T))[t']? = some T' ↔ t' ≠ t ∧ r.tasks[t']? = some T' ∨ t' = t ∧ T' = (ended T) := by
  obtain ⟨hlt, -⟩ := List.getElem?_eq_some_iff.mp hT
  rw [List.getElem?_set]
  by_cases htt : t = t'
  · subst htt
    rw [if_pos rfl, if_pos hlt]
    constructor
    · intro h
      exact .inr ⟨rfl, (Option.some.inj h).symm⟩
    · rintro (⟨hne, -⟩ | ⟨-, rfl⟩)
      · exact absurd rfl hne
      · rfl
  · rw [if_neg htt]
    constructor
    · intro h
      exact .inl ⟨fun heq => htt heq.symm, h⟩
    · rintro (⟨-, h⟩ | ⟨heq, -⟩)
      · exact h
      · exact absurd heq.symm htt

theorem Indexed.release (h : r.Indexed) (hT : r.tasks[t]? = some T) (hactive : T.released = false) :
    (r.release t T).Indexed := by
  have hsession := h.active_session hT hactive
  have hclaims := release_claims h hT hactive
  have htally (w : ActiveTask → Int) : tally w active (r.tasks.set t (ended T)) = tally w active r.tasks - w T := by
    rw [tally_set hT, active, hactive, active, ended]
    simp
  have hheld (p : Retained → Prop) (t' : Nat) :
      (∃ T', (r.tasks.set t (ended T))[t']? = some T' ∧ T'.released = false ∧ p T'.request) ↔
        t' ≠ t ∧ ∃ T', r.tasks[t']? = some T' ∧ T'.released = false ∧ p T'.request := by
    constructor
    · rintro ⟨T', hT', hreleased, hp⟩
      obtain ⟨hne, hT'⟩ | ⟨-, rfl⟩ := (getElem?_set_active hT).mp hT'
      · exact ⟨hne, T', hT', hreleased, hp⟩
      · cases hreleased
    · rintro ⟨hne, T', hT', hreleased, hp⟩
      exact ⟨T', (getElem?_set_active hT).mpr (.inl ⟨hne, hT'⟩), hreleased, hp⟩
  rw [release_eq h hT hactive]
  refine ⟨fun token t' => ?_, fun accountId key t' => ?_, ?_, ?_, ?_, ?_, ?_, h.underflows⟩
  · dsimp only
    rw [hheld (fun request => request.sessionToken = token), OrderedMap.get_delete_eq, ← h.sessions]
    split
    · rename_i htoken
      subst htoken
      constructor
      · intro hget
        cases hget
      · rintro ⟨hne, hget⟩
        exact absurd (Option.some.inj (hget.symm.trans hsession)) hne
    · rename_i htoken
      constructor
      · intro hget
        refine ⟨?_, hget⟩
        rintro rfl
        obtain ⟨T', hT', -, htoken'⟩ := (h.sessions token t').mp hget
        obtain rfl := Option.some.inj (hT.symm.trans hT')
        exact htoken htoken'.symm
      · exact And.right
  · dsimp only
    rw [hheld (fun request => request.accountId = accountId ∧ request.key = key), hclaims, ← h.claims]
    split
    · rename_i hsame
      constructor
      · intro hget
        cases hget
      · rintro ⟨hne, hget⟩
        have hget' := (h.claims accountId key t).mpr ⟨T, hT, hactive, hsame.1.symm, hsame.2.symm⟩
        exact absurd (Option.some.inj (hget.symm.trans hget')) hne
    · rename_i hother
      constructor
      · intro hget
        refine ⟨?_, hget⟩
        rintro rfl
        obtain ⟨T', hT', -, hsame⟩ := (h.claims accountId key t').mp hget
        obtain rfl := Option.some.inj (hT.symm.trans hT')
        exact hother ⟨hsame.1.symm, hsame.2.symm⟩
      · exact And.right
  · have hsize := OrderedMap.size_delete_of_has (m := r.activeBySession) (k := T.request.sessionToken)
      (by rw [OrderedMap.has, hsession]; rfl)
    have hbefore := h.size
    dsimp only
    rw [htally, one]
    omega
  · have hsize := OrderedMap.size_delete_of_has (m := r.activeBySession) (k := T.request.sessionToken)
      (by rw [OrderedMap.has, hsession]; rfl)
    have hbefore := h.size_le
    dsimp only
    omega
  · dsimp only
    rw [htally, weight, ← h.bytes]
  · have hbefore := h.bytes_le
    dsimp only
    omega
  · intro T' hmem
    obtain ⟨t', hT'⟩ := List.mem_iff_getElem?.mp hmem
    obtain ⟨-, hT'⟩ | ⟨-, rfl⟩ := (getElem?_set_active hT).mp hT'
    · exact h.charged T' (List.mem_of_getElem? hT')
    · exact h.charged T (List.mem_of_getElem? hT)

end Resolver

end Webchannel.Overflow
