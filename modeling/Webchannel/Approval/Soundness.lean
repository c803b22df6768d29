import Webchannel.Approval.Registry

/-!
# Only an unconfusable origin is ever resolved

Two claims of different exact origins on one key poison it for the rest of the epoch. A
resolved request is younger than the epoch's barrier, so everything that was live when the
clock showed the request's time was live in this epoch, next to the selected claim; had its
origin been another one, the key would be poisoned.
-/

namespace Webchannel.Approval

open Webchannel.Runs

namespace Registry

variable {r : Registry} {k k' : String}

/-- The key cannot be resolved for the rest of the epoch. -/
def Poisoned (r : Registry) (k : String) : Prop :=
  r.epochGloballyPoisoned = true ∨ k ∈ r.poisonedKeys

/-- Two claims of different exact origins are live on the key. -/
def Overlapping (r : Registry) (k : String) : Prop :=
  ∃ c ∈ r.claimsAt k, ∃ c' ∈ r.claimsAt k, c.exactOrigin ≠ c'.exactOrigin

/-- The claim a key holds under an id. -/
def claim? (r : Registry) (k : String) (id : Nat) : Option Claim :=
  (r.claimsByKey.get k).bind fun claims => claims.get id

theorem mem_claimsAt {c : Claim} : c ∈ r.claimsAt k ↔ ∃ id, r.claim? k id = some c := by
  unfold claimsAt claim?
  cases r.claimsByKey.get k with
  | none => simp
  | some claims => simp [← OrderedMap.mem_entries]

theorem poisonKey_poisoned (r : Registry) (k : String) : Poisoned (r.poisonKey k) k := by
  unfold poisonKey
  split
  · rename_i h
    simpa [Poisoned] using h
  · split <;> simp [Poisoned]

theorem Poisoned.poisonKey (h : Poisoned r k') (k : String) : Poisoned (r.poisonKey k) k' := by
  unfold Registry.poisonKey
  split
  · exact h
  · rename_i hp
    split
    · exact .inl rfl
    · rcases h with h | h
      · simp [h] at hp
      · exact .inr (by simp [h])

@[simp] theorem poisonKey_claimsByKey (r : Registry) (k : String) :
    (r.poisonKey k).claimsByKey = r.claimsByKey := by
  unfold poisonKey
  split
  · rfl
  · split <;> rfl

@[simp] theorem poisonIfOverlapping_claimsByKey (r : Registry) (k : String) :
    (r.poisonIfOverlapping k).claimsByKey = r.claimsByKey := by
  unfold poisonIfOverlapping
  split
  · rfl
  · split <;> simp

theorem Poisoned.poisonIfOverlapping (h : Poisoned r k') (k : String) :
    Poisoned (r.poisonIfOverlapping k) k' := by
  unfold Registry.poisonIfOverlapping
  split
  · exact h
  · split
    · exact h.poisonKey k
    · exact h

theorem seesTwoOrigins_of_mem {o : String × String} {cs : List Claim} {c : Claim} (hc : c ∈ cs)
    (hne : c.exactOrigin ≠ o) : seesTwoOrigins [o] cs = true := by
  induction cs with
  | nil => simp at hc
  | cons d cs ih =>
    by_cases hd : d.exactOrigin = o
    · have hmem : c ∈ cs := by
        rcases List.mem_cons.mp hc with rfl | h
        · exact absurd hd hne
        · exact h
      simpa [seesTwoOrigins, hd] using ih hmem
    · simp [seesTwoOrigins, hd]

theorem Overlapping.poisoned (h : Overlapping r k) : Poisoned (r.poisonIfOverlapping k) k := by
  obtain ⟨c, hc, c', hc', hne⟩ := h
  unfold Registry.poisonIfOverlapping
  cases hcs : r.claimsAt k with
  | nil => simp [hcs] at hc
  | cons d cs =>
    rw [hcs] at hc hc'
    -- One of the two claims differs from the first claim of the key.
    obtain ⟨e, he, hed⟩ : ∃ e ∈ cs, e.exactOrigin ≠ d.exactOrigin := by
      rcases List.mem_cons.mp hc with rfl | hc
      · rcases List.mem_cons.mp hc' with rfl | hc'
        · exact absurd rfl hne
        · exact ⟨c', hc', Ne.symm hne⟩
      · by_cases hcd : c.exactOrigin = d.exactOrigin
        · rcases List.mem_cons.mp hc' with rfl | hc'
          · exact absurd hcd hne
          · exact ⟨c', hc', fun h => hne (hcd.trans h.symm)⟩
        · exact ⟨c, hc, hcd⟩
    have hlen : ¬ (d :: cs).length < 2 := by
      have := List.length_pos_of_mem he
      simp only [List.length_cons]
      omega
    rw [if_neg hlen]
    have htwo : seesTwoOrigins [] (d :: cs) = true := by
      simpa [seesTwoOrigins] using seesTwoOrigins_of_mem he hed
    rw [if_pos htwo]
    exact poisonKey_poisoned r k

theorem Overlapping.of_claimsByKey {r' : Registry} (h : Overlapping r' k)
    (he : r'.claimsByKey = r.claimsByKey) : Overlapping r k := by
  simpa only [Overlapping, claimsAt, he] using h

@[simp] theorem poisonIfOverlapping_nextClaimId (r : Registry) (k : String) :
    (r.poisonIfOverlapping k).nextClaimId = r.nextClaimId := by
  simp only [poisonIfOverlapping, poisonKey]
  repeat' split
  all_goals rfl

@[simp] theorem poisonIfOverlapping_barrierMs (r : Registry) (k : String) :
    (r.poisonIfOverlapping k).barrierMs = r.barrierMs := by
  simp only [poisonIfOverlapping, poisonKey]
  repeat' split
  all_goals rfl

@[simp] theorem poisonIfOverlapping_clockTrusted (r : Registry) (k : String) :
    (r.poisonIfOverlapping k).clockTrusted = r.clockTrusted := by
  simp only [poisonIfOverlapping, poisonKey]
  repeat' split
  all_goals rfl

/-- Rescanning keys never cures one, and poisons every overlapping key it visits. -/
theorem foldl_poisonIfOverlapping (keys : List String) (r : Registry) :
    (keys.foldl poisonIfOverlapping r).claimsByKey = r.claimsByKey ∧
    (keys.foldl poisonIfOverlapping r).nextClaimId = r.nextClaimId ∧
    (keys.foldl poisonIfOverlapping r).barrierMs = r.barrierMs ∧
    (keys.foldl poisonIfOverlapping r).clockTrusted = r.clockTrusted ∧
    (∀ k, Poisoned r k → Poisoned (keys.foldl poisonIfOverlapping r) k) ∧
    ∀ k ∈ keys, Overlapping r k → Poisoned (keys.foldl poisonIfOverlapping r) k := by
  induction keys generalizing r with
  | nil => exact ⟨rfl, rfl, rfl, rfl, fun _ h => h, by simp⟩
  | cons d keys ih =>
    obtain ⟨hclaims, hnext, hbarrier, htrusted, hkeep, hscan⟩ := ih (r.poisonIfOverlapping d)
    simp only [List.foldl_cons]
    refine ⟨hclaims.trans (by simp), hnext.trans (by simp), hbarrier.trans (by simp),
      htrusted.trans (by simp), fun k h => hkeep k (h.poisonIfOverlapping d), ?_⟩
    intro k hk hover
    rcases List.mem_cons.mp hk with rfl | hk
    · exact hkeep k hover.poisoned
    · exact hscan k hk (hover.of_claimsByKey (by simp))

theorem Overlapping.mem_keys (h : Overlapping r k) : k ∈ r.claimsByKey.keys := by
  obtain ⟨c, hc, -⟩ := h
  rw [OrderedMap.mem_keys, OrderedMap.has]
  unfold claimsAt at hc
  cases hget : r.claimsByKey.get k with
  | none => simp [hget] at hc
  | some claims => rfl

theorem claim?_insertClaim (r : Registry) (c : Claim) (k : String) (id : Nat) :
    (r.insertClaim c).claim? k id =
      if k = c.canonicalKey ∧ id = c.claimId then some c else r.claim? k id := by
  simp only [insertClaim, claim?, poisonIfOverlapping_claimsByKey, OrderedMap.get_set_eq]
  by_cases hk : k = c.canonicalKey
  · subst hk
    simp only [if_true, Option.bind_some, OrderedMap.get_set_eq, true_and]
    cases r.claimsByKey.get c.canonicalKey <;> simp
  · simp [hk]

/-- Inserting a claim cures nothing, and poisons the key when it now overlaps. -/
theorem insertClaim_poisoned (c : Claim) (hp : Poisoned r k) : Poisoned (r.insertClaim c) k := by
  apply Poisoned.poisonIfOverlapping
  exact hp

theorem overlapping_insertClaim (c : Claim) (h : ∀ k, Overlapping r k → Poisoned r k)
    (ho : Overlapping (r.insertClaim c) k) : Poisoned (r.insertClaim c) k := by
  by_cases hk : k = c.canonicalKey
  · subst hk
    exact Overlapping.poisoned (ho.of_claimsByKey (poisonIfOverlapping_claimsByKey _ _))
  · -- The other keys hold the claims they held.
    apply insertClaim_poisoned
    apply h
    have hsame : (r.insertClaim c).claimsAt k = r.claimsAt k := by
      simp [claimsAt, insertClaim, OrderedMap.get_set_of_ne _ _ hk]
    simpa only [Overlapping, hsame] using ho

theorem deleteClaim_same (r : Registry) (key : String) (cid : Nat) :
    (r.deleteClaim key cid).nextClaimId = r.nextClaimId ∧
    (r.deleteClaim key cid).barrierMs = r.barrierMs ∧
    (r.deleteClaim key cid).clockTrusted = r.clockTrusted ∧
    ∀ k, Poisoned (r.deleteClaim key cid) k ↔ Poisoned r k := by
  unfold deleteClaim
  split
  · simp
  · dsimp only
    split <;> simp [Poisoned]

theorem claim?_deleteClaim (r : Registry) (key k : String) (cid id : Nat) :
    (r.deleteClaim key cid).claim? k id =
      if k = key ∧ id = cid then none else r.claim? k id := by
  unfold deleteClaim
  cases hget : r.claimsByKey.get key with
  | none =>
    by_cases hk : k = key
    · subst hk
      simp [claim?, hget]
    · simp [hk]
  | some claims =>
    simp only
    by_cases hk : k = key
    · subst hk
      simp only [true_and]
      split
      · rename_i hsize
        -- The last claim of the key was deleted, so nothing else was there.
        have hempty : (claims.delete cid).entries = [] := List.eq_nil_of_length_eq_zero hsize
        have hnone : (claims.delete cid).get id = none := by
          simp [OrderedMap.get, hempty]
        rw [OrderedMap.get_delete_eq] at hnone
        by_cases hid : id = cid
        · simp [claim?, hid]
        · simpa [claim?, hid, hget] using hnone.symm
      · simp only [claim?, OrderedMap.get_set_self, Option.bind_some, OrderedMap.get_delete_eq, hget]
    · split <;> simp [claim?, hk, OrderedMap.get_delete_eq, OrderedMap.get_set_eq]

theorem overlapping_deleteClaim {key : String} {cid : Nat}
    (ho : Overlapping (r.deleteClaim key cid) k) : Overlapping r k := by
  have hsub : ∀ c, c ∈ (r.deleteClaim key cid).claimsAt k → c ∈ r.claimsAt k := by
    intro c hc
    obtain ⟨id, hid⟩ := mem_claimsAt.mp hc
    rw [claim?_deleteClaim] at hid
    split at hid
    · cases hid
    · exact mem_claimsAt.mpr ⟨id, hid⟩
  obtain ⟨c, hc, c', hc', hne⟩ := ho
  exact ⟨c, hsub c hc, c', hsub c' hc', hne⟩

theorem selectPeer_resolved {raw p : String} {t : ℚ} {only : Option String} {cs : List Claim}
    (h : selectPeer raw t only cs = .resolved p) (hnone : only ≠ some p) :
    ∃ c ∈ cs, c.rawAccountId = raw ∧ c.peerId = p ∧ ∃ a, c.activatedAtMs = some a ∧ a < t := by
  induction cs generalizing only with
  | nil =>
    cases only with
    | none => simp [selectPeer] at h
    | some q => exact absurd (by simpa [selectPeer] using h) hnone
  | cons d cs ih =>
    have hrest : ∀ {only' : Option String}, selectPeer raw t only' cs = .resolved p →
        only' ≠ some p → ∃ c ∈ d :: cs, c.rawAccountId = raw ∧ c.peerId = p ∧
          ∃ a, c.activatedAtMs = some a ∧ a < t := by
      intro only' h' hne
      obtain ⟨c, hc, hrest⟩ := ih h' hne
      exact ⟨c, List.mem_cons_of_mem _ hc, hrest⟩
    unfold selectPeer at h
    split at h
    · exact hrest h hnone
    · rename_i hraw
      split at h
      · exact hrest h hnone
      · rename_i hprov
        have hact : ∃ a, d.activatedAtMs = some a ∧ a < t := by
          cases hd : d.activatedAtMs with
          | none => simp [hd] at hprov
          | some a => exact ⟨a, rfl, by simpa [hd] using hprov⟩
        cases only with
        | none =>
          by_cases hp : d.peerId = p
          · exact ⟨d, List.mem_cons_self, not_not.mp hraw, hp, hact⟩
          · exact hrest h (by simpa using hp)
        | some q =>
          simp only at h
          split at h
          · cases h
          · exact hrest h hnone

/-- `r'` differs from `r` at most in what was last read of the clock, and trusts it no more. -/
structure SameEvidence (r r' : Registry) : Prop where
  claims : r'.claimsByKey = r.claimsByKey
  globally : r'.epochGloballyPoisoned = r.epochGloballyPoisoned
  keys : r'.poisonedKeys = r.poisonedKeys
  barrier : r'.barrierMs = r.barrierMs
  next : r'.nextClaimId = r.nextClaimId
  trusted : r'.clockTrusted = true → r.clockTrusted = true

theorem SameEvidence.refl (r : Registry) : SameEvidence r r := ⟨rfl, rfl, rfl, rfl, rfl, id⟩

theorem SameEvidence.poisoned_iff {r' : Registry} (h : SameEvidence r r') :
    Poisoned r' k ↔ Poisoned r k := by
  simp only [Poisoned, h.globally, h.keys]

theorem SameEvidence.claim?_eq {r' : Registry} (h : SameEvidence r r') (id : Nat) :
    r'.claim? k id = r.claim? k id := by
  simp only [claim?, h.claims]

theorem SameEvidence.overlapping {r' : Registry} (h : SameEvidence r r')
    (ho : Overlapping r' k) : Overlapping r k := ho.of_claimsByKey h.claims

theorem readClock_same (r : Registry) (reading : Reading) :
    SameEvidence r (r.readClock reading).2 := by
  unfold readClock
  split
  · exact ⟨rfl, rfl, rfl, rfl, rfl, by simp⟩
  · split
    · exact ⟨rfl, rfl, rfl, rfl, rfl, by simp⟩
    · exact ⟨rfl, rfl, rfl, rfl, rfl, id⟩

theorem readClock_some {reading : Reading} {now : ℚ}
    (h : (r.readClock reading).1 = some now) : reading = .finite now := by
  unfold readClock at h
  split at h
  · cases h
  · split at h
    · cases h
    · rw [Option.some.inj h]

theorem resolve_same (r : Registry) (key raw : String) (t reading : Reading) :
    SameEvidence r (r.resolve key raw t reading).2 := by
  have hread := readClock_same r reading
  unfold resolve
  split
  · exact .refl r
  · cases hr : r.readClock reading with
    | mk now r' =>
      rw [hr] at hread
      cases now <;> exact hread

/-- A resolved request: the epoch is trusted and not poisoned for the key, the request is
younger than the barrier, and some claim of the key was provably active before it. -/
theorem resolve_resolved {key raw p : String} {t reading : Reading}
    (h : (r.resolve key raw t reading).1 = .resolved p) :
    ∃ ms, t = .finite ms ∧ r.clockTrusted = true ∧ r.barrierMs < ms ∧ ¬ Poisoned r key ∧
      ∃ c ∈ r.claimsAt key, c.rawAccountId = raw ∧ c.peerId = p ∧
        ∃ a, c.activatedAtMs = some a ∧ a < ms := by
  have hsame := readClock_same r reading
  unfold resolve at h
  split at h
  · cases h
  · rename_i htrust
    cases hread : r.readClock reading with
    | mk now r' =>
      rw [hread] at h hsame
      have hclaims : r'.claimsByKey = r.claimsByKey := hsame.claims
      cases now with
      | none => cases h
      | some now =>
        simp only [resolveAt] at h
        split at h
        · cases h
        · rename_i ms
          split at h
          · cases h
          · split at h
            · cases h
            · split at h
              · cases h
              · split at h
                · cases h
                · rename_i hb _ hg hk
                  obtain ⟨c, hc, hrest⟩ := selectPeer_resolved h (by simp)
                  have hc' : c ∈ r.claimsAt key := by
                    simpa only [claimsAt, hclaims] using hc
                  refine ⟨ms, rfl, by simpa using htrust, ?_, ?_, c, hc', hrest⟩
                  · rw [← hsame.barrier]
                    exact not_le.mp hb
                  · rw [← hsame.poisoned_iff]
                    rintro (hp | hp)
                    · exact hg hp
                    · exact hk (by simpa using hp)

end Registry

/-! ### Claims mirror the live leases -/

variable {normalizeAccountId : String → String}

/-- A handle whose run is live. -/
def Lease.Live (l : Lease) : Prop := l.activated = true ∧ l.released = false

/-- The claim a live lease has published. -/
structure Published (l : Lease) (c : Claim) : Prop where
  raw : c.rawAccountId = l.rawAccountId
  peer : c.peerId = l.peerId
  provable : ∀ a, c.activatedAtMs = some a → l.evidence = .origin ∧ l.activatedWhen = a

structure Inv (normalizeAccountId : String → String) (w : World) : Prop where
  ids : ∀ (i : Nat) (l : Lease), w.leases[i]? = some l → l.claimId < w.registry.nextClaimId
  unique : ∀ (i j : Nat) (l l' : Lease), w.leases[i]? = some l → w.leases[j]? = some l' →
    l.claimId = l'.claimId → i = j
  keys : ∀ (i : Nat) (l : Lease), w.leases[i]? = some l →
    l.canonicalKey = composeCanonicalKey normalizeAccountId l.rawAccountId l.sessionKey
  sound : ∀ (k : String) (id : Nat) (c : Claim), w.registry.claim? k id = some c →
    ∃ (i : Nat) (l : Lease),
      w.leases[i]? = some l ∧ l.Live ∧ l.claimId = id ∧ l.canonicalKey = k ∧ Published l c
  complete : ∀ (i : Nat) (l : Lease), w.leases[i]? = some l → l.Live →
    ∃ c, w.registry.claim? l.canonicalKey l.claimId = some c
  poisoned : ∀ k, w.registry.Overlapping k → w.registry.Poisoned k

theorem Inv.create (cap : Option Int) (clock : ℚ) (glitch : Bool) :
    Inv normalizeAccountId (World.create cap clock glitch) := by
  have hclaims : (World.create cap clock glitch).registry.claimsByKey = .empty := by
    unfold World.create Registry.create Registry.establishBarrier
    dsimp only
    split <;> rfl
  refine ⟨by simp [World.create], by simp [World.create], by simp [World.create], ?_,
    by simp [World.create], ?_⟩
  · intro k id c h
    simp [Registry.claim?, hclaims] at h
  · rintro k ⟨c, hc, -⟩
    simp [Registry.claimsAt, hclaims] at hc

/-- The registry may change in any way that keeps the claims and cures no poisoned key. -/
theorem Inv.of_registry {w : World} {r : Registry} (h : Inv normalizeAccountId w) (clock : ℚ)
    (hnext : w.registry.nextClaimId ≤ r.nextClaimId)
    (hclaims : r.claimsByKey = w.registry.claimsByKey)
    (hpoison : ∀ k, r.Overlapping k → r.Poisoned k) :
    Inv normalizeAccountId { w with registry := r, clock := clock } where
  ids := fun i l hl => Nat.lt_of_lt_of_le (h.ids i l hl) hnext
  unique := h.unique
  keys := h.keys
  sound := by
    intro k id c hc
    exact h.sound k id c (by simpa only [Registry.claim?, hclaims] using hc)
  complete := by
    intro i l hl hlive
    simpa only [Registry.claim?, hclaims] using h.complete i l hl hlive
  poisoned := hpoison

theorem Inv.of_same {w : World} {r : Registry} (h : Inv normalizeAccountId w) (clock : ℚ)
    (hs : Registry.SameEvidence w.registry r) :
    Inv normalizeAccountId { w with registry := r, clock := clock } :=
  h.of_registry clock hs.next.ge hs.claims fun k ho =>
    hs.poisoned_iff.mpr (h.poisoned k (hs.overlapping ho))

/-- The claim of a live lease is the one it published. -/
theorem Inv.published {w : World} (h : Inv normalizeAccountId w) {i : Nat} {l : Lease}
    (hl : w.leases[i]? = some l) (hlive : l.Live) :
    ∃ c ∈ w.registry.claimsAt l.canonicalKey, Published l c := by
  obtain ⟨c, hc⟩ := h.complete i l hl hlive
  obtain ⟨j, l', hl', -, hid, -, hpub⟩ := h.sound _ _ _ hc
  obtain rfl := h.unique j i l' l hl' hl hid
  obtain rfl : l' = l := Option.some.inj (hl'.symm.trans hl)
  exact ⟨c, Registry.mem_claimsAt.mpr ⟨_, hc⟩, hpub⟩

/-- The new handle has a fresh id and is not active; the others are as they were. -/
theorem createLease_cases (w : World) (raw sess peer : String) (evidence : Option Evidence)
    {i : Nat} {l : Lease}
    (hl : (w.createLease normalizeAccountId raw sess peer evidence).leases[i]? = some l) :
    w.leases[i]? = some l ∨ (i = w.leases.length ∧ l.claimId = w.registry.nextClaimId ∧
      l.activated = false ∧
      l.canonicalKey = composeCanonicalKey normalizeAccountId l.rawAccountId l.sessionKey) := by
  simp only [World.createLease] at hl
  rcases Nat.lt_trichotomy i w.leases.length with hi | rfl | hi
  · exact .inl (by rwa [List.getElem?_append_left hi] at hl)
  · simp only [List.getElem?_concat_length, Option.some.injEq] at hl
    subst hl
    exact .inr ⟨rfl, rfl, rfl, rfl⟩
  · rw [List.getElem?_eq_none (by simp only [List.length_append, List.length_singleton]; omega)]
      at hl
    cases hl

theorem Inv.createLease {w : World} (h : Inv normalizeAccountId w) (raw sess peer : String)
    (evidence : Option Evidence) :
    Inv normalizeAccountId (w.createLease normalizeAccountId raw sess peer evidence) := by
  have hcases {i : Nat} {l : Lease} := @createLease_cases normalizeAccountId w raw sess peer
    evidence i l
  constructor
  · intro i l hl
    rcases hcases hl with hl | ⟨-, hid, -⟩
    · exact Nat.lt_succ_of_lt (h.ids i l hl)
    · simp [World.createLease, hid]
  · intro i j l l' hl hl' hid
    rcases hcases hl with hl | ⟨rfl, hnew, -⟩ <;>
      rcases hcases hl' with hl' | ⟨rfl, hnew', -⟩
    · exact h.unique i j l l' hl hl' hid
    · have := h.ids i l hl
      omega
    · have := h.ids j l' hl'
      omega
    · rfl
  · intro i l hl
    rcases hcases hl with hl | ⟨-, -, -, hkey⟩
    · exact h.keys i l hl
    · exact hkey
  · intro k id c hc
    obtain ⟨i, l, hl, hrest⟩ := h.sound k id c hc
    have hi : i < w.leases.length := (List.getElem?_eq_some_iff.mp hl).1
    exact ⟨i, l, by rw [World.createLease, List.getElem?_append_left hi, hl], hrest⟩
  · intro i l hl hlive
    rcases hcases hl with hl | ⟨-, -, hact, -⟩
    · exact h.complete i l hl hlive
    · simp [Lease.Live, hact] at hlive
  · exact h.poisoned

/-- Rewrite one row of the lease table without touching its identity, and change the
registry's claims only where that lease's claim is. -/
theorem Inv.set_lease {w : World} {r : Registry} {i : Nat} {l l' : Lease}
    (h : Inv normalizeAccountId w) (hl : w.leases[i]? = some l)
    (hnext : r.nextClaimId = w.registry.nextClaimId)
    (hid : l'.claimId = l.claimId) (hkey : l'.canonicalKey = l.canonicalKey)
    (hraw : l'.rawAccountId = l.rawAccountId) (hsess : l'.sessionKey = l.sessionKey)
    (hother : ∀ k id, ¬ (k = l.canonicalKey ∧ id = l.claimId) →
      r.claim? k id = w.registry.claim? k id)
    (hsound : ∀ c, r.claim? l.canonicalKey l.claimId = some c → l'.Live ∧ Published l' c)
    (hcomplete : l'.Live → ∃ c, r.claim? l.canonicalKey l.claimId = some c)
    (hpoison : ∀ k, r.Overlapping k → r.Poisoned k) :
    Inv normalizeAccountId { w with registry := r, leases := w.leases.set i l' } := by
  have hi : i < w.leases.length := (List.getElem?_eq_some_iff.mp hl).1
  have hself : (w.leases.set i l')[i]? = some l' := by simp [hi]
  have hne : ∀ {j : Nat}, j ≠ i → (w.leases.set i l')[j]? = w.leases[j]? := by
    intro j hj
    simp [Ne.symm hj]
  -- Every row of the new table has the identity of the old row at its place.
  have hold : ∀ (j : Nat) (m : Lease), (w.leases.set i l')[j]? = some m →
      (j = i ∧ m = l') ∨ (j ≠ i ∧ w.leases[j]? = some m) := by
    intro j m hm
    by_cases hj : j = i
    · subst hj
      exact .inl ⟨rfl, Option.some.inj (hm.symm.trans hself)⟩
    · exact .inr ⟨hj, (hne hj).symm.trans hm⟩
  have hidOf : ∀ (j : Nat) (m : Lease), (w.leases.set i l')[j]? = some m →
      ∃ m₀, w.leases[j]? = some m₀ ∧ m₀.claimId = m.claimId := by
    intro j m hm
    rcases hold j m hm with ⟨rfl, rfl⟩ | ⟨-, hm⟩
    · exact ⟨l, hl, hid.symm⟩
    · exact ⟨m, hm, rfl⟩
  constructor
  · intro j m hm
    obtain ⟨m₀, hm₀, he⟩ := hidOf j m hm
    rw [← he, hnext]
    exact h.ids j m₀ hm₀
  · intro j j' m m' hm hm' he
    obtain ⟨m₀, hm₀, h₀⟩ := hidOf j m hm
    obtain ⟨m₁, hm₁, h₁⟩ := hidOf j' m' hm'
    exact h.unique j j' m₀ m₁ hm₀ hm₁ (h₀.trans (he.trans h₁.symm))
  · intro j m hm
    rcases hold j m hm with ⟨-, rfl⟩ | ⟨-, hm⟩
    · rw [hkey, hraw, hsess]
      exact h.keys i l hl
    · exact h.keys j m hm
  · intro k id c hc
    by_cases hk : k = l.canonicalKey ∧ id = l.claimId
    · obtain ⟨rfl, rfl⟩ := hk
      obtain ⟨hlive, hpub⟩ := hsound c hc
      exact ⟨i, l', hself, hlive, hid, hkey, hpub⟩
    · rw [hother k id hk] at hc
      obtain ⟨j, m, hm, hlive, rfl, rfl, hpub⟩ := h.sound k id c hc
      have hj : j ≠ i := by
        rintro rfl
        obtain rfl := Option.some.inj (hm.symm.trans hl)
        exact hk ⟨rfl, rfl⟩
      exact ⟨j, m, (hne hj).trans hm, hlive, rfl, rfl, hpub⟩
  · intro j m hm hlive
    rcases hold j m hm with ⟨-, rfl⟩ | ⟨hj, hm⟩
    · rw [hkey, hid]
      exact hcomplete hlive
    · have hdiff : m.claimId ≠ l.claimId := fun he => hj (h.unique j i m l hm hl he)
      obtain ⟨c, hc⟩ := h.complete j m hm hlive
      exact ⟨c, (hother _ _ fun hk => hdiff hk.2).trans hc⟩
  · exact hpoison

theorem World.read_finite {w : World} {glitch : Bool} {ms : ℚ}
    (h : w.read glitch = .finite ms) : ms = w.clock := by
  unfold World.read at h
  split at h
  · cases h
  · exact (Reading.finite.inj h).symm

/-- A handle that is neither active nor released publishes one claim; any other is left as
it is. -/
theorem activate_cases (w : World) (i : Nat) (l : Lease) (glitch : Bool) :
    w.activate i l glitch = w ∨
    ∃ (c : Claim) (r : Registry), l.activated = false ∧ l.released = false ∧
      Registry.SameEvidence w.registry r ∧
      Published { l with activated := true, activatedWhen := w.clock } c ∧
      c.claimId = l.claimId ∧ c.canonicalKey = l.canonicalKey ∧
      w.activate i l glitch = { w with
        registry := r.insertClaim c
        leases := w.leases.set i { l with activated := true, activatedWhen := w.clock } } := by
  unfold World.activate
  split
  · exact .inl rfl
  · rename_i hidle
    simp only [Bool.or_eq_true, not_or, Bool.not_eq_true] at hidle
    refine .inr ?_
    by_cases hprov : l.evidence = .origin ∧ l.createdEpoch = w.registry.epoch
    · simp only [if_pos hprov]
      refine ⟨_, _, hidle.1, hidle.2, Registry.readClock_same _ _, ⟨rfl, rfl, ?_⟩, rfl, rfl, rfl⟩
      intro a ha
      exact ⟨hprov.1, (World.read_finite (Registry.readClock_some ha)).symm⟩
    · simp only [if_neg hprov]
      exact ⟨_, _, hidle.1, hidle.2, .refl _, ⟨rfl, rfl, by simp⟩, rfl, rfl, rfl⟩

theorem Inv.activate {w : World} (h : Inv normalizeAccountId w) {i : Nat} {l : Lease}
    (hl : w.leases[i]? = some l) (glitch : Bool) :
    Inv normalizeAccountId (w.activate i l glitch) := by
  obtain hdone | ⟨c, r, -, hrel, hsame, hpub, hc, hkey, hw⟩ := activate_cases w i l glitch
  · rw [hdone]
    exact h
  rw [hw]
  refine h.set_lease hl ?_ rfl rfl rfl rfl ?_ ?_ ?_ ?_
  · simp [Registry.insertClaim, hsame.next]
  · intro k id hk
    rw [Registry.claim?_insertClaim, hkey, hc, if_neg hk, hsame.claim?_eq]
  · intro d hd
    rw [Registry.claim?_insertClaim, hkey, hc, if_pos ⟨rfl, rfl⟩] at hd
    obtain rfl := Option.some.inj hd
    exact ⟨⟨rfl, hrel⟩, hpub⟩
  · intro _
    exact ⟨c, by rw [Registry.claim?_insertClaim, hkey, hc, if_pos ⟨rfl, rfl⟩]⟩
  · intro k
    apply Registry.overlapping_insertClaim
    intro k ho
    exact hsame.poisoned_iff.mpr (h.poisoned k (hsame.overlapping ho))

theorem Inv.release {w : World} (h : Inv normalizeAccountId w) {i : Nat} {l : Lease}
    (hl : w.leases[i]? = some l) : Inv normalizeAccountId (w.release i l) := by
  unfold World.release
  split
  · exact h
  · obtain ⟨hnext, -, -, hpoisoned⟩ := w.registry.deleteClaim_same l.canonicalKey l.claimId
    refine h.set_lease hl hnext rfl rfl rfl rfl ?_ ?_ ?_ ?_
    · intro k id hk
      rw [Registry.claim?_deleteClaim, if_neg hk]
    · intro c hc
      rw [Registry.claim?_deleteClaim, if_pos ⟨rfl, rfl⟩] at hc
      cases hc
    · rintro ⟨-, hrel⟩
      cases hrel
    · intro k ho
      exact (hpoisoned k).mpr (h.poisoned k (Registry.overlapping_deleteClaim ho))

/-- What a rotation leaves: the claims, every overlapping key poisoned again, and a barrier
at the clock unless the epoch is not trusted. -/
theorem rotateEpoch_spec (r : Registry) (reading : Reading) :
    (r.rotateEpoch reading).claimsByKey = r.claimsByKey ∧
    (r.rotateEpoch reading).nextClaimId = r.nextClaimId ∧
    ((r.rotateEpoch reading).clockTrusted = true →
      reading = .finite (r.rotateEpoch reading).barrierMs) ∧
    ∀ k, (r.rotateEpoch reading).Overlapping k → (r.rotateEpoch reading).Poisoned k := by
  have hbase : ∀ r₀ : Registry, (r₀.establishBarrier reading).claimsByKey = r₀.claimsByKey ∧
      (r₀.establishBarrier reading).nextClaimId = r₀.nextClaimId ∧
      ((r₀.establishBarrier reading).clockTrusted = true →
        reading = .finite (r₀.establishBarrier reading).barrierMs) := by
    intro r₀
    cases reading <;> simp [Registry.establishBarrier]
  obtain ⟨hclaims₀, hnext₀, htrusted₀⟩ := hbase
    { r with epoch := r.epoch + 1, poisonedKeys := [], epochGloballyPoisoned := false }
  simp only [Registry.rotateEpoch]
  generalize Registry.establishBarrier _ reading = cleared at *
  obtain ⟨hclaims, hnext, hbarrier, htrusted, -, hscan⟩ :=
    Registry.foldl_poisonIfOverlapping cleared.claimsByKey.keys cleared
  refine ⟨hclaims.trans hclaims₀, hnext.trans hnext₀, ?_, ?_⟩
  · rw [htrusted, hbarrier]
    exact htrusted₀
  · intro k ho
    have ho' := ho.of_claimsByKey hclaims
    exact hscan k ho'.mem_keys ho'

theorem Inv.step {w w' : World} {a : Action} (h : Inv normalizeAccountId w)
    (hs : step normalizeAccountId w a = some w') : Inv normalizeAccountId w' := by
  cases a with
  | tick ms =>
    simp only [Approval.step] at hs
    split at hs
    · obtain rfl := Option.some.inj hs
      exact h.of_same ms (.refl _)
    · cases hs
  | createLease raw sess peer evidence =>
    obtain rfl := Option.some.inj hs
    exact h.createLease raw sess peer evidence
  | activate i glitch =>
    obtain ⟨l, hl, rfl⟩ := Option.map_eq_some_iff.mp hs
    exact h.activate hl glitch
  | release i =>
    obtain ⟨l, hl, rfl⟩ := Option.map_eq_some_iff.mp hs
    exact h.release hl
  | rotateEpoch glitch =>
    obtain rfl := Option.some.inj hs
    obtain ⟨hclaims, hnext, -, hpoison⟩ := rotateEpoch_spec w.registry (w.read glitch)
    exact h.of_registry w.clock hnext.ge hclaims hpoison
  | resolve raw sess t glitch =>
    obtain rfl := Option.some.inj hs
    exact h.of_same w.clock (Registry.resolve_same _ _ _ _ _)

/-! ### What a later world knows of an earlier moment -/

/-- A later row of the same handle. -/
structure Lease.Later (l l' : Lease) : Prop where
  raw : l'.rawAccountId = l.rawAccountId
  key : l'.canonicalKey = l.canonicalKey
  peer : l'.peerId = l.peerId
  released : l.released = true → l'.released = true

theorem Lease.Later.refl (l : Lease) : l.Later l := ⟨rfl, rfl, rfl, id⟩

theorem Lease.Later.trans {l l' l'' : Lease} (h : l.Later l') (h' : l'.Later l'') :
    l.Later l'' where
  raw := h'.raw.trans h.raw
  key := h'.key.trans h.key
  peer := h'.peer.trans h.peer
  released := h'.released ∘ h.released

/-- How `w'` looks back at `w`: a handle active now was active then, or was activated at a
clock no earlier; a key poisoned then is poisoned now, or fenced off by a barrier. -/
structure Since (w w' : World) : Prop where
  clock : w.clock ≤ w'.clock
  active : ∀ (i : Nat) (l' : Lease), w'.leases[i]? = some l' → l'.activated = true →
    (∃ l, w.leases[i]? = some l ∧ l.activated = true ∧ l.Later l') ∨ w.clock ≤ l'.activatedWhen
  poisoned : ∀ k, w.registry.Poisoned k →
    w'.registry.Poisoned k ∨
      (w'.registry.clockTrusted = true → w.clock ≤ w'.registry.barrierMs)

theorem Since.refl (w : World) : Since w w where
  clock := le_refl _
  active := fun _ l hl hact => .inl ⟨l, hl, hact, .refl l⟩
  poisoned := fun _ h => .inl h

theorem Since.of_same {w u : World} {r : Registry} (h : Since w u) {clock : ℚ}
    (hclock : u.clock ≤ clock) (hs : Registry.SameEvidence u.registry r) :
    Since w { u with registry := r, clock := clock } where
  clock := h.clock.trans hclock
  active := h.active
  poisoned := by
    intro k hk
    rcases h.poisoned k hk with hp | hb
    · exact .inl (hs.poisoned_iff.mpr hp)
    · refine .inr fun ht => ?_
      rw [hs.barrier]
      exact hb (hs.trusted ht)

/-- Rewrite row `i`: what has to be known of the new row, and of the registry. -/
theorem Since.set_lease {w u : World} {r : Registry} {i : Nat} {l l' : Lease} (h : Since w u)
    (hl : u.leases[i]? = some l)
    (hrow : (l'.activated = true → l.activated = true ∧ l'.activatedWhen = l.activatedWhen ∧
      l.Later l') ∨ u.clock ≤ l'.activatedWhen)
    (hbarrier : r.barrierMs = u.registry.barrierMs)
    (htrusted : r.clockTrusted = true → u.registry.clockTrusted = true)
    (hpoisoned : ∀ k, u.registry.Poisoned k → r.Poisoned k) :
    Since w { u with registry := r, leases := u.leases.set i l' } where
  clock := h.clock
  active := by
    intro j m hm hact
    by_cases hj : j = i
    · subst hj
      obtain rfl : l' = m := by
        have hlt := (List.getElem?_eq_some_iff.mp hl).1
        simpa [hlt] using hm
      rcases hrow with hrow | hnew
      · obtain ⟨hact', hwhen, hlater⟩ := hrow hact
        rcases h.active j l hl hact' with ⟨l₀, hl₀, hact₀, hlater₀⟩ | hold
        · exact .inl ⟨l₀, hl₀, hact₀, hlater₀.trans hlater⟩
        · exact .inr (hwhen ▸ hold)
      · exact .inr (h.clock.trans hnew)
    · exact h.active j m (by simpa [Ne.symm hj] using hm) hact
  poisoned := by
    intro k hk
    rcases h.poisoned k hk with hp | hb
    · exact .inl (hpoisoned k hp)
    · exact .inr fun ht => hbarrier ▸ hb (htrusted ht)

theorem Since.step {w u u' : World} {a : Action} (h : Since w u)
    (hs : step normalizeAccountId u a = some u') : Since w u' := by
  cases a with
  | tick ms =>
    simp only [Approval.step] at hs
    split at hs
    · rename_i hms
      obtain rfl := Option.some.inj hs
      exact h.of_same hms (.refl _)
    · cases hs
  | createLease raw sess peer evidence =>
    obtain rfl := Option.some.inj hs
    refine ⟨h.clock, ?_, h.poisoned⟩
    intro i l hl hact
    rcases createLease_cases u raw sess peer evidence hl with hl | ⟨-, -, hidle, -⟩
    · exact h.active i l hl hact
    · simp [hidle] at hact
  | activate i glitch =>
    obtain ⟨l, hl, rfl⟩ := Option.map_eq_some_iff.mp hs
    obtain hdone | ⟨c, r, -, -, hsame, -, -, -, hw⟩ := activate_cases u i l glitch
    · rw [hdone]
      exact h
    · rw [hw]
      refine h.set_lease hl (.inr le_rfl) ?_ ?_ ?_
      · simp [Registry.insertClaim, hsame.barrier]
      · simpa [Registry.insertClaim] using hsame.trusted
      · intro k hk
        exact Registry.insertClaim_poisoned c (hsame.poisoned_iff.mpr hk)
  | release i =>
    obtain ⟨l, hl, rfl⟩ := Option.map_eq_some_iff.mp hs
    unfold World.release
    split
    · exact h
    · obtain ⟨-, hbarrier, htrusted, hpoisoned⟩ :=
        u.registry.deleteClaim_same l.canonicalKey l.claimId
      refine h.set_lease hl ?_ hbarrier htrusted.le fun k => (hpoisoned k).mpr
      exact .inl fun hact => ⟨hact, rfl, rfl, rfl, rfl, fun _ => rfl⟩
  | rotateEpoch glitch =>
    obtain rfl := Option.some.inj hs
    obtain ⟨-, -, htrusted, -⟩ := rotateEpoch_spec u.registry (u.read glitch)
    refine ⟨h.clock, h.active, ?_⟩
    intro k _
    refine .inr fun ht => ?_
    exact h.clock.trans (World.read_finite (htrusted ht)).ge
  | resolve raw sess t glitch =>
    obtain rfl := Option.some.inj hs
    exact h.of_same le_rfl (Registry.resolve_same _ _ _ _ _)

theorem inv_of_reached {cap : Option Int} {clock : ℚ} {glitch : Bool} {w : World}
    (h : Reached (step normalizeAccountId) (World.create cap clock glitch) w) :
    Inv normalizeAccountId w :=
  h.invariant (Inv.create cap clock glitch) fun _ _ _ hi _ hs => hi.step hs

theorem since_of_reached {w w' : World} (h : Reached (step normalizeAccountId) w w') :
    Since w w' :=
  h.invariant (Since.refl w) fun _ _ _ hi _ hs => hi.step hs

end Webchannel.Approval
