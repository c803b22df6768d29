import Webchannel.Register.PopChallenge

/-!
# The nonces of a store

What every operation of `PopChallengeStore` does to the nonces of one peer.
-/

namespace Webchannel.Register

namespace PopChallengeStore

variable {store : PopChallengeStore} {p q n m : JsString} {e now : Int}

/-- The expiry of a nonce that the store holds for a peer. -/
def find (store : PopChallengeStore) (peerId nonce : JsString) : Option Int := (store.bucket peerId).get nonce

theorem find_eq_bind (store : PopChallengeStore) (p n : JsString) :
    store.find p n = (store.byPeer.get p).bind fun bucket => bucket.get n := by
  unfold find bucket
  cases store.byPeer.get p with
  | none => rfl
  | some bucket => rfl

theorem bucket_set (store : PopChallengeStore) (p q : JsString) (bucket : Bucket) :
    PopChallengeStore.bucket { store with byPeer := store.byPeer.set p bucket } q =
      if q = p then bucket else store.bucket q := by
  unfold PopChallengeStore.bucket
  dsimp only
  rw [OrderedMap.get_set_eq]
  split
  · rfl
  · rfl

theorem get_of_size_eq_zero {bucket : Bucket} (h : bucket.size = 0) (n : JsString) : bucket.get n = none := by
  have hentries : bucket.entries = [] := List.length_eq_zero_iff.mp h
  simp [OrderedMap.get, hentries]

theorem find_sweep (store : PopChallengeStore) (now : Int) (p n : JsString) :
    (store.sweep now).find p n = (store.find p n).filter fun expiresAt => ¬ expiresAt < now := by
  rw [find_eq_bind, find_eq_bind]
  unfold sweep
  dsimp only
  rw [OrderedMap.get_filter, OrderedMap.get_mapValues]
  cases store.byPeer.get p with
  | none => rfl
  | some bucket =>
    rw [Option.map_some, Option.bind_some, ← OrderedMap.get_filter, Option.filter_some]
    split
    · rfl
    · rename_i hsize
      have hempty : (bucket.filter fun expiresAt => ¬ expiresAt < now).size = 0 :=
        not_not.mp fun h => hsize (decide_eq_true h)
      exact (get_of_size_eq_zero hempty n).symm

theorem size_bucket_sweep_le (store : PopChallengeStore) (now : Int) (p : JsString) :
    ((store.sweep now).bucket p).size ≤ (store.bucket p).size := by
  unfold PopChallengeStore.bucket sweep
  dsimp only
  rw [OrderedMap.get_filter, OrderedMap.get_mapValues]
  cases store.byPeer.get p with
  | none => exact Nat.le_refl _
  | some bucket =>
    rw [Option.map_some, Option.filter_some, Option.getD_some]
    split
    · exact List.length_filter_le _ _
    · exact Nat.zero_le _

theorem find_issue (store : PopChallengeStore) (p nonce q n : JsString) (sweepAt setAt : Int) :
    (store.issue p nonce sweepAt setAt).find q n =
      if q = p then
        if n = nonce then some (setAt + store.ttlMs)
        else (((store.sweep sweepAt).bucket p).evict store.maxNoncesPerPeer).get n
      else (store.sweep sweepAt).find q n := by
  unfold find issue
  dsimp only
  rw [bucket_set]
  split
  · exact OrderedMap.get_set_eq _ _ _ _
  · rfl

/-- What is found after a challenge is new or was found before and has not expired. -/
theorem find_of_find_issue {nonce : JsString} {sweepAt setAt : Int}
    (h : (store.issue p nonce sweepAt setAt).find q n = some e) :
    q = p ∧ n = nonce ∧ e = setAt + store.ttlMs ∨ store.find q n = some e := by
  have hsweep (h : (store.sweep sweepAt).find q n = some e) : store.find q n = some e := by
    rw [find_sweep] at h
    exact (Option.filter_eq_some_iff.mp h).1
  rw [find_issue] at h
  split at h
  · rename_i hq
    split at h
    · rename_i hn
      exact .inl ⟨hq, hn, (Option.some.inj h).symm⟩
    · subst hq
      exact .inr (hsweep (OrderedMap.get_of_get_evict h))
  · exact .inr (hsweep h)

/-- A challenge of another peer keeps what has not expired. -/
theorem find_issue_of_ne {nonce : JsString} {sweepAt setAt : Int} (hne : q ≠ p)
    (h : store.find q n = some e) (hlive : ¬ e < sweepAt) :
    (store.issue p nonce sweepAt setAt).find q n = some e := by
  rw [find_issue, if_neg hne, find_sweep, h, Option.filter_some, if_pos (by simpa using hlive)]

theorem length_dropOldest_le {α : Type} (cap : Nat) (l : List α) :
    (OrderedMap.dropOldest cap l).length ≤ cap - 1 := by
  induction l with
  | nil => exact Nat.zero_le _
  | cons a l ih =>
    rw [OrderedMap.dropOldest]
    split
    · exact ih
    · rw [List.length_cons]
      omega

theorem size_set_le (bucket : Bucket) (n : JsString) (e : Int) : (bucket.set n e).size ≤ bucket.size + 1 := by
  unfold OrderedMap.size OrderedMap.set
  split
  · rw [List.length_map]
    exact Nat.le_succ _
  · rw [List.length_append]
    exact Nat.le_refl _

theorem size_bucket_issue_le {nonce : JsString} {sweepAt setAt : Int} {cap : Nat}
    (hcap : max store.maxNoncesPerPeer 1 ≤ cap) (h : ∀ q, (store.bucket q).size ≤ cap) (q : JsString) :
    ((store.issue p nonce sweepAt setAt).bucket q).size ≤ cap := by
  unfold issue
  dsimp only
  rw [bucket_set]
  split
  · have hset := size_set_le (((store.sweep sweepAt).bucket p).evict store.maxNoncesPerPeer) nonce
      (setAt + store.ttlMs)
    have hevict : (((store.sweep sweepAt).bucket p).evict store.maxNoncesPerPeer).size ≤
        store.maxNoncesPerPeer - 1 := length_dropOldest_le _ _
    have hsame : (store.sweep sweepAt).ttlMs = store.ttlMs := rfl
    have hmax : (store.sweep sweepAt).maxNoncesPerPeer = store.maxNoncesPerPeer := rfl
    rw [hsame, hmax]
    omega
  · exact Nat.le_trans (size_bucket_sweep_le store sweepAt q) (h q)

theorem bucket_deleteNonce (store : PopChallengeStore) (p n q : JsString) :
    (store.deleteNonce p n).bucket q = if q = p then (store.bucket p).delete n else store.bucket q := by
  unfold deleteNonce
  dsimp only
  split
  · rename_i hsize
    unfold PopChallengeStore.bucket at hsize ⊢
    dsimp only
    rw [OrderedMap.get_delete_eq]
    split
    · have hentries : (((store.byPeer.get p).getD .empty).delete n).entries = [] :=
        List.length_eq_zero_iff.mp hsize
      cases hdelete : ((store.byPeer.get p).getD .empty).delete n with
      | mk entries nodup =>
        rw [hdelete] at hentries
        subst hentries
        rfl
    · rfl
  · exact bucket_set store p q _

theorem find_deleteNonce (store : PopChallengeStore) (p n q m : JsString) :
    (store.deleteNonce p n).find q m = if q = p ∧ m = n then none else store.find q m := by
  unfold find
  rw [bucket_deleteNonce]
  by_cases hq : q = p
  · subst hq
    rw [if_pos rfl, OrderedMap.get_delete_eq]
    simp
  · simp [hq]

theorem size_bucket_deleteNonce_le (store : PopChallengeStore) (p n q : JsString) :
    ((store.deleteNonce p n).bucket q).size ≤ (store.bucket q).size := by
  rw [bucket_deleteNonce]
  split
  · rename_i hq
    subst hq
    exact List.length_filter_le _ _
  · exact Nat.le_refl _

/-- The three outcomes of a lookup. -/
theorem consume_eq (store : PopChallengeStore) (p n : JsString) (now : Int) :
    store.consume p n now =
      match store.find p n with
      | none => (.missing, store)
      | some e => if e < now then (.expired, store.deleteNonce p n) else (.ok, store.deleteNonce p n) := by
  rw [find_eq_bind]
  unfold consume
  cases store.byPeer.get p with
  | none => rfl
  | some bucket => rfl

/-- A proof that verifies was signed over a nonce of the peer that had not expired; the nonce is gone. -/
theorem verify_ok {runtime : SignatureRuntime} {op : PopOp} {signature : JsString} {jwk : PopPublicJwk}
    (h : (store.verify runtime op p n signature jwk now).1.ok = true) :
    (∃ e, store.find p n = some e ∧ ¬ e < now) ∧
      (store.verify runtime op p n signature jwk now).2 = store.deleteNonce p n ∧
      (verifySignature runtime op p n signature jwk).ok = true := by
  unfold verify at h ⊢
  rw [consume_eq] at h ⊢
  cases hfind : store.find p n with
  | none =>
    rw [hfind] at h
    cases h
  | some e =>
    rw [hfind] at h
    dsimp only at h ⊢
    by_cases hexpired : e < now
    · rw [if_pos hexpired] at h
      cases h
    · rw [if_neg hexpired] at h ⊢
      exact ⟨⟨e, rfl, hexpired⟩, rfl, h⟩

/-- A verification leaves the store alone or takes the nonce out of it. -/
theorem verify_store (runtime : SignatureRuntime) (store : PopChallengeStore) (op : PopOp)
    (p n signature : JsString) (jwk : PopPublicJwk) (now : Int) :
    (store.verify runtime op p n signature jwk now).2 = store ∨
      (store.verify runtime op p n signature jwk now).2 = store.deleteNonce p n := by
  unfold verify
  rw [consume_eq]
  cases store.find p n with
  | none => exact .inl rfl
  | some e =>
    dsimp only
    by_cases hexpired : e < now
    · rw [if_pos hexpired]
      exact .inr rfl
    · rw [if_neg hexpired]
      exact .inr rfl

/-- What a signature that verifies is a signature of. -/
theorem verifySignature_ok {runtime : SignatureRuntime} {op : PopOp} {signature : JsString} {jwk : PopPublicJwk}
    (h : (verifySignature runtime op p n signature jwk).ok = true) :
    jwk.kty = js "OKP" ∧ jwk.crv = js "Ed25519" ∧ ∃ pub, runtime.createPublicKey jwk = some pub ∧
      runtime.edVerify (encodeUtf8 (popSignedMessage op p n)) pub (runtime.fromBase64Url signature) = true := by
  unfold verifySignature at h
  split at h
  · cases h
  · rename_i hkind
    rw [not_or, not_not, not_not] at hkind
    cases hpub : runtime.createPublicKey jwk with
    | none =>
      rw [hpub] at h
      cases h
    | some pub =>
      rw [hpub] at h
      dsimp only at h
      split at h
      · rename_i hverify
        exact ⟨hkind.1, hkind.2, pub, rfl, hverify⟩
      · cases h

end PopChallengeStore

end Webchannel.Register
