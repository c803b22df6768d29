import Mathlib.Order.Nat
import Mathlib.Algebra.Order.Group.Nat
import Webchannel.Lib.Heap
import Webchannel.Lib.OrderedMap

/-!
# Mutual exclusion by a chain of promises

For each key a map holds the tail of a promise chain. A ticket waits for the tail it found,
and its own tail settles once that one has and the ticket has been released. A settled tail
that is still the last one may be forgotten. Tickets of one key are served in the order in
which they were drawn, one at a time.
-/

namespace Webchannel

variable {κ : Type} [DecidableEq κ]

/-- `previous` is the ticket whose tail was found in the map, `none` when there was none. -/
structure Ticket (κ : Type) where
  key : κ
  previous : Option Nat
  entered : Bool
  released : Bool
  tailSettled : Bool
  deriving DecidableEq, Repr

structure Gate (κ : Type) where
  tails : OrderedMap κ Nat
  tickets : Heap (Ticket κ)

namespace Gate

def empty : Gate κ := ⟨.empty, .empty⟩

/-- The synchronous part of taking a ticket; the ticket is `g.tickets.next`. -/
def draw (g : Gate κ) (k : κ) : Gate κ where
  tails := g.tails.set k g.tickets.next
  tickets := g.tickets.alloc
    { key := k, previous := g.tails.get k, entered := false, released := false, tailSettled := false }

/-- The promise a ticket waits for has settled. -/
def previousSettled (g : Gate κ) (t : Ticket κ) : Bool :=
  match t.previous with
  | none => true
  | some p => (g.tickets.get p).any Ticket.tailSettled

def enter (g : Gate κ) (i : Nat) : Option (Gate κ) := do
  let t ← g.tickets.get i
  if t.entered = false ∧ g.previousSettled t = true then
    some { g with tickets := g.tickets.update i ({ · with entered := true }) }
  else none

/-- Releasing twice is the same as releasing once. -/
def release (g : Gate κ) (i : Nat) : Gate κ :=
  { g with tickets := g.tickets.update i ({ · with released := true }) }

def settleTail (g : Gate κ) (i : Nat) : Option (Gate κ) := do
  let t ← g.tickets.get i
  if t.released = true ∧ g.previousSettled t = true then
    some { g with tickets := g.tickets.update i ({ · with tailSettled := true }) }
  else none

/-- The callback on a settled tail. -/
def forgetTail (g : Gate κ) (i : Nat) : Option (Gate κ) := do
  let t ← g.tickets.get i
  if t.tailSettled = true then
    some (if g.tails.get t.key = some i then { g with tails := g.tails.delete t.key } else g)
  else none

/-- The ticket has been let in and not been released yet. -/
def Inside (g : Gate κ) (i : Nat) : Prop :=
  ∃ t, g.tickets.get i = some t ∧ t.entered = true ∧ t.released = false

structure Inv (g : Gate κ) : Prop where
  previous : ∀ j t p, g.tickets.get j = some t → t.previous = some p →
    p < j ∧ (∃ u, g.tickets.get p = some u ∧ u.key = t.key) ∧
    ∀ i u, g.tickets.get i = some u → u.key = t.key → i < j → i ≤ p
  first : ∀ j t, g.tickets.get j = some t → t.previous = none →
    ∀ i u, g.tickets.get i = some u → u.key = t.key → i < j → u.released = true
  settled : ∀ j t, g.tickets.get j = some t → t.tailSettled = true →
    t.released = true ∧ g.previousSettled t = true
  entered : ∀ j t, g.tickets.get j = some t → t.entered = true → g.previousSettled t = true
  released : ∀ j t, g.tickets.get j = some t → t.released = true → t.entered = true
  tail : ∀ k i, g.tails.get k = some i → (∃ t, g.tickets.get i = some t ∧ t.key = k) ∧
    ∀ j u, g.tickets.get j = some u → u.key = k → j ≤ i
  noTail : ∀ k, g.tails.get k = none →
    ∀ j u, g.tickets.get j = some u → u.key = k → u.released = true

variable {g g' : Gate κ} {i j : Nat} {t u : Ticket κ}

theorem Inv.empty : Inv (empty : Gate κ) := by
  constructor <;> simp [Gate.empty]

/-- When a tail has settled, everything drawn up to it has been released. -/
theorem Inv.released_upto (h : g.Inv) (hj : g.tickets.get j = some t)
    (hs : t.tailSettled = true) (hi : g.tickets.get i = some u) (hkey : u.key = t.key)
    (hij : i ≤ j) : u.released = true := by
  induction j using Nat.strongRec generalizing t with
  | _ j ih =>
    obtain ⟨hrel, hprev⟩ := h.settled j t hj hs
    rcases Nat.eq_or_lt_of_le hij with rfl | hlt
    · obtain rfl := Option.some.inj (hi.symm.trans hj)
      exact hrel
    · cases hp : t.previous with
      | none => exact h.first j t hj hp i u hi hkey hlt
      | some p =>
        obtain ⟨hpj, ⟨v, hv, hvkey⟩, hmax⟩ := h.previous j t p hj hp
        simp only [previousSettled, hp, hv, Option.any_some] at hprev
        exact ih p hpj hv hprev (hkey.trans hvkey.symm) (hmax i u hi hkey hlt)

/-- A ticket that was let in finds every earlier ticket of its key released. -/
theorem Inv.earlier_released (h : g.Inv) (hj : g.tickets.get j = some t)
    (he : t.entered = true) (hi : g.tickets.get i = some u) (hkey : u.key = t.key)
    (hij : i < j) : u.released = true := by
  have hprev := h.entered j t hj he
  cases hp : t.previous with
  | none => exact h.first j t hj hp i u hi hkey hij
  | some p =>
    obtain ⟨-, ⟨v, hv, hvkey⟩, hmax⟩ := h.previous j t p hj hp
    simp only [previousSettled, hp, hv, Option.any_some] at hprev
    exact h.released_upto hv hprev hi (hkey.trans hvkey.symm) (hmax i u hi hkey hij)

/-- At most one ticket of a key is inside. -/
theorem Inv.exclusive (h : g.Inv) (hi : g.tickets.get i = some t) (hj : g.tickets.get j = some u)
    (hkey : t.key = u.key) (hii : g.Inside i) (hij : g.Inside j) : i = j := by
  obtain ⟨t', ht', hte, htr⟩ := hii
  obtain ⟨u', hu', hue, hur⟩ := hij
  obtain rfl := Option.some.inj (hi.symm.trans ht')
  obtain rfl := Option.some.inj (hj.symm.trans hu')
  rcases Nat.lt_trichotomy i j with hlt | heq | hlt
  · simp [h.earlier_released hj hue hi hkey hlt] at htr
  · exact heq
  · simp [h.earlier_released hi hte hj hkey.symm hlt] at hur

theorem previousSettled_alloc (h : g.Inv) {j : Nat} (hj : g.tickets.get j = some t)
    (u : Ticket κ) (tails : OrderedMap κ Nat) :
    previousSettled ⟨tails, g.tickets.alloc u⟩ t = g.previousSettled t := by
  unfold previousSettled
  cases hp : t.previous with
  | none => rfl
  | some p =>
    obtain ⟨-, ⟨v, hv, -⟩, -⟩ := h.previous j t p hj hp
    simp only [hv, Heap.get_alloc_of_some hv]

theorem Inv.draw (h : g.Inv) (k : κ) : (g.draw k).Inv := by
  have hlast : ∀ j u, (g.draw k).tickets.get j = some u → j ≤ g.tickets.next := by
    intro j u hu
    rcases Heap.get_alloc_cases hu with ⟨rfl, -⟩ | hu
    · exact le_refl _
    · exact (Heap.lt_next hu).le
  constructor
  · intro j t p ht hp
    rcases Heap.get_alloc_cases ht with ⟨rfl, rfl⟩ | ht
    · obtain ⟨⟨v, hv, hvk⟩, hmax⟩ := h.tail k p hp
      refine ⟨Heap.lt_next hv, ⟨v, Heap.get_alloc_of_some hv, hvk⟩, ?_⟩
      intro i u hu hkey hlt
      rcases Heap.get_alloc_cases hu with ⟨rfl, -⟩ | hu
      · exact absurd hlt (lt_irrefl _)
      · exact hmax i u hu hkey
    · obtain ⟨hlt, ⟨v, hv, hvk⟩, hmax⟩ := h.previous j t p ht hp
      refine ⟨hlt, ⟨v, Heap.get_alloc_of_some hv, hvk⟩, ?_⟩
      intro i u hu hkey hij
      rcases Heap.get_alloc_cases hu with ⟨rfl, -⟩ | hu
      · exact absurd (hij.trans (Heap.lt_next ht)) (lt_irrefl _)
      · exact hmax i u hu hkey hij
  · intro j t ht hp i u hu hkey hij
    rcases Heap.get_alloc_cases hu with ⟨rfl, -⟩ | hu
    · exact absurd hij (not_lt.mpr (hlast j t ht))
    · rcases Heap.get_alloc_cases ht with ⟨rfl, rfl⟩ | ht
      · exact h.noTail k hp i u hu hkey
      · exact h.first j t ht hp i u hu hkey hij
  · intro j t ht hs
    rcases Heap.get_alloc_cases ht with ⟨-, rfl⟩ | ht
    · cases hs
    · rw [Gate.draw, previousSettled_alloc h ht]
      exact h.settled j t ht hs
  · intro j t ht he
    rcases Heap.get_alloc_cases ht with ⟨-, rfl⟩ | ht
    · cases he
    · rw [Gate.draw, previousSettled_alloc h ht]
      exact h.entered j t ht he
  · intro j t ht hr
    rcases Heap.get_alloc_cases ht with ⟨-, rfl⟩ | ht
    · cases hr
    · exact h.released j t ht hr
  · intro k' i hi
    simp only [Gate.draw, OrderedMap.get_set_eq] at hi
    split at hi
    · rename_i hk
      obtain rfl := Option.some.inj hi
      exact ⟨⟨_, Heap.get_alloc_next _ _, hk.symm⟩, fun j u hu _ => hlast j u hu⟩
    · rename_i hk
      obtain ⟨⟨v, hv, hvk⟩, hmax⟩ := h.tail k' i hi
      refine ⟨⟨v, Heap.get_alloc_of_some hv, hvk⟩, ?_⟩
      intro j u hu hkey
      rcases Heap.get_alloc_cases hu with ⟨-, rfl⟩ | hu
      · exact absurd hkey.symm hk
      · exact hmax j u hu hkey
  · intro k' hk' j u hu hkey
    simp only [Gate.draw, OrderedMap.get_set_eq] at hk'
    split at hk'
    · cases hk'
    · rename_i hne
      rcases Heap.get_alloc_cases hu with ⟨-, rfl⟩ | hu
      · exact absurd hkey.symm hne
      · exact h.noTail k' hk' j u hu hkey

/-- A ticket changes its flags, and none of them goes back. -/
theorem Inv.flags (h : g.Inv) (f : Ticket κ → Ticket κ) (hi : g.tickets.get i = some t)
    (hkey : (f t).key = t.key) (hprev : (f t).previous = t.previous)
    (hrel : t.released = true → (f t).released = true)
    (hset : t.tailSettled = true → (f t).tailSettled = true)
    (hsettled : (f t).tailSettled = true → (f t).released = true ∧ g.previousSettled t = true)
    (hentered : (f t).entered = true → g.previousSettled t = true)
    (hreleased : (f t).released = true → (f t).entered = true) :
    Inv { g with tickets := g.tickets.update i f } := by
  have hget : ∀ j u, (g.tickets.update i f).get j = some u →
      ∃ v, g.tickets.get j = some v ∧ u.key = v.key ∧ u.previous = v.previous ∧
        (v.released = true → u.released = true) ∧ (j = i ∧ v = t ∧ u = f t ∨ u = v) := by
    intro j u hu
    rcases Heap.get_update_cases hu with ⟨rfl, v, hv, rfl⟩ | ⟨-, hu⟩
    · obtain rfl := Option.some.inj (hi.symm.trans hv)
      exact ⟨t, hi, hkey, hprev, hrel, .inl ⟨rfl, rfl, rfl⟩⟩
    · exact ⟨u, hu, rfl, rfl, id, .inr rfl⟩
  have hput : ∀ j v, g.tickets.get j = some v →
      ∃ u, (g.tickets.update i f).get j = some u ∧ u.key = v.key ∧
        (v.tailSettled = true → u.tailSettled = true) := by
    intro j v hv
    rw [Heap.get_update]
    split
    · rename_i hji
      subst hji
      obtain rfl := Option.some.inj (hi.symm.trans hv)
      rw [hi, Option.map_some]
      exact ⟨f t, rfl, hkey, hset⟩
    · exact ⟨v, hv, rfl, id⟩
  -- Settled tails stay settled, so nobody has to wait again.
  have hwait : ∀ {u v : Ticket κ}, u.previous = v.previous → g.previousSettled v = true →
      previousSettled { g with tickets := g.tickets.update i f } u = true := by
    intro u v hp hs
    simp only [previousSettled, hp] at hs ⊢
    cases hv : v.previous with
    | none => rfl
    | some p =>
      simp only [hv] at hs ⊢
      cases hw : g.tickets.get p with
      | none => simp [hw] at hs
      | some w =>
        obtain ⟨w', hw', -, hsettle⟩ := hput p w hw
        simp only [hw, Option.any_some] at hs
        simp [hw', hsettle hs]
  constructor
  · intro j u p hu hp
    obtain ⟨v, hv, hk, hpv, -⟩ := hget j u hu
    obtain ⟨hlt, ⟨w, hw, hwk⟩, hmax⟩ := h.previous j v p hv (hpv.symm.trans hp)
    obtain ⟨w', hw', hwk', -⟩ := hput p w hw
    refine ⟨hlt, ⟨w', hw', by rw [hwk', hwk, hk]⟩, ?_⟩
    intro l x hx hxk hlj
    obtain ⟨y, hy, hyk, -⟩ := hget l x hx
    exact hmax l y hy (by rw [← hyk, hxk, hk]) hlj
  · intro j u hu hp l x hx hxk hlj
    obtain ⟨v, hv, hk, hpv, -⟩ := hget j u hu
    obtain ⟨y, hy, hyk, -, hyr, -⟩ := hget l x hx
    exact hyr (h.first j v hv (hpv.symm.trans hp) l y hy (by rw [← hyk, hxk, hk]) hlj)
  · intro j u hu hs
    obtain ⟨v, hv, -, hpv, -, ⟨-, rfl, rfl⟩ | rfl⟩ := hget j u hu
    · exact ⟨(hsettled hs).1, hwait hpv (hsettled hs).2⟩
    · obtain ⟨hr, hps⟩ := h.settled j u hv hs
      exact ⟨hr, hwait rfl hps⟩
  · intro j u hu he
    obtain ⟨v, hv, -, hpv, -, ⟨-, rfl, rfl⟩ | rfl⟩ := hget j u hu
    · exact hwait hpv (hentered he)
    · exact hwait rfl (h.entered j u hv he)
  · intro j u hu hr
    obtain ⟨v, hv, -, -, -, ⟨-, rfl, rfl⟩ | rfl⟩ := hget j u hu
    · exact hreleased hr
    · exact h.released j u hv hr
  · intro k l hl
    obtain ⟨⟨w, hw, hwk⟩, hmax⟩ := h.tail k l hl
    obtain ⟨w', hw', hwk', -⟩ := hput l w hw
    refine ⟨⟨w', hw', hwk'.trans hwk⟩, fun j u hu huk => ?_⟩
    obtain ⟨v, hv, hk, -⟩ := hget j u hu
    exact hmax j v hv (hk.symm.trans huk)
  · intro k hk j u hu huk
    obtain ⟨v, hv, hkey', -, hvr, -⟩ := hget j u hu
    exact hvr (h.noTail k hk j v hv (hkey'.symm.trans huk))

theorem Inv.enter (h : g.Inv) (he : g.enter i = some g') : g'.Inv := by
  obtain ⟨t, ht, he⟩ := Option.bind_eq_some_iff.mp he
  split at he
  · rename_i hcan
    obtain rfl := Option.some.inj he
    refine h.flags _ ht rfl rfl id id (fun hs => ?_) (fun _ => hcan.2) fun _ => rfl
    exact h.settled i t ht hs
  · cases he

theorem Inv.release (h : g.Inv) (hi : g.Inside i) : (g.release i).Inv := by
  obtain ⟨t, ht, he, -⟩ := hi
  refine h.flags _ ht rfl rfl (fun _ => rfl) id (fun hs => ?_) (fun hs => ?_) fun _ => he
  · exact ⟨rfl, (h.settled i t ht hs).2⟩
  · exact h.entered i t ht hs

theorem Inv.settleTail (h : g.Inv) (hs : g.settleTail i = some g') : g'.Inv := by
  obtain ⟨t, ht, hs⟩ := Option.bind_eq_some_iff.mp hs
  split at hs
  · rename_i hcan
    obtain rfl := Option.some.inj hs
    refine h.flags _ ht rfl rfl id (fun _ => rfl) (fun _ => hcan) (fun he => ?_) fun hr => ?_
    · exact h.entered i t ht he
    · exact h.released i t ht hr
  · cases hs

omit [DecidableEq κ] in
/-- A tail that settles leaves the rest of its ticket alone. -/
theorem settleTail_tickets (hs : g.settleTail i = some g') :
    g'.tickets.next = g.tickets.next ∧ ∀ j t, g.tickets.get j = some t →
      ∃ t', g'.tickets.get j = some t' ∧ t'.key = t.key ∧ t'.entered = t.entered ∧
        t'.released = t.released := by
  obtain ⟨t, ht, hs⟩ := Option.bind_eq_some_iff.mp hs
  split at hs
  · obtain rfl := Option.some.inj hs
    refine ⟨Heap.next_update .., fun j u hu => ?_⟩
    dsimp only
    rw [Heap.get_update]
    split
    · rw [hu, Option.map_some]
      exact ⟨_, rfl, rfl, rfl, rfl⟩
    · exact ⟨u, hu, rfl, rfl, rfl⟩
  · cases hs

theorem forgetTail_tickets (hf : g.forgetTail i = some g') : g'.tickets = g.tickets := by
  obtain ⟨t, ht, hf⟩ := Option.bind_eq_some_iff.mp hf
  split at hf
  · obtain rfl := Option.some.inj hf
    split <;> rfl
  · cases hf

theorem Inv.forgetTail (h : g.Inv) (hf : g.forgetTail i = some g') : g'.Inv := by
  obtain ⟨t, ht, hf⟩ := Option.bind_eq_some_iff.mp hf
  split at hf
  · rename_i hsettled
    obtain rfl := Option.some.inj hf
    split
    · rename_i hlast
      refine ⟨h.previous, h.first, h.settled, h.entered, h.released, ?_, ?_⟩
      · intro k j hj
        simp only [OrderedMap.get_delete_eq] at hj
        split at hj
        · cases hj
        · exact h.tail k j hj
      · intro k hk j u hu hkey
        simp only [OrderedMap.get_delete_eq] at hk
        split at hk
        · rename_i hkk
          subst hkk
          exact h.released_upto ht hsettled hu hkey ((h.tail _ i hlast).2 j u hu hkey)
        · exact h.noTail k hk j u hu hkey
    · exact h
  · cases hf

end Gate

end Webchannel
