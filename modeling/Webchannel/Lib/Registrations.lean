import Webchannel.Lib.OrderedMap

/-!
# Registrations by command

A peer keeps one value for each key and is told about changes by commands that it processes in
order: a registration for a key that it knows is ignored, a removal deletes. The other side keeps
a table of its own. Whatever part of the table the peer knows, sending the whole table again
leaves it with exactly the table.
-/

namespace Webchannel.Registrations

inductive Command (κ ν : Type) where
  | register (k : κ) (v : ν)
  | remove (k : κ)
  deriving DecidableEq, Repr

variable {κ ν : Type} [DecidableEq κ]

/-- What the peer knows after one more command. -/
def process (known : κ → Option ν) : Command κ ν → κ → Option ν
  | .register k v => if (known k).isSome then known else Function.update known k (some v)
  | .remove k => Function.update known k none

def processAll (known : κ → Option ν) (commands : List (Command κ ν)) : κ → Option ν :=
  commands.foldl process known

/-- What the peer knows is part of the table. -/
def Within (known table : κ → Option ν) : Prop := ∀ k v, known k = some v → table k = some v

variable {known table : κ → Option ν} {k : κ} {v : ν}

theorem processAll_append (known : κ → Option ν) (l l' : List (Command κ ν)) :
    processAll known (l ++ l') = processAll (processAll known l) l' := List.foldl_append

omit [DecidableEq κ] in
theorem Within.refl (table : κ → Option ν) : Within table table := fun _ _ h => h

theorem process_register (known : κ → Option ν) (k : κ) (v : ν) : process known (.register k v) =
    if (known k).isSome then known else Function.update known k (some v) := rfl

theorem process_register_fresh (h : known k = none) :
    process known (.register k v) = Function.update known k (some v) := by
  rw [process_register, h]
  rfl

omit [DecidableEq κ] in
theorem Within.none_of_none (h : Within known table) (hk : table k = none) : known k = none := by
  cases hknown : known k with
  | none => rfl
  | some v => rw [h k v hknown] at hk; cases hk

theorem Within.update (h : Within known table) (k : κ) (o : Option ν) :
    Within (Function.update known k o) (Function.update table k o) := by
  intro k' v hv
  by_cases hk : k' = k
  · subst hk
    rw [Function.update_self] at hv ⊢
    exact hv
  · rw [Function.update_of_ne hk] at hv ⊢
    exact h k' v hv

/-- Registering what the table holds teaches the peer nothing else. -/
theorem Within.known_register (h : Within known table) (hk : table k = some v) :
    Within (process known (.register k v)) table := by
  rw [process_register]
  split
  · exact h
  · intro k' v' hv
    by_cases hne : k' = k
    · subst hne
      rw [Function.update_self] at hv
      exact hk.trans hv
    · rw [Function.update_of_ne hne] at hv
      exact h k' v' hv

/-- A registration makes its key known and forgets none. -/
theorem isSome_process_register {k' : κ} (h : (known k').isSome = true ∨ k' = k) :
    (process known (.register k v) k').isSome = true := by
  rw [process_register]
  split
  · rename_i hk
    rcases h with h | rfl
    · exact h
    · exact hk
  · by_cases hne : k' = k
    · subst hne
      simp
    · rw [Function.update_of_ne hne]
      exact h.resolve_right hne

/-- Sending entries of the table keeps the peer within it, and the peer then knows all of them. -/
theorem replayed_entries {l : List (κ × ν)} (h : Within known table) (hl : ∀ e ∈ l, table e.1 = some e.2) :
    Within (processAll known (l.map fun e => .register e.1 e.2)) table ∧
      ∀ k, ((known k).isSome = true ∨ k ∈ l.map Prod.fst) →
        (processAll known (l.map fun e => .register e.1 e.2) k).isSome = true := by
  induction l generalizing known with
  | nil => exact ⟨h, fun k hk => hk.resolve_right List.not_mem_nil⟩
  | cons e l ih =>
    have hstep : Within (process known (.register e.1 e.2)) table := h.known_register (hl e List.mem_cons_self)
    obtain ⟨hwithin, hall⟩ := ih hstep fun e' he => hl e' (.tail _ he)
    refine ⟨hwithin, fun k hk => hall k ?_⟩
    rcases hk with hk | hk
    · exact .inl (isSome_process_register (.inl hk))
    · rcases List.mem_cons.mp hk with rfl | hk
      · exact .inl (isSome_process_register (.inr rfl))
      · exact .inr hk

/-- Replaying a whole table leaves the peer with exactly the table. -/
theorem replayed (m : OrderedMap κ ν) (h : Within known m.get) :
    processAll known (m.entries.map fun e => .register e.1 e.2) = m.get := by
  obtain ⟨hwithin, hall⟩ := replayed_entries h fun e he => OrderedMap.mem_entries.mp he
  funext k
  cases hk : m.get k with
  | none => exact hwithin.none_of_none hk
  | some v =>
    have hsome := hall k (.inr (List.mem_map.mpr ⟨(k, v), OrderedMap.mem_entries.mpr hk, rfl⟩))
    obtain ⟨v', hv⟩ := Option.isSome_iff_exists.mp hsome
    rw [hv]
    exact (hwithin k v' hv).symm.trans hk

/-! ### Tables as functions -/

theorem get_set_update (m : OrderedMap κ ν) (k : κ) (v : ν) : (m.set k v).get = Function.update m.get k (some v) := by
  funext k'
  rw [OrderedMap.get_set_eq, Function.update_apply]

theorem get_delete_update (m : OrderedMap κ ν) (k : κ) : (m.delete k).get = Function.update m.get k none := by
  funext k'
  rw [OrderedMap.get_delete_eq, Function.update_apply]

end Webchannel.Registrations
