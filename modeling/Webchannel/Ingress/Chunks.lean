import Mathlib.Data.Rat.Defs
import Webchannel.Lib.LengthPrefix
import Webchannel.Lib.Program
import Webchannel.Retention.Budget

/-!
# Result chunks

`createIngressResultChunkWriter` of `ingress-result-chunks.ts`. Ids are collected in one
bounded frame; a frame that can take no more is published in the middle of the work. What it
is published through, and the size of a sealed frame, are calls of the environment.
-/

namespace Webchannel.Ingress

open Webchannel.Program Webchannel.Retention

/-- A JavaScript number. -/
inductive Number where
  | nan | negInfinity | infinity
  | finite (value : Rat)
  deriving DecidableEq

namespace Number

def ofNat (n : Nat) : Number := .finite n

/-- `a < b`. -/
def lt : Number → Number → Bool
  | .nan, _ | _, .nan => false
  | _, .negInfinity | .infinity, _ => false
  | .negInfinity, _ | _, .infinity => true
  | .finite a, .finite b => decide (a < b)

/-- `Math.min(a, b)`. -/
def min (a b : Number) : Number :=
  if a = .nan ∨ b = .nan then .nan else if b.lt a then b else a

/-- The value of a safe integer that is not negative. -/
def safeNat : Number → Option Nat
  | .finite value =>
    if value.den = 1 ∧ 0 ≤ value.num ∧ value.num ≤ maxSafeInteger then some value.num.toNat else none
  | _ => none

/-- `a <= b`. -/
def le (a b : Number) : Bool := a.lt b || (a != .nan && a == b)

theorem le_of_not_lt {a b : Number} (ha : a ≠ .nan) (hb : b ≠ .nan) (h : a.lt b = false) : b.le a = true := by
  cases a <;> cases b <;> simp_all [le, lt]
  grind

theorem not_lt_of_le {a b : Number} (h : b.le a = true) : a.lt b = false := by
  cases a <;> cases b <;> simp_all [le, lt]
  grind

theorem le_trans {a b c : Number} (hab : a.le b = true) (hbc : b.le c = true) : a.le c = true := by
  cases a <;> cases b <;> cases c <;> simp_all [le, lt]
  grind

theorem ofNat_le {m n : Nat} (h : m ≤ n) : (ofNat m).le (ofNat n) = true :=
  le_of_not_lt nofun nofun (decide_eq_false fun hlt => Nat.not_lt_of_le h (Rat.natCast_lt_natCast.mp hlt))

theorem ne_nan_of_le {a b : Number} (h : a.le b = true) : a ≠ .nan := by
  rintro rfl
  cases b <;> cases h

end Number

def maxIngressResultIds : Nat := 64

def maxIngressResultWireBytes : Nat := 64 * 1024

def maxIngressResultIdLength : Nat := 128

inductive ResultType where
  | ack | inboundRejected
  deriving DecidableEq, Repr

/-- The reason of a rejection is always `overloaded`. -/
structure IngressResultFrame where
  type : ResultType
  ids : List String
  deriving DecidableEq, Repr

/-- Where a frame is published from, kept as history: the retry of a cancelled message, a
chunk that could take no more, or the end of the batch. -/
inductive Site where
  | fallback | add | finish
  deriving DecidableEq, Repr

structure ChunkLimits where
  maxIds : Nat
  effectiveLimit : Nat
  deriving DecidableEq, Repr

/-- The limits of a new writer; `none` when the options are refused with a `TypeError`. -/
def chunkLimits (maxIds maxWireBytes effectiveOutboundLimit : Option Number) :
    Option ChunkLimits := do
  let maxIds ← (maxIds.getD (.ofNat maxIngressResultIds)).safeNat
  let effectiveLimit ← (Number.min (maxWireBytes.getD (.ofNat maxIngressResultWireBytes))
    (effectiveOutboundLimit.getD (.ofNat maxSafeInteger.toNat))).safeNat
  if maxIds < 1 then none else some { maxIds, effectiveLimit }

/-- The variables of a writer; `inChunk` is the set of its `ids`. -/
structure ChunkWriter where
  limits : ChunkLimits
  ids : List String
  ok : Bool
  deriving DecidableEq, Repr

def ChunkWriter.create (limits : ChunkLimits) : ChunkWriter := ⟨limits, [], true⟩

/-- The options of a writer, and where the caller keeps the writer's variables. -/
structure ChunkOptions (Call : Type) (Reply : Call → Type) (σ : Type) where
  type : ResultType
  publish : Site → IngressResultFrame → Code Call Reply σ Bool
  measureWireBytes : IngressResultFrame → Code Call Reply σ Number
  onTooSmall : Code Call Reply σ Unit
  writer : σ → ChunkWriter
  put : ChunkWriter → σ → σ

namespace ChunkOptions

variable {Call : Type} {Reply : Call → Type} {σ : Type} (o : ChunkOptions Call Reply σ)

def update (f : ChunkWriter → ChunkWriter) : Code Call Reply σ Unit :=
  Code.modify fun s => o.put (f (o.writer s)) s

def frameFor (ids : List String) : IngressResultFrame := ⟨o.type, ids⟩

def flush (site : Site) : Code Call Reply σ Bool := do
  let s ← Code.get
  if (o.writer s).ids = [] then pure true
  else
    let sent ← o.publish site (o.frameFor (o.writer s).ids)
    o.update fun w => { w with ids := [], ok := sent && w.ok }
    pure sent

/-- The end of `add`: the ids the chunk is to hold, if they fit. -/
def place (next : List String) (bytes : Number) : Code Call Reply σ Bool := do
  let s ← Code.get
  if (Number.ofNat (o.writer s).limits.effectiveLimit).lt bytes then
    o.onTooSmall
    o.update ({ · with ok := false })
    pure false
  else
    o.update ({ · with ids := next })
    pure true

/-- The part of `add` that follows the bound on the number of ids. -/
def append (candidate : String) : Code Call Reply σ Bool := do
  let s ← Code.get
  let bytes ← o.measureWireBytes (o.frameFor ((o.writer s).ids ++ [candidate]))
  if bytes.safeNat = none then Code.throw
  else if (Number.ofNat (o.writer s).limits.effectiveLimit).lt bytes ∧ (o.writer s).ids ≠ [] then
    let _ ← o.flush .add
    let bytes ← o.measureWireBytes (o.frameFor [candidate])
    o.place [candidate] bytes
  else o.place ((o.writer s).ids ++ [candidate]) bytes

/-- A candidate that is not a string is `none`. -/
def add (candidate : Option String) : Code Call Reply σ Bool := do
  match candidate.filter fun id => 0 < utf16Length id ∧ utf16Length id ≤ maxIngressResultIdLength with
  | none => pure false
  | some id =>
    let s ← Code.get
    if id ∈ (o.writer s).ids then pure true
    else if (o.writer s).limits.maxIds ≤ (o.writer s).ids.length then
      let _ ← o.flush .add
      o.append id
    else o.append id

def finish : Code Call Reply σ Bool := do
  let _ ← o.flush .finish
  let s ← Code.get
  pure (o.writer s).ok

/-! ### An invariant of the caller -/

section Rules

variable {o} {ok : Trace Call Reply → Event Call Reply → Prop} {P : Trace Call Reply → Prop}
  {I : σ → Trace Call Reply → Prop} {id : String}

/-- `publish` and `measureWireBytes` do not touch the writer, and `I` allows for publishing the
chunk as it is and for a chunk of the same ids, possibly with `id`. -/
structure Allows (o : ChunkOptions Call Reply σ) (ok : Trace Call Reply → Event Call Reply → Prop)
    (P : Trace Call Reply → Prop) (I : σ → Trace Call Reply → Prop) (id : String) : Prop where
  publish : ∀ w, Spec ok P (fun s t => o.writer s = w ∧ I s t) (o.publish .add (o.frameFor w.ids))
    fun _ s t => o.writer s = w ∧ I s t
  measureWireBytes : ∀ w frame, Spec ok P (fun s t => o.writer s = w ∧ I s t)
    (o.measureWireBytes frame) fun _ s t => o.writer s = w ∧ I s t
  onTooSmall : Spec ok P I o.onTooSmall fun _ => I
  put : ∀ w s t, I s t → (∀ x ∈ w.ids, x ∈ (o.writer s).ids ∨ x = id) → I (o.put w s) t

theorem Allows.update (h : o.Allows ok P I id) {g : ChunkWriter → ChunkWriter}
    (hg : ∀ w, ∀ x ∈ (g w).ids, x ∈ w.ids ∨ x = id) : Spec ok P I (o.update g) fun _ => I :=
  Spec.modify fun s t hI => h.put _ s t hI (hg _)

theorem Allows.flush (h : o.Allows ok P I id) : Spec ok P I (o.flush .add) fun _ => I := by
  refine Spec.get fun s => Spec.ite (fun _ => Spec.pure fun _ _ hI => hI.2) fun _ => ?_
  refine Spec.bind ((h.publish (o.writer s)).pre fun _ _ hI => ⟨hI.1 ▸ rfl, hI.2⟩) (fun sent => ?_)
    fun _ _ hI => hI.2
  refine Spec.bind ((h.update fun w x hx => ?_).pre fun _ _ hI => hI.2)
    (fun _ => Spec.pure fun _ _ hI => hI) fun _ _ hI => hI
  cases hx

theorem Allows.place (h : o.Allows ok P I id) {w : ChunkWriter} {next : List String} {bytes : Number}
    (hnext : ∀ x ∈ next, x ∈ w.ids ∨ x = id) :
    Spec ok P (fun s t => o.writer s = w ∧ I s t) (o.place next bytes) fun _ => I := by
  refine Spec.get fun s => Spec.ite (fun _ => ?_) fun _ => ?_
  · refine Spec.bind (h.onTooSmall.pre fun _ _ hI => hI.2.2) (fun _ => ?_) fun _ _ hI => hI
    exact Spec.bind (h.update fun w x hx => .inl hx) (fun _ => Spec.pure fun _ _ hI => hI)
      fun _ _ hI => hI
  · refine Spec.bind (Q := fun _ => I) (Spec.modify ?_) (fun _ => Spec.pure fun _ _ hI => hI)
      fun _ _ hI => hI
    rintro s' t ⟨-, hw, hI⟩
    exact h.put _ s' t hI (hw ▸ hnext)

theorem Allows.append (h : o.Allows ok P I id) : Spec ok P I (o.append id) fun _ => I := by
  refine Spec.get fun s => ?_
  refine Spec.bind ((h.measureWireBytes (o.writer s) _).pre fun _ _ hI => ⟨hI.1 ▸ rfl, hI.2⟩)
    (fun bytes => ?_) fun _ _ hI => hI.2
  refine Spec.ite (fun _ => Spec.throw fun _ _ hI => hI.2) fun _ => Spec.ite (fun _ => ?_) fun _ => ?_
  · refine Spec.bind (h.flush.pre fun _ _ hI => hI.2) (fun _ => ?_) fun _ _ hI => hI
    intro s' t hI
    refine Spec.bind (K := fun _ => I) (h.measureWireBytes (o.writer s') _) (fun bytes => ?_)
      (fun _ _ hI => hI.2) s' t ⟨rfl, hI⟩
    exact h.place fun x hx => .inr (List.mem_singleton.mp hx)
  · refine h.place fun x hx => ?_
    rw [List.mem_append, List.mem_singleton] at hx
    exact hx

/-- Adding an id keeps the invariant, however many chunks it publishes. -/
theorem Allows.add (h : o.Allows ok P I id) : Spec ok P I (o.add (some id)) fun _ => I := by
  unfold ChunkOptions.add
  cases hid : (some id).filter fun id => 0 < utf16Length id ∧
      utf16Length id ≤ maxIngressResultIdLength with
  | none => exact Spec.pure fun _ _ hI => hI
  | some id' =>
    obtain ⟨-, rfl⟩ : _ ∧ id = id' := by
      rw [Option.filter_eq_some_iff] at hid
      exact ⟨hid.2, Option.some.inj hid.1⟩
    refine Spec.get fun s => Spec.ite (fun _ => Spec.pure fun _ _ hI => hI.2) fun _ => ?_
    refine Spec.ite (fun _ => ?_) fun _ => h.append.pre fun _ _ hI => hI.2
    exact Spec.bind (h.flush.pre fun _ _ hI => hI.2) (fun _ => h.append) fun _ _ hI => hI

end Rules

end ChunkOptions

end Webchannel.Ingress
