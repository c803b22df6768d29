import Mathlib.Data.List.Induction
import Webchannel.Lib.JsonDocument

/-!
# The fingerprint of a configuration

`canonicalJson` and `installFull` of `nats-account-coordinator.ts`. Arrays and objects have an
identity, and what is met again below itself is a cycle: the code throws there and does not look
inside. How the language writes a finite number, and SHA-256, are parameters.
-/

namespace Webchannel.Fingerprint

open JsonText

/-- The numbers of the language, and `JSON.stringify` on the finite ones. -/
structure Numbers (ν : Type) where
  isFinite : ν → Bool
  text : ν → JsString
  literal : ∀ n, isFinite n = true → isNumberText (text n) = true

/-- A value as `canonicalJson` meets it; `other` is undefined, a function, a symbol or a bigint. -/
inductive Value (ν : Type) where
  | null
  | bool (b : Bool)
  | number (n : ν)
  | string (s : JsString)
  | array (identity : Nat) (l : List (Value ν))
  | object (identity : Nat) (l : List (JsString × Value ν))
  | other

/-- The code of an `AccountStartupError` of phase `preflight`. -/
inductive StartupError where
  | hostConfigInvariant
  | hostConfigCycle
  deriving DecidableEq, Repr

variable {ν : Type} (numbers : Numbers ν)

/-- `Object.keys(value).sort()`, with what each name is mapped to. -/
def sortKeys {α : Type} (l : List (JsString × α)) : List (JsString × α) := l.mergeSort fun a b => decide (a.1 ≤ b.1)

def join (l : List JsString) : JsString := [44].intercalate l

mutual

def canonicalJson (seen : List Nat) : Value ν → Except StartupError JsString
  | .null => .ok (js "null")
  | .bool b => .ok (js (if b then "true" else "false"))
  | .string s => .ok (quote s)
  | .number n => if numbers.isFinite n then .ok (numbers.text n) else .error .hostConfigInvariant
  | .array identity l =>
    if identity ∈ seen then .error .hostConfigCycle
    else do
      let texts ← (canonicalElements (identity :: seen) l).mapM id
      return 91 :: (join texts ++ [93])
  | .object identity l =>
    if identity ∈ seen then .error .hostConfigCycle
    else do
      let texts ← (sortKeys (canonicalMembers (identity :: seen) l)).mapM fun e => do return quote e.1 ++ 58 :: (← e.2)
      return 123 :: (join texts ++ [125])
  | .other => .error .hostConfigInvariant

/-- The elements of an array; the first that throws makes the array throw. -/
def canonicalElements (seen : List Nat) : List (Value ν) → List (Except StartupError JsString)
  | [] => []
  | v :: l => canonicalJson seen v :: canonicalElements seen l

/-- The members of an object; the first that throws, in the order of the names, makes the object throw. -/
def canonicalMembers (seen : List Nat) : List (JsString × Value ν) → List (JsString × Except StartupError JsString)
  | [] => []
  | (k, v) :: l => (k, canonicalJson seen v) :: canonicalMembers seen l

end

/-! ### Values of JSON -/

mutual

/-- The value that the code writes: identities are dropped, a finite number is its text. -/
def Value.toJson : Value ν → Json NumberText
  | .null => .null
  | .bool b => .bool b
  | .number n => if h : numbers.isFinite n = true then .num ⟨numbers.text n, numbers.literal n h⟩ else .null
  | .string s => .str s
  | .array _ l => .arr (Value.toElements l)
  | .object _ l => .obj (Value.toMembers l)
  | .other => .null

def Value.toElements : List (Value ν) → List (Json NumberText)
  | [] => []
  | v :: l => v.toJson :: toElements l

def Value.toMembers : List (JsString × Value ν) → List (JsString × Json NumberText)
  | [] => []
  | (k, v) :: l => (k, v.toJson) :: toMembers l

end

/-- The value is one of JSON: its numbers are finite, the names of an object differ, and nothing
occurs below itself. `path` lists what the value stands below. -/
inductive IsJson : List Nat → Value ν → Prop where
  | null {path : List Nat} : IsJson path .null
  | bool {path : List Nat} (b : Bool) : IsJson path (.bool b)
  | number {path : List Nat} {n : ν} (h : numbers.isFinite n = true) : IsJson path (.number n)
  | string {path : List Nat} (s : JsString) : IsJson path (.string s)
  | array {path : List Nat} {identity : Nat} {l : List (Value ν)} (hnew : identity ∉ path)
      (h : ∀ v ∈ l, IsJson (identity :: path) v) : IsJson path (.array identity l)
  | object {path : List Nat} {identity : Nat} {l : List (JsString × Value ν)} (hnew : identity ∉ path)
      (hnames : (l.map Prod.fst).Nodup) (h : ∀ e ∈ l, IsJson (identity :: path) e.2) : IsJson path (.object identity l)

theorem toElements_eq (l : List (Value ν)) : Value.toElements numbers l = l.map (Value.toJson numbers) := by
  induction l with
  | nil => rfl
  | cons v l ih => rw [Value.toElements, ih, List.map_cons]

theorem toMembers_eq (l : List (JsString × Value ν)) :
    Value.toMembers numbers l = l.map fun e => (e.1, e.2.toJson numbers) := by
  induction l with
  | nil => rfl
  | cons e l ih => rw [Value.toMembers, ih, List.map_cons]

theorem canonicalElements_eq (seen : List Nat) (l : List (Value ν)) :
    canonicalElements numbers seen l = l.map (canonicalJson numbers seen) := by
  induction l with
  | nil => rfl
  | cons v l ih => rw [canonicalElements, ih, List.map_cons]

theorem canonicalMembers_eq (seen : List Nat) (l : List (JsString × Value ν)) :
    canonicalMembers numbers seen l = l.map fun e => (e.1, canonicalJson numbers seen e.2) := by
  induction l with
  | nil => rfl
  | cons e l ih => rw [canonicalMembers, ih, List.map_cons]

variable {numbers}

theorem IsJson.distinct {path : List Nat} {v : Value ν} (h : IsJson numbers path v) : (v.toJson numbers).Distinct := by
  induction h with
  | null => exact .null
  | bool b => exact .bool b
  | number h =>
    rw [Value.toJson, dif_pos h]
    exact .num _
  | string s => exact .str s
  | array hnew h ih =>
    rw [Value.toJson, toElements_eq]
    refine .arr fun w hw => ?_
    obtain ⟨v, hv, rfl⟩ := List.mem_map.mp hw
    exact ih v hv
  | object hnew hnames h ih =>
    rw [Value.toJson, toMembers_eq]
    refine .obj ?_ fun w hw => ?_
    · rw [List.map_map]
      exact hnames
    · obtain ⟨e, he, rfl⟩ := List.mem_map.mp hw
      exact ih e he

/-! ### What `canonicalJson` writes -/

theorem mapM_ok {ε α β : Type} {l : List α} {f : α → Except ε β} {g : α → β} (h : ∀ a ∈ l, f a = .ok (g a)) :
    l.mapM f = .ok (l.map g) := by
  induction l with
  | nil => rfl
  | cons a l ih =>
    rw [List.mapM_cons, h a List.mem_cons_self, ih fun b hb => h b (List.mem_cons_of_mem _ hb)]
    rfl

theorem join_cons (a b : JsString) (l : List JsString) : join (a :: b :: l) = a ++ 44 :: join (b :: l) := by
  rw [join, join, List.intercalate_cons_cons, List.append_assoc, List.singleton_append]

theorem stringifyElements_eq (l : List (Json NumberText)) :
    stringifyElements numberTexts l = join (l.map (stringify numberTexts)) := by
  induction l with
  | nil => rfl
  | cons v l ih =>
    cases l with
    | nil => simp [stringifyElements, join]
    | cons w l => rw [stringifyElements, ih, List.map_cons, List.map_cons, List.map_cons, join_cons]

def stringifyMember (e : JsString × Json NumberText) : JsString := quote e.1 ++ 58 :: stringify numberTexts e.2

theorem stringifyMembers_eq (l : List (JsString × Json NumberText)) :
    stringifyMembers numberTexts l = join (l.map stringifyMember) := by
  induction l with
  | nil => rfl
  | cons e l ih =>
    obtain ⟨k, v⟩ := e
    cases l with
    | nil => simp [stringifyMembers, stringifyMember, join]
    | cons e l =>
      rw [stringifyMembers, ih, List.map_cons, List.map_cons, List.map_cons, join_cons]
      simp [stringifyMember]

/-- Members may be mapped before or after they are sorted. -/
theorem sortKeys_map {α β : Type} (g : α → β) (l : List (JsString × α)) :
    sortKeys (l.map fun e => (e.1, g e.2)) = (sortKeys l).map fun e => (e.1, g e.2) := by
  unfold sortKeys
  symm
  apply List.map_mergeSort
  intro a _ b _
  rfl

/-- A value of JSON is written as the text of the value with its members sorted. -/
theorem IsJson.canonicalJson_eq {path : List Nat} {v : Value ν} (h : IsJson numbers path v) :
    canonicalJson numbers path v = .ok (stringify numberTexts (v.toJson numbers).sortMembers) := by
  induction h with
  | null => rfl
  | bool b => cases b <;> rfl
  | number h =>
    rw [canonicalJson, if_pos h, Value.toJson, dif_pos h]
    rfl
  | string s => rfl
  | @array path identity l hnew h ih =>
    have htexts : (canonicalElements numbers (identity :: path) l).mapM id =
        .ok (l.map fun v => stringify numberTexts (v.toJson numbers).sortMembers) := by
      rw [canonicalElements_eq, List.mapM_map]
      exact mapM_ok ih
    rw [canonicalJson, if_neg hnew, htexts, Value.toJson, toElements_eq, Json.sortMembers, Json.sortElements_eq, stringify,
      stringifyElements_eq, List.map_map, List.map_map]
    rfl
  | @object path identity l hnew hnames h ih =>
    have hkeys : sortKeys (canonicalMembers numbers (identity :: path) l) =
        (sortKeys l).map fun e => (e.1, canonicalJson numbers (identity :: path) e.2) := by
      rw [canonicalMembers_eq, sortKeys_map]
    have hmembers : (Json.sortEntries (Value.toMembers numbers l)).mergeSort Json.nameLe =
        (sortKeys l).map fun e => (e.1, (e.2.toJson numbers).sortMembers) := by
      rw [toMembers_eq, Json.sortEntries_eq, List.map_map]
      exact sortKeys_map (fun v => (v.toJson numbers).sortMembers) l
    have htexts : (sortKeys (canonicalMembers numbers (identity :: path) l)).mapM
          (fun e => do return quote e.1 ++ 58 :: (← e.2)) =
        .ok ((sortKeys l).map fun e => stringifyMember (e.1, (e.2.toJson numbers).sortMembers)) := by
      rw [hkeys, List.mapM_map]
      refine mapM_ok fun e he => ?_
      rw [Function.comp_apply, ih e (List.mem_mergeSort.mp he)]
      rfl
    rw [canonicalJson, if_neg hnew, htexts, Value.toJson, Json.sortMembers, hmembers, stringify, stringifyMembers_eq, List.map_map]
    rfl

/-- Two values have one text if and only if they are one document. -/
theorem canonicalJson_eq_iff {a b : Value ν} (ha : IsJson numbers [] a) (hb : IsJson numbers [] b) :
    canonicalJson numbers [] a = canonicalJson numbers [] b ↔ (a.toJson numbers).document = (b.toJson numbers).document := by
  rw [ha.canonicalJson_eq, hb.canonicalJson_eq, Except.ok.injEq, ← Json.sortMembers_eq_iff ha.distinct hb.distinct]
  exact ⟨fun h => stringify_injective numberTexts h, fun h => congrArg _ h⟩

variable (numbers)

/-! ### The coordinator's install -/

section Coordinator

variable {Digest Runtime Logger : Type} [DecidableEq Digest] (sha256 : Bytes → Digest)

structure Api (ν Runtime Logger : Type) where
  registrationMode : Option String
  config : Value ν
  runtime : Runtime
  logger : Logger

structure FullInstall (Digest Runtime Logger : Type) where
  generation : Nat
  fingerprint : Digest
  runtime : Runtime
  logger : Logger

structure Coordinator (Digest Runtime Logger : Type) where
  install : Option (FullInstall Digest Runtime Logger)
  nextGeneration : Nat

def Coordinator.init : Coordinator Digest Runtime Logger := ⟨none, 0⟩

/-- The next generation, and the counter after it was taken. -/
def Coordinator.generationFor (c : Coordinator Digest Runtime Logger) (fingerprint : Digest) : Nat × Nat :=
  match c.install with
  | some install =>
    if install.fingerprint = fingerprint then (install.generation, c.nextGeneration)
    else (c.nextGeneration + 1, c.nextGeneration + 1)
  | none => (c.nextGeneration + 1, c.nextGeneration + 1)

def fingerprintOf (config : Value ν) : Except StartupError Digest :=
  (canonicalJson numbers [] config).map fun text => sha256 (encodeUtf8 text)

/-- The coordinator after the call; its new install is what the call returns. -/
def Coordinator.installFull (c : Coordinator Digest Runtime Logger) (api : Api ν Runtime Logger) :
    Except StartupError (Coordinator Digest Runtime Logger) :=
  if api.registrationMode ≠ some "full" then .ok c
  else do
    let fingerprint ← fingerprintOf numbers sha256 api.config
    let (generation, nextGeneration) := c.generationFor fingerprint
    return ⟨some ⟨generation, fingerprint, api.runtime, api.logger⟩, nextGeneration⟩

/-- A call that throws leaves the coordinator as it was. -/
def Coordinator.after (c : Coordinator Digest Runtime Logger) (api : Api ν Runtime Logger) : Coordinator Digest Runtime Logger :=
  match c.installFull numbers sha256 api with
  | .ok c' => c'
  | .error _ => c

def Coordinator.run (c : Coordinator Digest Runtime Logger) (calls : List (Api ν Runtime Logger)) :
    Coordinator Digest Runtime Logger := calls.foldl (fun c api => c.after numbers sha256 api) c

end Coordinator

/-! ### Generations -/

variable {Digest Runtime Logger : Type} {numbers} {sha256 : Bytes → Digest} {a b : Value ν}
  {c : Coordinator Digest Runtime Logger} {api : Api ν Runtime Logger}

theorem IsJson.fingerprintOf_eq (h : IsJson numbers [] a) : fingerprintOf numbers sha256 a =
    .ok (sha256 (encodeUtf8 (stringify numberTexts (a.toJson numbers).sortMembers))) := by
  rw [fingerprintOf, h.canonicalJson_eq]
  rfl

theorem IsJson.printed (h : IsJson numbers [] a) (sha256 : Bytes → Digest) :
    ∃ fingerprint, fingerprintOf numbers sha256 a = .ok fingerprint := ⟨_, h.fingerprintOf_eq⟩

/-- As long as the hash has no collision, the fingerprint tells documents apart. -/
theorem fingerprintOf_eq_iff (hsha : Function.Injective sha256) (ha : IsJson numbers [] a) (hb : IsJson numbers [] b) :
    fingerprintOf numbers sha256 a = fingerprintOf numbers sha256 b ↔
      (a.toJson numbers).document = (b.toJson numbers).document := by
  rw [← canonicalJson_eq_iff ha hb, ha.fingerprintOf_eq, hb.fingerprintOf_eq, ha.canonicalJson_eq, hb.canonicalJson_eq,
    Except.ok.injEq, Except.ok.injEq, hsha.eq_iff]
  exact ⟨(wellFormed_stringify numberTexts _).encodeUtf8_inj (wellFormed_stringify numberTexts _), congrArg encodeUtf8⟩

variable [DecidableEq Digest]

theorem after_full (hmode : api.registrationMode = some "full") {fingerprint : Digest}
    (hprint : fingerprintOf numbers sha256 api.config = .ok fingerprint) :
    c.after numbers sha256 api = ⟨some ⟨(c.generationFor fingerprint).1, fingerprint, api.runtime, api.logger⟩,
      (c.generationFor fingerprint).2⟩ := by
  rw [Coordinator.after, Coordinator.installFull, if_neg (fun hne => hne hmode), hprint]
  rfl

/-- What an install leaves behind: its own fingerprint, and the counter at its generation. -/
structure Installed (numbers : Numbers ν) (sha256 : Bytes → Digest) (c : Coordinator Digest Runtime Logger)
    (install : FullInstall Digest Runtime Logger) (config : Value ν) : Prop where
  current : c.install = some install
  printed : fingerprintOf numbers sha256 config = .ok install.fingerprint
  counter : c.nextGeneration = install.generation

/-- An install leaves itself behind, whatever was there. -/
theorem installed_after (hmode : api.registrationMode = some "full") {fingerprint : Digest}
    (hprint : fingerprintOf numbers sha256 api.config = .ok fingerprint)
    (hcounter : ∀ install, c.install = some install → c.nextGeneration = install.generation) :
    ∃ install, Installed numbers sha256 (c.after numbers sha256 api) install api.config := by
  rw [after_full hmode hprint]
  refine ⟨_, rfl, hprint, ?_⟩
  unfold Coordinator.generationFor
  split
  · rename_i install hinstall
    split
    · exact hcounter install hinstall
    · rfl
  · rfl

theorem Installed.generationFor {install : FullInstall Digest Runtime Logger} {config : Value ν}
    (h : Installed numbers sha256 c install config) (fingerprint : Digest) : c.generationFor fingerprint =
      if install.fingerprint = fingerprint then (install.generation, install.generation)
      else (install.generation + 1, install.generation + 1) := by
  rw [Coordinator.generationFor, h.current, h.counter]

theorem Coordinator.run_concat (c : Coordinator Digest Runtime Logger) (calls : List (Api ν Runtime Logger))
    (api : Api ν Runtime Logger) :
    c.run numbers sha256 (calls ++ [api]) = (c.run numbers sha256 calls).after numbers sha256 api := List.foldl_concat ..

/-- After a sequence of installs the last one is in place. -/
theorem installed_of_run {calls : List (Api ν Runtime Logger)}
    (h : ∀ call ∈ calls ++ [api], call.registrationMode = some "full" ∧ IsJson numbers [] call.config) :
    ∃ install, Installed numbers sha256 ((Coordinator.init.run numbers sha256 (calls ++ [api]))) install api.config := by
  induction calls using List.reverseRecOn generalizing api with
  | nil =>
    obtain ⟨hmode, hjson⟩ := h api (List.mem_append_right _ List.mem_cons_self)
    obtain ⟨fingerprint, hprint⟩ := hjson.printed sha256
    rw [Coordinator.run_concat]
    exact installed_after hmode hprint nofun
  | append_singleton calls previous ih =>
    obtain ⟨hmode, hjson⟩ := h api (List.mem_append_right _ List.mem_cons_self)
    obtain ⟨fingerprint, hprint⟩ := hjson.printed sha256
    obtain ⟨before, hbefore⟩ := ih fun call hcall => h call (List.mem_append_left _ hcall)
    rw [Coordinator.run_concat]
    refine installed_after hmode hprint fun install hinstall => ?_
    obtain rfl : before = install := Option.some.inj (hbefore.current.symm.trans hinstall)
    exact hbefore.counter

/-- One more install takes the next generation exactly when its configuration is another document. -/
theorem generation_step (hsha : Function.Injective sha256) {install : FullInstall Digest Runtime Logger} {config : Value ν}
    (h : Installed numbers sha256 c install config) (hconfig : IsJson numbers [] config)
    (hmode : api.registrationMode = some "full") (hjson : IsJson numbers [] api.config) :
    ∃ next, (c.after numbers sha256 api).install = some next ∧
      ((config.toJson numbers).document = (api.config.toJson numbers).document → next.generation = install.generation) ∧
      ((config.toJson numbers).document ≠ (api.config.toJson numbers).document →
        next.generation = install.generation + 1) := by
  obtain ⟨fingerprint, hprint⟩ := hjson.printed sha256
  have hiff := fingerprintOf_eq_iff hsha hconfig hjson
  rw [h.printed, hprint, Except.ok.injEq] at hiff
  rw [after_full hmode hprint]
  refine ⟨_, rfl, fun hsame => ?_, fun hother => ?_⟩
  · rw [h.generationFor, if_pos (hiff.mpr hsame)]
  · rw [h.generationFor, if_neg (fun heq => hother (hiff.mp heq))]

/-- `canonicalJson` writes two values alike exactly when they differ in the order of members only,
and in every sequence of full registrations the generation moves, by one, exactly when the
configuration is another than that of the install before. -/
theorem fingerprint_faithful (hsha : Function.Injective sha256) :
    (∀ a b : Value ν, IsJson numbers [] a → IsJson numbers [] b →
      (∃ text, canonicalJson numbers [] a = .ok text) ∧
      (canonicalJson numbers [] a = canonicalJson numbers [] b ↔
        (a.toJson numbers).document = (b.toJson numbers).document)) ∧
    ∀ (calls : List (Api ν Runtime Logger)) (api : Api ν Runtime Logger),
      (∀ call ∈ calls ++ [api], call.registrationMode = some "full" ∧ IsJson numbers [] call.config) →
      ∃ install, ((Coordinator.init.run numbers sha256 calls).after numbers sha256 api).install = some install ∧
        (calls = [] → install.generation = 1) ∧
        ∀ earlier previous, calls = earlier ++ [previous] →
          ∃ before, (Coordinator.init.run numbers sha256 calls).install = some before ∧
            before.generation ≤ install.generation ∧
            ((previous.config.toJson numbers).document = (api.config.toJson numbers).document →
              install.generation = before.generation) ∧
            ((previous.config.toJson numbers).document ≠ (api.config.toJson numbers).document →
              install.generation = before.generation + 1) := by
  refine ⟨fun a b ha hb => ⟨⟨_, ha.canonicalJson_eq⟩, canonicalJson_eq_iff ha hb⟩, fun calls api h => ?_⟩
  obtain ⟨hmode, hjson⟩ := h api (List.mem_append_right _ List.mem_cons_self)
  cases calls using List.reverseRecOn with
  | nil =>
    refine ⟨_, by rw [Coordinator.run, List.foldl_nil, after_full hmode hjson.fingerprintOf_eq], fun _ => rfl, fun earlier previous hcalls => ?_⟩
    exact absurd hcalls.symm (List.concat_ne_nil _ _)
  | append_singleton calls previous =>
    have hcalls : ∀ call ∈ calls ++ [previous], call.registrationMode = some "full" ∧ IsJson numbers [] call.config :=
      fun call hcall => h call (List.mem_append_left _ hcall)
    obtain ⟨before, hbefore⟩ : ∃ before, Installed numbers sha256 _ before previous.config := installed_of_run hcalls
    have hprevious := (hcalls previous (List.mem_append_right _ List.mem_cons_self)).2
    obtain ⟨install, hinstall, hsame, hother⟩ := generation_step hsha hbefore hprevious hmode hjson
    refine ⟨install, hinstall, fun hnil => absurd hnil (List.concat_ne_nil _ _), fun earlier last hlast => ?_⟩
    obtain ⟨-, hlast⟩ := List.append_inj' hlast rfl
    obtain rfl : previous = last := List.singleton_inj.mp hlast
    refine ⟨before, hbefore.current, ?_, hsame, hother⟩
    by_cases hdoc : (previous.config.toJson numbers).document = (api.config.toJson numbers).document
    · rw [hsame hdoc]
    · rw [hother hdoc]
      exact Nat.le_succ _

/-! ### A configuration that was only written in another order -/

def decimals : Numbers Nat where
  isFinite _ := true
  text := formatNat
  literal n _ := by
    have hdigits : ∀ u ∈ formatNat n, isDigit u = true := fun u hu => isDigit_formatNat hu
    have hne := formatNat_ne_nil n
    revert hdigits hne
    generalize formatNat n = s
    intro hdigits hne
    cases s with
    | nil => exact absurd rfl hne
    | cons c s => simp_all [isNumberText, isNumberUnit]

def config : Value Nat := .object 0 [(js "b", .array 1 [.bool true]), (js "a", .number 1)]

def reordered : Value Nat := .object 0 [(js "a", .number 1), (js "b", .array 1 [.bool true])]

theorem config_isJson : IsJson decimals [] config ∧ IsJson decimals [] reordered := by
  have harray : IsJson decimals [0] (.array 1 [.bool true]) :=
    .array (by decide) fun v hv => List.mem_singleton.mp hv ▸ .bool true
  constructor
  · exact .object (by decide) (by decide) (List.forall_mem_cons.mpr ⟨harray, List.forall_mem_singleton.mpr (.number rfl)⟩)
  · exact .object (by decide) (by decide) (List.forall_mem_cons.mpr ⟨.number rfl, List.forall_mem_singleton.mpr harray⟩)

/-- Another order of the members, and another install of the same generation. -/
theorem fingerprint_reordered :
    canonicalJson decimals [] config = canonicalJson decimals [] reordered ∧
    ∃ install before, ((Coordinator.init.run decimals id [⟨some "full", config, (), ()⟩]).after decimals id
        ⟨some "full", reordered, (), ()⟩).install = some install ∧
      (Coordinator.init.run decimals id [⟨some "full", config, (), ()⟩]).install = some before ∧
      install.generation = before.generation := by
  have hsha : Function.Injective (id : Bytes → Bytes) := Function.injective_id
  have hsame : (config.toJson decimals).document = (reordered.toJson decimals).document := by
    refine congrArg Document.obj (Json.documentMembers_congr (by decide) (by decide) fun name d => ?_)
    simp [Value.toMembers, or_comm]
  have hcalls : ∀ call ∈ [⟨some "full", config, (), ()⟩] ++ [(⟨some "full", reordered, (), ()⟩ : Api Nat Unit Unit)],
      call.registrationMode = some "full" ∧ IsJson decimals [] call.config := by
    intro call hcall
    simp only [List.singleton_append, List.mem_cons, List.not_mem_nil, or_false] at hcall
    rcases hcall with rfl | rfl
    · exact ⟨rfl, config_isJson.1⟩
    · exact ⟨rfl, config_isJson.2⟩
  obtain ⟨htext, hgeneration⟩ := fingerprint_faithful hsha
  refine ⟨(htext _ _ config_isJson.1 config_isJson.2).2.mpr hsame, ?_⟩
  obtain ⟨install, hinstall, -, hstep⟩ := hgeneration _ _ hcalls
  obtain ⟨before, hbefore, -, hkept, -⟩ := hstep [] _ rfl
  exact ⟨install, before, hinstall, hbefore, hkept hsame⟩

end Webchannel.Fingerprint
