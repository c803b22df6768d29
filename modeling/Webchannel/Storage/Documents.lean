import Webchannel.Lib.JsObject
import Webchannel.Lib.JsonDouble
import Webchannel.Storage.Binding

/-!
# Secret documents

The conversation keys and their generations as they are stored (`conversation-key-document.ts`,
`conversation-key-generations-document.ts`). Both files read and write a map under an identity and a version;
they differ in the version, in the name of the map and in what an entry is.
-/

namespace Webchannel.Storage

open JsonIntegers (safeInteger)
open Effect (of_bind_eq_ok)

variable {ν α : Type}

def invalidDocument : Thrown := .document .invalidDocument []

/-! ## The map of a document -/

/-- The loop over the entries, with what one of them is read as. -/
def readEntries (entry : Json ν → Option α) :
    List (JsString × Json ν) → OrderedMap JsString α → Except Thrown (OrderedMap JsString α)
  | [], m => .ok m
  | e :: l, m =>
    match entry e.2 with
    | none => .error invalidDocument
    | some a => readEntries entry l (m.set e.1 a)

def readMap (entry : Json ν → Option α) (value : Option (Json ν)) : Except Thrown (OrderedMap JsString α) :=
  match value with
  | some (.obj l) => readEntries entry (objectEntries l) OrderedMap.empty
  | _ => .error invalidDocument

def encodeEntry (value : α → Option (Json ν)) (e : JsString × α) : Option (JsString × Json ν) := (value e.2).map (e.1, ·)

theorem readEntries_ok {entry : Json ν → Option α} {l : List (JsString × Json ν)} {m m' : OrderedMap JsString α}
    (h : readEntries entry l m = .ok m') (hl : (l.map Prod.fst).Nodup) (k : JsString) :
    (∀ v, (k, v) ∈ l → ∃ a, entry v = some a ∧ m'.get k = some a) ∧ ((∀ v, (k, v) ∉ l) → m'.get k = m.get k) := by
  induction l generalizing m with
  | nil =>
    cases h
    exact ⟨fun v hv => absurd hv List.not_mem_nil, fun _ => rfl⟩
  | cons e l ih =>
    obtain ⟨hfresh, hl⟩ := List.nodup_cons.mp hl
    rw [readEntries] at h
    cases hentry : entry e.2 with
    | none =>
      rw [hentry] at h
      cases h
    | some a =>
      rw [hentry] at h
      obtain ⟨hthere, hkept⟩ := ih h hl
      by_cases hk : k = e.1
      · have habsent : ∀ v, (k, v) ∉ l := fun v hv => hfresh (hk ▸ List.mem_map_of_mem hv)
        have hget : m'.get k = some a := by rw [hkept habsent, hk, OrderedMap.get_set_self]
        refine ⟨fun v hv => ?_, fun hnone => absurd (hk ▸ List.mem_cons_self) (hnone e.2)⟩
        obtain hv | hv := List.mem_cons.mp hv
        · rw [← hv] at hentry
          exact ⟨a, hentry, hget⟩
        · exact absurd hv (habsent v)
      · refine ⟨fun v hv => ?_, fun hnone => ?_⟩
        · obtain hv | hv := List.mem_cons.mp hv
          · exact absurd (congrArg Prod.fst hv) hk
          · exact hthere v hv
        · rw [hkept fun v hv => hnone v (List.mem_cons_of_mem _ hv), OrderedMap.get_set_of_ne _ _ hk]

theorem readEntries_total {entry : Json ν → Option α} {l : List (JsString × Json ν)}
    (h : ∀ e ∈ l, (entry e.2).isSome = true) (m : OrderedMap JsString α) : ∃ m', readEntries entry l m = .ok m' := by
  induction l generalizing m with
  | nil => exact ⟨m, rfl⟩
  | cons e l ih =>
    obtain ⟨a, ha⟩ := Option.isSome_iff_exists.mp (h e List.mem_cons_self)
    rw [readEntries, ha]
    exact ih (fun e' he' => h e' (List.mem_cons_of_mem _ he')) _

/-- What is read has an entry for every member, and no other. -/
theorem readMap_ok {entry : Json ν → Option α} {l : List (JsString × Json ν)} {m : OrderedMap JsString α}
    (h : readMap entry (some (.obj l)) = .ok m) (k : JsString) :
    m.get k = ((Json.obj l).lookup k).bind entry := by
  obtain ⟨hthere, habsent⟩ := readEntries_ok h (objectEntries_nodup l) k
  cases hlookup : (Json.obj l).lookup k with
  | none =>
    rw [habsent fun v hv => by rw [mem_objectEntries.mp hv] at hlookup; cases hlookup]
    rfl
  | some v =>
    obtain ⟨a, ha, hget⟩ := hthere v (mem_objectEntries.mpr hlookup)
    rw [hget, Option.bind_some, ha]

theorem readMap_total {entry : Json ν → Option α} {l : List (JsString × Json ν)}
    (h : ∀ k v, (Json.obj l).lookup k = some v → (entry v).isSome = true) : ∃ m, readMap entry (some (.obj l)) = .ok m :=
  readEntries_total (fun e he => h e.1 e.2 (mem_objectEntries.mp he)) _

theorem encodeEntries_total {value : α → Option (Json ν)} {l : List (JsString × α)} (h : ∀ e ∈ l, (value e.2).isSome = true) :
    ∃ encoded, l.mapM (encodeEntry value) = some encoded := by
  induction l with
  | nil => exact ⟨[], rfl⟩
  | cons e l ih =>
    obtain ⟨v, hv⟩ := Option.isSome_iff_exists.mp (h e List.mem_cons_self)
    obtain ⟨encoded, hencoded⟩ := ih fun e' he' => h e' (List.mem_cons_of_mem _ he')
    refine ⟨(e.1, v) :: encoded, ?_⟩
    rw [List.mapM_cons, encodeEntry, hv, hencoded]
    rfl

theorem mem_encoded {value : α → Option (Json ν)} {l : List (JsString × α)} {encoded : List (JsString × Json ν)}
    (h : l.mapM (encodeEntry value) = some encoded) :
    encoded.map Prod.fst = l.map Prod.fst ∧
      ∀ k v, (k, v) ∈ encoded ↔ ∃ a, (k, a) ∈ l ∧ value a = some v := by
  induction l generalizing encoded with
  | nil =>
    cases h
    exact ⟨rfl, fun k v => by simp⟩
  | cons e l ih =>
    rw [List.mapM_cons, encodeEntry] at h
    cases hv : value e.2 with
    | none =>
      rw [hv] at h
      cases h
    | some v₀ =>
      rw [hv] at h
      cases hrest : l.mapM (encodeEntry value) with
      | none =>
        rw [hrest] at h
        cases h
      | some rest =>
        rw [hrest] at h
        cases h
        obtain ⟨hnames, hmem⟩ := ih hrest
        refine ⟨by rw [List.map_cons, List.map_cons, hnames], fun k v => ?_⟩
        rw [List.mem_cons, hmem]
        constructor
        · rintro (heq | ⟨a, ha, hvalue⟩)
          · cases heq
            exact ⟨e.2, List.mem_cons_self, hv⟩
          · exact ⟨a, List.mem_cons_of_mem _ ha, hvalue⟩
        · rintro ⟨a, ha, hvalue⟩
          obtain heq | ha := List.mem_cons.mp ha
          · rw [← heq] at hv ⊢
            exact .inl (by rw [← Option.some.inj (hv.symm.trans hvalue)])
          · exact .inr ⟨a, ha, hvalue⟩

/-- An encoded map is read back, whatever order its names are met in. -/
theorem readMap_encoded {entry : Json ν → Option α} {value : α → Option (Json ν)} {m : OrderedMap JsString α}
    {encoded : List (JsString × Json ν)} (hround : ∀ a v, value a = some v → entry v = some a)
    (h : m.entries.mapM (encodeEntry value) = some encoded) :
    ∃ m', readMap entry (some (.obj (propertyOrder encoded))) = .ok m' ∧ ∀ k, m'.get k = m.get k := by
  obtain ⟨hnames, hmem⟩ := mem_encoded h
  have hnodup : ((propertyOrder encoded).map Prod.fst).Nodup := by
    rw [((propertyOrder_perm encoded).map Prod.fst).nodup_iff, hnames]
    exact m.nodup
  have hlookup (k : JsString) (v : Json ν) :
      (Json.obj (propertyOrder encoded)).lookup k = some v ↔ ∃ a, m.get k = some a ∧ value a = some v := by
    rw [lookup_of_nodup hnodup, (propertyOrder_perm encoded).mem_iff, hmem]
    simp only [OrderedMap.mem_entries]
  obtain ⟨m', hread⟩ := @readMap_total _ _ entry _ fun k v hv => by
    obtain ⟨a, -, hvalue⟩ := (hlookup k v).mp hv
    rw [hround a v hvalue]
    rfl
  refine ⟨m', hread, fun k => ?_⟩
  rw [readMap_ok hread k]
  cases hget : m.get k with
  | some a =>
    have hnone : ∃ v, value a = some v := by
      obtain ⟨v, hv⟩ := List.mem_map.mp (hnames ▸ List.mem_map_of_mem (OrderedMap.mem_entries.mpr hget))
      obtain ⟨a', ha', hvalue⟩ := (hmem v.1 v.2).mp hv.1
      rw [hv.2, OrderedMap.mem_entries, hget] at ha'
      exact ⟨v.2, by rw [Option.some.inj ha']; exact hvalue⟩
    obtain ⟨v, hvalue⟩ := hnone
    rw [(hlookup k v).mpr ⟨a, hget, hvalue⟩, Option.bind_some, hround a v hvalue]
  | none =>
    cases hfound : (Json.obj (propertyOrder encoded)).lookup k with
    | none => rfl
    | some v =>
      obtain ⟨a, ha, -⟩ := (hlookup k v).mp hfound
      rw [hget] at ha
      cases ha

/-! ## Reading -/

variable [JsonIntegers ν] (numbers : JsonText.NumberFormat ν)

def parseRecord (serialized : JsString) : Except Thrown (Json ν) :=
  match JsonText.parse numbers serialized with
  | some (.obj l) => .ok (.obj l)
  | _ => .error invalidDocument

/-- An identity that is there is checked before the version, one that is missing behind it. -/
def parseDocument (version : Nat) (field : String) (entry : Json ν → Option α) (scope : StorageScope)
    (serialized : JsString) : Except Thrown (OrderedMap JsString α) := do
  let document ← parseRecord numbers serialized
  let identity := document.member "storageIdentity"
  assertDocumentVersionNotFromFuture version (document.member "version")
  if identity.isSome then
    assertDocumentStorageIdentity scope identity
  assertSupportedDocumentVersion version (document.member "version")
  if identity.isNone then
    assertDocumentStorageIdentity scope (none : Option (Json ν))
  readMap entry (document.member field)

/-! ## Writing -/

/-- `createStorageIdentityV2` of a valid scope, as it is stored. -/
def storageIdentityValue (scope : StorageScope) : Json ν :=
  .obj
    [(js "identityVersion", .num (JsonIntegers.ofNat storageIdentityVersion)),
      (js "storage", .obj [textMember "tenant" scope.tenant, textMember "accountId" scope.accountId])]

def serializeDocument (version : Nat) (field : String) (value : α → Option (Json ν)) (scope : StorageScope)
    (m : OrderedMap JsString α) : Except Thrown JsString :=
  match m.entries.mapM (encodeEntry value) with
  | none => .error invalidDocument
  | some encoded =>
    match createStorageIdentityV2 scope with
    | .error error => .error (.contract error)
    | .ok scope =>
      .ok (JsonText.stringifyIndented numbers 0 (.obj
        [(js "version", .num (JsonIntegers.ofNat version)), (js "storageIdentity", storageIdentityValue scope),
          (js field, .obj (propertyOrder encoded))]))

/-! ## Conversation keys -/

def conversationKeyDocumentVersion : Nat := 2

def conversationKeyBytes : Nat := 32

/-- An entry that `parseKeys` takes. -/
def keyEntry : Json ν → Option Bytes
  | .str encoded =>
    let bytes := Base64.bufferFrom encoded
    if bytes.length ≠ conversationKeyBytes ∨ Base64.base64url bytes ≠ encoded then none else some bytes
  | _ => none

def keyValue (key : Bytes) : Option (Json ν) :=
  if key.length ≠ conversationKeyBytes then none else some (.str (Base64.base64url key))

def parseConversationKeyDocument (scope : StorageScope) (serialized : JsString) : Except Thrown (OrderedMap JsString Bytes) :=
  parseDocument numbers conversationKeyDocumentVersion "keys" keyEntry scope serialized

def serializeConversationKeyDocument (scope : StorageScope) (keys : OrderedMap JsString Bytes) : Except Thrown JsString :=
  serializeDocument numbers conversationKeyDocumentVersion "keys" keyValue scope keys

/-! ## Generations -/

def conversationKeyGenerationsDocumentVersion : Nat := 1

structure ConversationKeyGeneration (ν : Type) where
  epoch : ν
  rotatedAtSec : ν

def isPositiveSafeInteger (n : ν) : Bool := (safeInteger n).any (0 < ·)

/-- `assertGeneration`, where it does not throw. -/
def assertGeneration (generation : ConversationKeyGeneration ν) : Bool :=
  isPositiveSafeInteger generation.epoch && isPositiveSafeInteger generation.rotatedAtSec

/-- An entry that `parseGenerations` takes. -/
def generationEntry (rawGeneration : Json ν) : Option (ConversationKeyGeneration ν) :=
  match rawGeneration.member "epoch", rawGeneration.member "rotatedAtSec" with
  | some (.num epoch), some (.num rotatedAtSec) =>
    if assertGeneration { epoch, rotatedAtSec } then some { epoch, rotatedAtSec } else none
  | _, _ => none

def generationValue (generation : ConversationKeyGeneration ν) : Option (Json ν) :=
  if assertGeneration generation then
    some (.obj [(js "epoch", .num generation.epoch), (js "rotatedAtSec", .num generation.rotatedAtSec)])
  else none

def parseConversationKeyGenerationsDocument (scope : StorageScope) (serialized : JsString) :
    Except Thrown (OrderedMap JsString (ConversationKeyGeneration ν)) :=
  parseDocument numbers conversationKeyGenerationsDocumentVersion "generations" generationEntry scope serialized

def serializeConversationKeyGenerationsDocument (scope : StorageScope)
    (generations : OrderedMap JsString (ConversationKeyGeneration ν)) : Except Thrown JsString :=
  serializeDocument numbers conversationKeyGenerationsDocumentVersion "generations" generationValue scope generations

/-! ## The identity of a document -/

theorem parse_storageIdentityValue {scope : StorageScope} (h : scope.Valid) :
    parseStorageIdentityV2 (storageIdentityValue scope : Json ν) = .ok scope := by
  have hversion : requireVersion (storageIdentityValue scope : Json ν) = .ok () :=
    if_pos (decide_eq_true (JsonIntegers.safeInteger_ofNat 2 (by decide)))
  have hstorage : parseStorageScope ((storageIdentityValue scope : Json ν).member "storage") = .ok scope :=
    validateStorageScope_ok.mpr ⟨h, rfl, rfl⟩
  unfold parseStorageIdentityV2
  rw [hversion, hstorage]
  rfl

theorem storageMismatches_eq_nil {expected persisted : StorageScope} :
    storageMismatches expected persisted = [] ↔ expected = persisted := by
  unfold storageMismatches
  rw [List.append_eq_nil_iff, fieldUnless_eq_nil, fieldUnless_eq_nil, decide_eq_true_iff, decide_eq_true_iff]
  cases expected
  cases persisted
  rw [StorageScope.mk.injEq]

/-- The identity of one valid scope, checked for another. -/
theorem assertDocumentStorageIdentity_value {scope scope' : StorageScope} (h : scope.Valid) (h' : scope'.Valid) :
    assertDocumentStorageIdentity scope' (some (storageIdentityValue scope : Json ν)) =
      if scope' = scope then .ok () else .error (.document .identityMismatch (storageMismatches scope' scope)) := by
  have hcreate : createStorageIdentityV2 scope' = .ok scope' := createStorageIdentityV2_ok.mpr ⟨h', rfl⟩
  have hinspect : inspectStorageIdentityV2 scope' (storageIdentityValue scope : Json ν) =
      .ok (mismatchOrMatch (storageMismatches scope' scope)) := by
    unfold inspectStorageIdentityV2
    rw [hcreate, parse_storageIdentityValue h]
    rfl
  unfold assertDocumentStorageIdentity
  rw [hcreate]
  dsimp only [bind, Except.bind, Option.getD]
  rw [hinspect]
  unfold mismatchOrMatch
  by_cases heq : scope' = scope
  · rw [if_pos (storageMismatches_eq_nil.mpr heq), if_pos heq]
  · rw [if_neg fun hnil => heq (storageMismatches_eq_nil.mp hnil), if_neg heq]
    rfl

theorem valid_of_assertDocumentStorageIdentity {scope : StorageScope} {identity : Option (Json ν)}
    (h : assertDocumentStorageIdentity scope identity = .ok ()) : scope.Valid := by
  cases hcreate : createStorageIdentityV2 scope with
  | ok created => exact (createStorageIdentityV2_ok.mp hcreate).1
  | error e =>
    unfold assertDocumentStorageIdentity at h
    rw [hcreate] at h
    cases h

/-! ## Documents -/

section documents

variable {numbers} {version : Nat} {field : String} {entry : Json ν → Option α} {value : α → Option (Json ν)}

/-- A document as it is written. -/
def documentValue (version : Nat) (field : String) (scope : StorageScope) (encoded : List (JsString × Json ν)) : Json ν :=
  .obj
    [(js "version", .num (JsonIntegers.ofNat version)), (js "storageIdentity", storageIdentityValue scope),
      (js field, .obj (propertyOrder encoded))]

/-- The text of a map whose entries can all be written. -/
theorem serializeDocument_ok {scope : StorageScope} {m : OrderedMap JsString α} {text : JsString} :
    serializeDocument numbers version field value scope m = .ok text ↔
      scope.Valid ∧ ∃ encoded, m.entries.mapM (encodeEntry value) = some encoded ∧
        text = JsonText.stringifyIndented numbers 0 (documentValue version field scope encoded) := by
  unfold serializeDocument
  cases m.entries.mapM (encodeEntry value) with
  | none => exact iff_of_false (fun h => by cases h) fun ⟨_, encoded, h, _⟩ => by cases h
  | some encoded =>
    dsimp only
    cases hcreate : createStorageIdentityV2 scope with
    | error e =>
      refine iff_of_false (fun h => by cases h) fun ⟨hvalid, _⟩ => ?_
      rw [createStorageIdentityV2_ok.mpr ⟨hvalid, rfl⟩] at hcreate
      cases hcreate
    | ok created =>
      obtain ⟨hvalid, rfl⟩ := createStorageIdentityV2_ok.mp hcreate
      constructor
      · intro h
        cases h
        exact ⟨hvalid, encoded, rfl, rfl⟩
      · rintro ⟨-, encoded', heq, rfl⟩
        cases heq
        rfl

/-- A text that is written for one scope, read for another. -/
theorem parseDocument_written (hnumbers : JsonText.ReadsBack numbers) (hversion : version ≤ 2 ^ 53 - 1)
    (hfield : js field ≠ js "version" ∧ js field ≠ js "storageIdentity") {scope scope' : StorageScope} (h : scope.Valid)
    (h' : scope'.Valid) (encoded : List (JsString × Json ν)) :
    parseDocument numbers version field entry scope'
        (JsonText.stringifyIndented numbers 0 (documentValue version field scope encoded)) =
      if scope' = scope then readMap entry (some (.obj (propertyOrder encoded)))
      else .error (.document .identityMismatch (storageMismatches scope' scope)) := by
  have hrecord : parseRecord numbers (JsonText.stringifyIndented numbers 0 (documentValue version field scope encoded)) =
      .ok (documentValue version field scope encoded) := by
    unfold parseRecord
    rw [JsonText.parse_stringifyIndented hnumbers]
    rfl
  have hmember : (documentValue version field scope encoded).member "version" = some (.num (JsonIntegers.ofNat version)) ∧
      (documentValue version field scope encoded).member "storageIdentity" = some (storageIdentityValue scope) ∧
      (documentValue version field scope encoded).member field = some (.obj (propertyOrder encoded)) := by
    have hnames : js "storageIdentity" ≠ js "version" := by decide
    simp [documentValue, Json.member, hfield.1, hfield.2, hnames]
  have hsafe : safeInteger (JsonIntegers.ofNat version : ν) = some (version : Int) :=
    JsonIntegers.safeInteger_ofNat version hversion
  have hpresent : assertDocumentVersionNotFromFuture version (some (.num (JsonIntegers.ofNat version : ν))) = .ok () := by
    have hfuture : isFutureVersion version (some (.num (JsonIntegers.ofNat version : ν))) = false := by
      unfold isFutureVersion
      dsimp only
      rw [hsafe]
      exact decide_eq_false (Int.lt_irrefl _)
    exact if_neg (by rw [hfuture]; exact Bool.noConfusion)
  have hsupported : assertSupportedDocumentVersion version (some (.num (JsonIntegers.ofNat version : ν))) = .ok () := by
    unfold assertSupportedDocumentVersion
    exact if_pos (decide_eq_true hsafe)
  unfold parseDocument
  rw [hrecord]
  dsimp only [bind, Except.bind]
  rw [hmember.1, hmember.2.1, hmember.2.2, hpresent, hsupported, assertDocumentStorageIdentity_value h h']
  by_cases heq : scope' = scope
  · rw [if_pos heq, if_pos heq]
    rfl
  · rw [if_neg heq, if_neg heq]
    rfl

/-- A text that is accepted carries a valid scope, and its map is what was read. -/
theorem parseDocument_ok {scope : StorageScope} {text : JsString} {m : OrderedMap JsString α}
    (h : parseDocument numbers version field entry scope text = .ok m) :
    scope.Valid ∧ ∃ held, readMap entry held = .ok m := by
  obtain ⟨document, -, h⟩ := of_bind_eq_ok h
  obtain ⟨-, -, h⟩ := of_bind_eq_ok h
  cases hidentity : document.member "storageIdentity" with
  | some identity =>
    rw [hidentity] at h
    change (assertDocumentStorageIdentity scope (some identity)).bind (fun _ =>
      (assertSupportedDocumentVersion version (document.member "version")).bind fun _ =>
        readMap entry (document.member field)) = .ok m at h
    obtain ⟨⟨⟩, hassert, h⟩ := of_bind_eq_ok h
    obtain ⟨-, -, h⟩ := of_bind_eq_ok h
    exact ⟨valid_of_assertDocumentStorageIdentity hassert, _, h⟩
  | none =>
    rw [hidentity] at h
    change (assertSupportedDocumentVersion version (document.member "version")).bind (fun _ =>
      (assertDocumentStorageIdentity scope (none : Option (Json ν))).bind fun _ =>
        readMap entry (document.member field)) = .ok m at h
    obtain ⟨-, -, h⟩ := of_bind_eq_ok h
    obtain ⟨⟨⟩, hassert, h⟩ := of_bind_eq_ok h
    exact ⟨valid_of_assertDocumentStorageIdentity hassert, _, h⟩

/-- A future version is met before anything else of a document. -/
theorem parseDocument_future {scope : StorageScope} {text : JsString} {l : List (JsString × Json ν)}
    (hparse : JsonText.parse numbers text = some (.obj l))
    (hfuture : isFutureVersion version ((Json.obj l).member "version") = true) :
    parseDocument numbers version field entry scope text = .error (.document .versionTooNew []) := by
  have hrecord : parseRecord numbers text = .ok (.obj l) := by
    unfold parseRecord
    rw [hparse]
  have hassert : assertDocumentVersionNotFromFuture version ((Json.obj l).member "version") =
      .error (.document .versionTooNew []) := if_pos hfuture
  unfold parseDocument
  rw [hrecord]
  dsimp only [bind, Except.bind]
  rw [hassert]

end documents

/-! ## The contract of a pair of documents -/

/-- What reading and writing of one kind of document promise together. -/
structure DocumentContract (version : Nat) (Entry : α → Prop)
    (parse : StorageScope → JsString → Except Thrown (OrderedMap JsString α))
    (serialize : StorageScope → OrderedMap JsString α → Except Thrown JsString) (parseJson : JsString → Option (Json ν)) :
    Prop where
  roundTrip : ∀ scope m, scope.Valid → (∀ k a, m.get k = some a → Entry a) →
    ∃ text m', serialize scope m = .ok text ∧ parse scope text = .ok m' ∧ ∀ k, m'.get k = m.get k
  bound : ∀ scope scope' m text, scope'.Valid → scope' ≠ scope → serialize scope m = .ok text →
    parse scope' text = .error (.document .identityMismatch (storageMismatches scope' scope))
  accepted : ∀ scope text m, parse scope text = .ok m →
    ∃ text' m', serialize scope m = .ok text' ∧ parse scope text' = .ok m' ∧ ∀ k, m'.get k = m.get k
  tooNew : ∀ scope text l n, parseJson text = some (.obj l) → (Json.obj l).member "version" = some (.num n) →
    (safeInteger n).any ((version : Int) < ·) = true → parse scope text = .error (.document .versionTooNew [])

/-- The contract of a reader and a writer whose entries are read back. -/
theorem documentContract {version : Nat} {field : String} {entry : Json ν → Option α} {value : α → Option (Json ν)}
    (hnumbers : JsonText.ReadsBack numbers) (hversion : version ≤ 2 ^ 53 - 1)
    (hfield : js field ≠ js "version" ∧ js field ≠ js "storageIdentity")
    (hround : ∀ a v, value a = some v → entry v = some a) (hvalue : ∀ v a, entry v = some a → (value a).isSome = true) :
    DocumentContract version (fun a => (value a).isSome = true) (parseDocument numbers version field entry)
      (serializeDocument numbers version field value) (JsonText.parse numbers) where
  roundTrip scope m hscope hentries := by
    obtain ⟨encoded, hencoded⟩ := @encodeEntries_total _ _ value m.entries fun e he =>
      hentries e.1 e.2 (OrderedMap.mem_entries.mp he)
    obtain ⟨m', hread, hget⟩ := readMap_encoded hround hencoded
    refine ⟨_, m', serializeDocument_ok.mpr ⟨hscope, encoded, hencoded, rfl⟩, ?_, hget⟩
    rw [parseDocument_written hnumbers hversion hfield hscope hscope, if_pos rfl, hread]
  bound scope scope' m text hscope' hne h := by
    obtain ⟨hscope, encoded, -, rfl⟩ := serializeDocument_ok.mp h
    rw [parseDocument_written hnumbers hversion hfield hscope hscope', if_neg hne]
  accepted scope text m h := by
    obtain ⟨hscope, held, hread⟩ := parseDocument_ok h
    have hentries : ∀ e ∈ m.entries, (value e.2).isSome = true := by
      intro e he
      cases held with
      | none => cases hread
      | some held =>
        cases held with
        | obj l =>
          have hget := readMap_ok hread e.1
          rw [OrderedMap.mem_entries.mp he] at hget
          obtain ⟨v, -, hv⟩ := Option.bind_eq_some_iff.mp hget.symm
          exact hvalue v e.2 hv
        | _ => cases hread
    obtain ⟨encoded, hencoded⟩ := encodeEntries_total hentries
    obtain ⟨m', hread', hget⟩ := readMap_encoded hround hencoded
    refine ⟨_, m', serializeDocument_ok.mpr ⟨hscope, encoded, hencoded, rfl⟩, ?_, hget⟩
    rw [parseDocument_written hnumbers hversion hfield hscope hscope, if_pos rfl, hread']
  tooNew scope text l n hparse hmember hfuture := by
    refine parseDocument_future hparse ?_
    rw [hmember]
    exact hfuture

omit [JsonIntegers ν] in
theorem keyEntry_keyValue (key : Bytes) (v : Json ν) (h : keyValue key = some v) : keyEntry v = some key := by
  unfold keyValue at h
  split at h
  · cases h
  · rename_i hlength
    cases h
    unfold keyEntry
    dsimp only
    rw [Base64.bufferFrom_base64url, if_neg (by simpa using hlength)]

omit [JsonIntegers ν] in
theorem keyValue_keyEntry (v : Json ν) (key : Bytes) (h : keyEntry v = some key) : (keyValue key : Option (Json ν)).isSome = true := by
  unfold keyEntry at h
  split at h
  · dsimp only at h
    split at h
    · cases h
    · rename_i hchecks
      cases h
      unfold keyValue
      rw [if_neg fun hlength => hchecks (.inl hlength)]
      rfl
  · cases h

theorem generationEntry_generationValue (generation : ConversationKeyGeneration ν) (v : Json ν)
    (h : generationValue generation = some v) : generationEntry v = some generation := by
  unfold generationValue at h
  split at h
  · rename_i hassert
    cases h
    exact if_pos hassert
  · cases h

theorem generationValue_generationEntry (v : Json ν) (generation : ConversationKeyGeneration ν)
    (h : generationEntry v = some generation) : (generationValue generation).isSome = true := by
  unfold generationEntry at h
  split at h
  · split at h
    · rename_i hassert
      cases h
      unfold generationValue
      rw [if_pos hassert]
      rfl
    · cases h
  · cases h

/-! ## Numbers of the documents -/

instance : JsonIntegers Double where
  safeInteger n := safeInteger n.1
  ofNat n := toDouble n
  safeInteger_ofNat n hn := by
    have hdouble : (JsonNumber.finite (n : Rat)).IsDouble := by
      have hint := isDouble_intCast (n := (n : Int)) (by simpa using hn)
      rwa [Int.cast_natCast] at hint
    rw [toDouble_self hdouble]
    exact @JsonIntegers.safeInteger_ofNat JsonNumber _ n hn

theorem safeInteger_eq_some {d : Double} {n : Int} (h : safeInteger d = some n) : n.natAbs ≤ 2 ^ 53 - 1 ∧ d = toDouble n := by
  obtain ⟨value, hvalue⟩ := d
  cases value with
  | infinite negative => cases h
  | finite q =>
    change (if (JsonNumber.finite q).isSafeInteger then some q.num else none) = some n at h
    split at h
    · rename_i hsafe
      obtain ⟨hden, hnum⟩ := of_decide_eq_true hsafe
      obtain rfl := Option.some.inj h
      have hq : q = (q.num : Rat) := by rw [Rat.coe_int_num_of_den_eq_one hden]
      refine ⟨hnum, Subtype.ext ?_⟩
      rw [toDouble_intCast hnum, ← hq]
    · cases h

theorem safeInteger_toDouble {n : Int} (hn : n.natAbs ≤ 2 ^ 53 - 1) : safeInteger (toDouble n) = some n := by
  have hsafe : (JsonNumber.finite (n : Rat)).isSafeInteger = true := decide_eq_true ⟨Rat.den_intCast n, by rwa [Rat.num_intCast]⟩
  change safeInteger (toDouble n).1 = some n
  rw [toDouble_intCast hn]
  exact (if_pos hsafe).trans (congrArg some (Rat.num_intCast n))

/-- Key documents and generation documents are read back as they were written, under their own scope only, and a newer
release is recognised before anything else. -/
theorem secretDocuments :
    DocumentContract conversationKeyDocumentVersion (fun key => key.length = conversationKeyBytes)
        (parseConversationKeyDocument JsonText.doubles) (serializeConversationKeyDocument JsonText.doubles)
        (JsonText.parse JsonText.doubles) ∧
      DocumentContract conversationKeyGenerationsDocumentVersion (fun generation => assertGeneration generation = true)
        (parseConversationKeyGenerationsDocument JsonText.doubles)
        (serializeConversationKeyGenerationsDocument JsonText.doubles) (JsonText.parse JsonText.doubles) := by
  have hkeys : (fun key : Bytes => key.length = conversationKeyBytes) =
      fun key => (keyValue key : Option (Json Double)).isSome = true := by
    funext key
    unfold keyValue
    by_cases hlength : key.length = conversationKeyBytes <;> simp [hlength]
  have hgenerations : (fun generation : ConversationKeyGeneration Double => assertGeneration generation = true) =
      fun generation => (generationValue generation).isSome = true := by
    funext generation
    unfold generationValue
    by_cases hassert : assertGeneration generation = true <;> simp [hassert]
  constructor
  · rw [hkeys]
    exact documentContract JsonText.doubles JsonText.doubles_readsBack (by decide) ⟨by decide, by decide⟩
      keyEntry_keyValue keyValue_keyEntry
  · rw [hgenerations]
    exact documentContract JsonText.doubles JsonText.doubles_readsBack (by decide) ⟨by decide, by decide⟩
      generationEntry_generationValue generationValue_generationEntry

end Webchannel.Storage
