import Webchannel.Keys.Operations

/-!
# The life of a tuple's keys

Runs of the store: calls one after the other, each with what the environment decides about its
writes, and processes that stop inside a call or are replaced between two of them. The files
survive a stop, the cache and the migration flag do not.
-/

namespace Webchannel.Keys

open Webchannel.Effect Webchannel.Runs

variable {Key : Type} {maxKeys : Nat} {start d d' : Disk Key}

inductive Action where
  | getOrCreate (peerId : String)
  | get (peerId : String)
  | rotate (peerId : String)
  /-- a new process, or a new instance over the same files -/
  | reopen
  deriving DecidableEq, Repr

def Action.rotates : Action → String → Prop
  | .rotate target, peerId => target = peerId
  | _, _ => False

inductive Outcome (Key : Type) where
  | key (key : Key)
  | lookup (key : Option Key)
  | rotated (result : ConversationKeyRotationResult Key)
  | opened

/-- What one call meets: how its writes and its migration end, the random keys and the clock. -/
structure Environment (Key : Type) where
  writes : List WriteOutcome
  random : List Key
  clock : List Nat
  migrations : List (Migration Key)

/-- The legacy document was written under the same ceiling. -/
def Environment.Fits (maxKeys : Nat) (env : Environment Key) : Prop :=
  ∀ keys, Migration.done (some keys) ∈ env.migrations → keys.size ≤ maxKeys

/-- A call, how it ended and the durable states it made, the latest one first. -/
structure Event (Key : Type) where
  action : Action
  outcome : Except Failure (Outcome Key)
  writes : List (Write × Disk Key)

structure Store (Key : Type) where
  disk : Disk Key
  cache : Option (OrderedMap String Key)
  migrationPrepared : Bool
  /-- the latest one first -/
  events : List (Event Key)

def Action.op (maxKeys : Nat) : Action → Op Key (Outcome Key)
  | .getOrCreate peerId => do
    let key ← Keys.getOrCreate maxKeys peerId
    pure (.key key)
  | .get peerId => do
    let key ← get? peerId
    pure (.lookup key)
  | .rotate peerId => do
    let result ← Keys.rotate maxKeys peerId
    pure (.rotated result)
  | .reopen => do
    modify ({ · with cache := none, migrationPrepared := false })
    pure .opened

def Store.machine (s : Store Key) (env : Environment Key) : Machine Key where
  disk := s.disk
  cache := s.cache
  migrationPrepared := s.migrationPrepared
  writes := env.writes
  random := env.random
  clock := env.clock
  migrations := env.migrations
  history := []

def Failure.stops (r : Except Failure (Outcome Key)) : Bool :=
  match r with
  | .error .stopped => true
  | _ => false

/-- The store after a call: a process that stopped leaves only the files. -/
def Store.after (s : Store Key) (a : Action) (r : Except Failure (Outcome Key)) (t : Machine Key) : Store Key where
  disk := t.disk
  cache := if Failure.stops r then none else t.cache
  migrationPrepared := if Failure.stops r then false else t.migrationPrepared
  events := ⟨a, r, t.history⟩ :: s.events

def step (maxKeys : Nat) (s : Store Key) (call : Action × Environment Key) : Option (Store Key) :=
  let (r, t) := Effect.exec (call.1.op maxKeys) (s.machine call.2)
  some (s.after call.1 r t)

/-- A first process over the files. -/
def opened (start : Disk Key) : Store Key := ⟨start, none, false, []⟩

/-- Every durable state since the start, the latest one first. -/
def history (events : List (Event Key)) : List (Write × Disk Key) := events.flatMap (·.writes)

/-! ## What a call leaves -/

/-- What the answer of a call says about the files it leaves. -/
def Answers (d : Disk Key) : Action → Except Failure (Outcome Key) → Prop
  | .getOrCreate peerId, .ok (.key key) => d.keyMap.get peerId = some key
  | .get peerId, .ok (.lookup key) => d.keyMap.get peerId = key
  | .rotate peerId, .ok (.rotated r) => d.keyMap.get peerId = some r.key ∧
      d.generationMap.get peerId = some ⟨r.epoch, r.rotatedAtSec⟩
  | .reopen, .ok .opened => True
  | _, .error _ => True
  | _, _ => False

theorem op_spec (a : Action) :
    Triple (Ready ⟨maxKeys, a.rotates⟩ start) (a.op maxKeys)
      (fun r s => Ready ⟨maxKeys, a.rotates⟩ start s ∧ Answers s.disk a (.ok r))
      (Ended ⟨maxKeys, a.rotates⟩ start) := by
  cases a with
  | getOrCreate peerId => exact .bind (getOrCreate_spec peerId) fun _ => .pure _ fun _ hs => hs
  | get peerId => exact .bind (get?_spec peerId) fun _ => .pure _ fun _ hs => hs
  | rotate peerId => exact .bind (rotate_spec peerId rfl) fun _ => .pure _ fun _ hs => hs
  | reopen =>
    refine .modify_bind (R := Ready ⟨maxKeys, Action.reopen.rotates⟩ start) (fun s hs => ?_)
      (.pure _ fun s hs => ⟨hs, trivial⟩)
    exact ⟨hs.1.of_eq rfl rfl fun _ h => h, fun keys hk => by cases hk⟩

/-- Every event is lawful from the files it found, and its answer is about the files it left. -/
def LawfulEvents (maxKeys : Nat) (start : Disk Key) : List (Event Key) → Prop
  | [] => True
  | e :: rest =>
    Lawful ⟨maxKeys, e.action.rotates⟩ (latest start (history rest)) e.writes ∧
      Answers (latest start (history (e :: rest))) e.action e.outcome ∧ LawfulEvents maxKeys start rest

structure StoreInv (maxKeys : Nat) (start : Disk Key) (s : Store Key) : Prop where
  lawful : LawfulEvents maxKeys start s.events
  disk : s.disk = latest start (history s.events)
  cache : ∀ keys, s.cache = some keys → keys = s.disk.keyMap ∧ s.migrationPrepared = true

theorem latest_append (new old : List (Write × Disk Key)) :
    latest start (new ++ old) = latest (latest start old) new := by
  cases new <;> rfl

theorem ready_machine {s : Store Key} (h : StoreInv maxKeys start s) {env : Environment Key}
    (hfits : env.Fits maxKeys) (a : Action) :
    Ready ⟨maxKeys, a.rotates⟩ s.disk (s.machine env) :=
  ⟨⟨trivial, rfl, hfits⟩, h.cache⟩

theorem storeInv_after {s : Store Key} (h : StoreInv maxKeys start s) {a : Action}
    {r : Except Failure (Outcome Key)} {t : Machine Key} (hsound : Sound ⟨maxKeys, a.rotates⟩ s.disk t)
    (hanswers : Answers t.disk a r) (hcache : Failure.stops r = false → CacheOk t) :
    StoreInv maxKeys start (s.after a r t) := by
  have hdisk : t.disk = latest start (history (⟨a, r, t.history⟩ :: s.events)) := by
    rw [hsound.disk, h.disk]
    exact (latest_append _ _).symm
  refine ⟨⟨?_, ?_, h.lawful⟩, hdisk, fun keys hk => ?_⟩
  · rw [← h.disk]
    exact hsound.lawful
  · rw [← hdisk]
    exact hanswers
  · cases hstops : Failure.stops r with
    | true =>
      rw [Store.after, hstops] at hk
      cases hk
    | false =>
      rw [Store.after, hstops] at hk ⊢
      exact hcache hstops keys hk

theorem storeInv_step {s t : Store Key} {call : Action × Environment Key} (h : StoreInv maxKeys start s)
    (hfits : call.2.Fits maxKeys) (hstep : step maxKeys s call = some t) : StoreInv maxKeys start t := by
  obtain ⟨a, env⟩ := call
  have hready := ready_machine h hfits a
  have hop := op_spec a (s.machine env) hready
  unfold step at hstep
  rcases hx : Effect.exec (a.op maxKeys) (s.machine env) with ⟨e | r, u⟩
  · rw [hx] at hop hstep
    cases hstep
    refine storeInv_after h hop.1 (by cases a <;> trivial) fun hs => hop.2 ?_
    rintro rfl
    cases hs
  · rw [hx] at hop hstep
    cases hstep
    exact storeInv_after h hop.1.1 hop.2 fun _ => hop.1.2

theorem storeInv_opened : StoreInv maxKeys start (opened start) := ⟨trivial, rfl, fun keys hk => by cases hk⟩

theorem storeInv_reached {s : Store Key}
    (h : ReachedBy (step maxKeys) (fun _ call => call.2.Fits maxKeys) (opened start) s) :
    StoreInv maxKeys start s :=
  h.invariant storeInv_opened fun _ _ _ hs hfits hstep => storeInv_step hs hfits hstep

/-! ## Durable states of a whole run -/

theorem LawfulWrite.mono {k k' : Limits} {w : Write} (h : LawfulWrite k w d d') (hmax : k.maxKeys = k'.maxKeys)
    (hrotates : ∀ p, k.rotates p → k'.rotates p) : LawfulWrite k' w d d' := by
  refine ⟨fun p key hp => ?_, fun hb => hmax ▸ h.bounded (hmax ▸ hb), h.epochs⟩
  obtain ⟨key', hkey', rfl | ⟨g, hg, hw, hr⟩⟩ := h.kept p key hp
  · exact ⟨key', hkey', .inl rfl⟩
  · exact ⟨key', hkey', .inr ⟨g, hg, hw, hrotates p hr⟩⟩

theorem lawful_split {k : Limits} {later earlier : List (Write × Disk Key)} {w : Write}
    (h : Lawful k start (later ++ (w, d) :: earlier)) : LawfulWrite k w (latest start earlier) d := by
  induction later with
  | nil => exact h.1
  | cons e later ih => exact ih h.2

/-- Every durable state follows lawfully from the one before it, under the limits of its call. -/
theorem lawful_history {events : List (Event Key)} {later earlier : List (Write × Disk Key)} {w : Write}
    (h : LawfulEvents maxKeys start events) (hsplit : history events = later ++ (w, d) :: earlier) :
    ∃ e ∈ events, (w, d) ∈ e.writes ∧
      LawfulWrite ⟨maxKeys, e.action.rotates⟩ w (latest start earlier) d := by
  induction events generalizing later with
  | nil => simp [history] at hsplit
  | cons e rest ih =>
    have hrest (later' : List (Write × Disk Key)) (hl : history rest = later' ++ (w, d) :: earlier) :
        ∃ e' ∈ e :: rest, (w, d) ∈ e'.writes ∧
          LawfulWrite ⟨maxKeys, e'.action.rotates⟩ w (latest start earlier) d := by
      obtain ⟨e', he', hw⟩ := ih h.2.2 hl
      exact ⟨e', .tail _ he', hw⟩
    change e.writes ++ history rest = _ at hsplit
    rcases List.append_eq_append_iff.mp hsplit with ⟨as, hl, hr⟩ | ⟨bs, hl, hr⟩
    · exact hrest as hr
    · cases bs with
      | nil => exact hrest [] hr.symm
      | cons x bs =>
        obtain ⟨rfl, rfl⟩ : (w, d) = x ∧ earlier = bs ++ history rest := by simpa using hr
        have hlawful := h.1
        rw [hl] at hlawful
        refine ⟨e, .head _, by rw [hl]; simp, ?_⟩
        rw [latest_append]
        exact lawful_split hlawful

theorem lawfulEvents_suffix {later events : List (Event Key)}
    (h : LawfulEvents maxKeys start (later ++ events)) : LawfulEvents maxKeys start events := by
  induction later with
  | nil => exact h
  | cons e later ih => exact ih h.2.2

/-- A durable key survives every lawful write but the one that replaces it. -/
theorem key_survives {new old : List (Write × Disk Key)} {peerId : String} {key : Key}
    (h : ∀ later w d earlier, new ++ old = later ++ (w, d) :: earlier →
      ∃ k, LawfulWrite k w (latest start earlier) d)
    (hkey : (latest start old).keyMap.get peerId = some key)
    (hkept : ∀ epoch, .replaced peerId epoch ∉ new.map Prod.fst) :
    (latest start (new ++ old)).keyMap.get peerId = some key := by
  induction new with
  | nil => exact hkey
  | cons e new ih =>
    obtain ⟨w, d⟩ := e
    have hbefore := ih (fun later w' d' earlier heq => h ((w, d) :: later) w' d' earlier (by rw [List.cons_append, heq]; rfl))
      fun epoch hmem => hkept epoch (.tail _ hmem)
    obtain ⟨k, hw⟩ := h [] w d (new ++ old) rfl
    obtain ⟨key', hkey', rfl | ⟨g, -, rfl, -⟩⟩ := hw.kept peerId key hbefore
    · exact hkey'
    · exact absurd (.head _) (hkept g.epoch)

theorem bounded_history {s : Store Key} (h : StoreInv maxKeys start s) (hstart : start.keyMap.size ≤ maxKeys)
    {later earlier : List (Write × Disk Key)} (hsplit : history s.events = later ++ earlier) :
    (latest start earlier).keyMap.size ≤ maxKeys := by
  induction earlier generalizing later with
  | nil => exact hstart
  | cons e earlier ih =>
    obtain ⟨_, _, _, hw⟩ := lawful_history h.lawful hsplit
    have hbefore : history s.events = (later ++ [e]) ++ earlier := by
      rw [hsplit, List.append_assoc]
      rfl
    exact hw.bounded (ih hbefore)

/-! ## A durable key is served -/

/-- The sidecar is no document of a newer release, and the migration can be completed. -/
structure Serves (s : Store Key) (env : Environment Key) : Prop where
  sidecar : s.disk.generations.read generationVersion ≠ some (.error .versionTooNew)
  migration : ∃ published rest, env.migrations = .done published :: rest

theorem prepareMigration_returns (hkeys : d.keys ≠ .absent) :
    Triple (fun s => s.disk = d ∧ ∃ published rest, s.migrations = .done published :: rest)
      prepareMigration (fun _ s => s.disk = d) (fun _ _ => False) := by
  unfold prepareMigration
  refine .get_bind fun s hs => .ite (fun _ => .pure _ fun t ht => by rw [ht]; exact hs.1) fun _ => ?_
  refine .get_bind fun s' hs' => ?_
  subst hs'
  obtain ⟨hdisk, published, rest, hm⟩ := hs
  rw [hm]
  refine .modify_bind (R := (· = { s' with migrations := rest })) (fun t ht => by rw [ht]) ?_
  refine .get_bind fun t ht => ?_
  have hdone : Triple (· = t) (modify ({ · with migrationPrepared := true }) : Op Key PUnit)
      (fun _ s => s.disk = d) (fun _ _ => False) :=
    .modify fun u hu => by rw [hu, ht]; exact hdisk
  have hpresent : t.disk.keys ≠ .absent := by
    rw [ht]
    exact hdisk ▸ hkeys
  cases published with
  | none => exact hdone
  | some keys =>
    cases hk : t.disk.keys with
    | absent => exact absurd hk hpresent
    | unreadable => exact hdone
    | garbage => exact hdone
    | document doc => exact hdone

theorem assertGenerationsNotFromFuture_returns
    (hsidecar : d.generations.read generationVersion ≠ some (.error .versionTooNew)) :
    Triple (fun s => s.disk = d) assertGenerationsNotFromFuture (fun _ s => s.disk = d)
      (fun _ _ => False) := by
  refine catching_spec (R := fun e s => s.disk = d ∧ e ≠ .stopped ∧ e ≠ .document .versionTooNew)
    (.bind (R := fun _ s => s.disk = d) ?_ fun _ => .pure _ fun _ hs => hs)
    (fun s hs => absurd rfl hs.2.1) fun e _ => ?_
  · unfold readGenerationFile
    refine .get_bind fun s hs => ?_
    rw [hs]
    cases hread : d.generations.read generationVersion with
    | none => exact .pure _ fun t ht => by rw [ht]; exact hs
    | some result =>
      cases result with
      | ok generations => exact .pure _ fun t ht => by rw [ht]; exact hs
      | error code =>
        refine .throw _ fun t ht => ⟨by rw [ht]; exact hs, by simp, ?_⟩
        rintro ⟨⟩
        exact hsidecar hread
  · exact .ite (fun he => .throw _ fun s hs => hs.2.2 he) fun _ => .pure _ fun s hs => hs.1

theorem load_returns {peerId : String} {key : Key} (hkey : d.keyMap.get peerId = some key)
    (hsidecar : d.generations.read generationVersion ≠ some (.error .versionTooNew)) :
    Triple (fun s => (s.disk = d ∧ ∃ published rest, s.migrations = .done published :: rest) ∧ CacheOk s)
      load (fun keys _ => keys.get peerId = some key) (fun _ _ => False) := by
  have hread : d.keys.read keyVersion = some (.ok d.keyMap) := by
    unfold Disk.keyMap at hkey ⊢
    split at hkey
    · assumption
    · cases hkey
  unfold load
  refine .get_bind fun s hs => ?_
  cases hcache : s.cache with
  | some keys =>
    refine .pure _ fun _ _ => ?_
    rw [(hs.2 keys hcache).1, hs.1.1]
    exact hkey
  | none =>
    have hkeys : d.keys ≠ .absent := by
      intro habsent
      rw [habsent] at hread
      cases hread
    refine .bind ((prepareMigration_returns hkeys).conseq (fun t ht => by rw [ht]; exact hs.1)
      (fun _ _ h => h) fun _ _ h => h) fun _ => ?_
    refine .bind (assertGenerationsNotFromFuture_returns hsidecar) fun _ => ?_
    refine catching_spec (R := fun _ _ => False) ?_ (fun _ h => h) fun _ _ => fun _ h => h.elim
    refine .bind (R := fun keys _ => keys = some d.keyMap) ?_ fun keys => ?_
    · unfold readStoreFile
      refine .get_bind fun t ht => ?_
      rw [ht, hread]
      exact .pure _ fun _ _ => rfl
    · refine .modify_bind (R := fun _ => keys = some d.keyMap) (fun _ h => h) (.pure _ fun _ h => ?_)
      rw [h]
      exact hkey

/-! ## The run theorem -/

/-- What holds of the durable states and the answers of a run. -/
structure Stable (maxKeys : Nat) (start : Disk Key) (s : Store Key) : Prop where
  /-- from one durable state to the next; only a rotation of the peer replaces its key -/
  lawful : ∀ later w d earlier, history s.events = later ++ (w, d) :: earlier →
    LawfulWrite ⟨maxKeys, fun p => ∃ e ∈ s.events, e.action = .rotate p ∧ (w, d) ∈ e.writes⟩ w
      (latest start earlier) d
  bounded : ∀ later earlier, history s.events = later ++ earlier →
    (latest start earlier).keyMap.size ≤ maxKeys
  /-- an answer is about the files that the call left -/
  answers : ∀ later e earlier, s.events = later ++ e :: earlier →
    Answers (latest start (history (e :: earlier))) e.action e.outcome
  /-- a key that was durable at some point is durable at every later one, and is what every later
  call answers, up to the write that replaces it -/
  stable : ∀ later events, s.events = later ++ events → ∀ new old peerId key,
    history events = new ++ old → (latest start old).keyMap.get peerId = some key →
    (∀ epoch, .replaced peerId epoch ∉ new.map Prod.fst) →
    (latest start (history events)).keyMap.get peerId = some key ∧
      ∀ e ∈ events.head?,
        (∀ found, e.action = .get peerId → e.outcome = .ok (.lookup found) → found = some key) ∧
        (∀ found, e.action = .getOrCreate peerId → e.outcome = .ok (.key found) → found = key)
  /-- and it is answered, whatever the writes of the call would do -/
  served : ∀ peerId key env, s.disk.keyMap.get peerId = some key → Serves s env → peerId ≠ "" →
    (Effect.exec (get? peerId) (s.machine env)).1 = .ok (some key) ∧
      (Effect.exec (getOrCreate maxKeys peerId) (s.machine env)).1 = .ok key

theorem serves {s : Store Key} (h : StoreInv maxKeys start s) {peerId : String} {key : Key}
    {env : Environment Key} (hkey : s.disk.keyMap.get peerId = some key) (hserves : Serves s env)
    (hpeer : peerId ≠ "") :
    (Effect.exec (get? peerId) (s.machine env)).1 = .ok (some key) ∧
      (Effect.exec (getOrCreate maxKeys peerId) (s.machine env)).1 = .ok key := by
  have hload := load_returns hkey hserves.sidecar (s.machine env) ⟨⟨rfl, hserves.migration⟩, h.cache⟩
  rcases hx : Effect.exec load (s.machine env) with ⟨e | keys, t⟩
  · rw [hx] at hload
    exact hload.elim
  · rw [hx] at hload
    constructor
    · unfold get?
      rw [exec_bind_ok hx, exec_pure]
      exact congrArg Except.ok hload
    · unfold getOrCreate assertPeerId
      rw [if_neg hpeer, exec_bind_ok (exec_pure _ _), exec_bind_ok hx, hload]
      rfl

/-- Conversation keys are stable and crash-safe in every run of the store over the files. -/
theorem keys_stable {s : Store Key} (hstart : start.keyMap.size ≤ maxKeys)
    (hrun : ReachedBy (step maxKeys) (fun _ call => call.2.Fits maxKeys) (opened start) s) :
    Stable maxKeys start s := by
  have hinv := storeInv_reached hrun
  constructor
  · intro later w d earlier hsplit
    obtain ⟨e, he, hmem, hw⟩ := lawful_history hinv.lawful hsplit
    refine hw.mono rfl fun p hp => ⟨e, he, ?_, hmem⟩
    cases ha : e.action with
    | rotate target =>
      rw [ha] at hp
      exact congrArg Action.rotate hp
    | _ =>
      rw [ha] at hp
      exact hp.elim
  · intro later earlier hsplit
    exact bounded_history hinv hstart hsplit
  · intro later e earlier hsplit
    have hlawful : LawfulEvents maxKeys start (e :: earlier) := lawfulEvents_suffix (hsplit ▸ hinv.lawful)
    exact hlawful.2.1
  · intro later events hsplit new old peerId key hhistory hkey hkept
    have hlawful := lawfulEvents_suffix (hsplit ▸ hinv.lawful)
    have hdurable : (latest start (history events)).keyMap.get peerId = some key := by
      rw [hhistory]
      refine key_survives (fun later w d earlier heq => ?_) hkey hkept
      obtain ⟨e, -, -, hw⟩ := lawful_history hlawful (hhistory.trans heq)
      exact ⟨_, hw⟩
    refine ⟨hdurable, fun e he => ?_⟩
    cases events with
    | nil => cases he
    | cons x events =>
      obtain rfl : x = e := by simpa using he
      have hanswer := hlawful.2.1
      refine ⟨fun found ha ho => ?_, fun found ha ho => ?_⟩
      · rw [ha, ho] at hanswer
        exact hanswer.symm.trans hdurable
      · rw [ha, ho] at hanswer
        exact Option.some.inj (hanswer.symm.trans hdurable)
  · intro peerId key env hkey hserves hpeer
    exact serves hinv hkey hserves hpeer

/-- The process stops between the two writes of a rotation; the old key is still served. -/
theorem keys_stable_stopped_rotation :
    let start : Disk Nat := ⟨.absent, .absent, []⟩
    start.keyMap.size ≤ 1 ∧ ∃ s : Store Nat,
      ReachedBy (step 1) (fun _ call => call.2.Fits 1) (opened start) s ∧
      (s.events.map (·.writes.map Prod.fst) = [[], [.generations], [.generations, .created "ann"]] ∧
        s.events.head?.map (·.outcome) = some (.ok (.lookup (some 7)))) ∧ Stable 1 start s := by
  refine ⟨by decide, ?_⟩
  have hfits (env : Environment Nat) (h : env.migrations = [.done none]) : env.Fits 1 := by
    intro keys hmem
    rw [h] at hmem
    simp at hmem
  have hopened : ReachedBy (step 1) (fun _ call => call.2.Fits 1) (opened ⟨.absent, .absent, []⟩)
    (opened (⟨.absent, .absent, []⟩ : Disk Nat)) := .start
  have hcreated := hopened.step (a := (.getOrCreate "ann", ⟨[.written, .written], [7], [5], [.done none]⟩))
    (hfits _ rfl) rfl
  have hstopped := hcreated.step
    (a := (.rotate "ann", ⟨[.written, .stoppedBefore], [8], [6], [.done none]⟩)) (hfits _ rfl) rfl
  have hrun := hstopped.step (a := (.get "ann", ⟨[], [], [], [.done none]⟩)) (hfits _ rfl) rfl
  exact ⟨_, hrun, ⟨by rfl, by rfl⟩, keys_stable (by decide) hrun⟩

end Webchannel.Keys
