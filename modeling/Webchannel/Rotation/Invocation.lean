import Mathlib.Data.List.TakeWhile
import Webchannel.Lib.OrderedMap
import Webchannel.Lib.JsString

/-!
# What the operator asks for

`parseInvocation` of `rotate-conversation-key-cli.ts`. The arguments are read from left to right, and the first of them that
cannot be taken, or that asks for help, ends the reading. `isAbsolute` is the platform's.
-/

namespace Webchannel.Rotation

inductive Target where
  | peer (peerId : JsString)
  | account
  deriving DecidableEq, Repr

structure Invocation where
  tenant : JsString
  accountId : JsString
  target : Target
  apply : Bool
  confirmDigest : Option JsString
  storageRoot : Option JsString
  credentialPath : Option JsString
  ignoreLiveWriters : Bool
  deriving DecidableEq, Repr

inductive ParsedInvocation where
  | help
  | usageError (message : JsString)
  | run (invocation : Invocation)
  deriving DecidableEq, Repr

def valueFlags : List JsString :=
  [js "--tenant", js "--account", js "--peer", js "--confirm-digest", js "--storage-root", js "--credential-path"]

def booleanFlags : List JsString := [js "--all-peers", js "--apply", js "--ignore-live-writers"]

def helpFlags : List JsString := [js "--help", js "-h"]

/-- What has been read so far. -/
structure Arguments where
  values : OrderedMap JsString JsString
  flags : OrderedSet JsString

def equalsSign : UInt16 := 61

def hyphen : UInt16 := 45

/-- The part of an argument in front of its first `=`. -/
def flagName (argument : JsString) : JsString := argument.takeWhile (· ≠ equalsSign)

/-- The part behind it. -/
def flagValue (argument : JsString) : JsString := argument.drop ((flagName argument).length + 1)

def requiresValue (name : JsString) : ParsedInvocation := .usageError (name ++ js " requires a value")

def readArguments : List JsString → Arguments → Except ParsedInvocation Arguments
  | [], read => .ok read
  | argument :: rest, read =>
    if argument ∈ helpFlags then .error .help
    else if flagName argument ∈ booleanFlags then
      if equalsSign ∈ argument then .error (.usageError (flagName argument ++ js " takes no value"))
      else readArguments rest { read with flags := read.flags.add (flagName argument) }
    else if flagName argument ∈ valueFlags then
      if read.values.has (flagName argument) then .error (.usageError (flagName argument ++ js " was given twice"))
      else if equalsSign ∈ argument then
        if flagValue argument = [] then .error (requiresValue (flagName argument))
        else readArguments rest { read with values := read.values.set (flagName argument) (flagValue argument) }
      else
        match rest with
        | [] => .error (requiresValue (flagName argument))
        | value :: rest =>
          if value = [] then .error (requiresValue (flagName argument))
          -- A missing value must not swallow the next flag.
          else if value.head? = some hyphen then
            .error (.usageError (flagName argument ++ js " requires a value, but \"" ++ value ++ js "\" is a flag"))
          else readArguments rest { read with values := read.values.set (flagName argument) value }
    else .error (.usageError (js "unknown argument \"" ++ argument ++ js "\""))

/-- The checks behind the loop. -/
def checkArguments (isAbsolute : JsString → Bool) (read : Arguments) : ParsedInvocation :=
  match read.values.get (js "--tenant"), read.values.get (js "--account") with
  | some tenant, some accountId =>
    let credentialPath := read.values.get (js "--credential-path")
    if credentialPath.any (!isAbsolute ·) then .usageError (js "--credential-path must be an absolute filesystem path")
    else
      let peerId := read.values.get (js "--peer")
      let allPeers := read.flags.has (js "--all-peers")
      let apply := read.flags.has (js "--apply")
      let confirmDigest := read.values.get (js "--confirm-digest")
      if peerId = none ∧ allPeers = false then
        .usageError (js
          "name the target explicitly: --peer <peerId>, or --all-peers for the whole account. There is no default.")
      else if peerId.isSome ∧ allPeers then .usageError (js "--peer and --all-peers are mutually exclusive")
      else if allPeers ∧ apply ∧ confirmDigest = none then
        .usageError (js "--all-peers --apply requires --confirm-digest <hex> from the matching dry run")
      else if confirmDigest.isSome ∧ ¬ (allPeers ∧ apply) then
        .usageError (js "--confirm-digest only applies to --all-peers --apply")
      else
        .run
          { tenant
            accountId
            target := match peerId with
              | some peerId => .peer peerId
              | none => .account
            apply
            confirmDigest
            storageRoot := read.values.get (js "--storage-root")
            credentialPath
            ignoreLiveWriters := read.flags.has (js "--ignore-live-writers") }
  | _, _ => .usageError (js "--tenant and --account are both required")

def parseInvocation (isAbsolute : JsString → Bool) (argv : List JsString) : ParsedInvocation :=
  match readArguments argv ⟨.empty, .empty⟩ with
  | .error refusal => refusal
  | .ok read => checkArguments isAbsolute read

/-! ## Arguments of their own -/

/-- The arguments that are not the value of the flag in front of them. -/
def ownArguments : List JsString → List JsString
  | [] => []
  | [argument] => [argument]
  | argument :: value :: rest =>
    argument :: if argument ∈ valueFlags then ownArguments rest else ownArguments (value :: rest)

theorem ownArguments_cons_of_not {argument : JsString} (h : argument ∉ valueFlags) (rest : List JsString) :
    ownArguments (argument :: rest) = argument :: ownArguments rest := by
  cases rest with
  | nil => rfl
  | cons value rest => rw [ownArguments, if_neg h]

theorem ownArguments_cons_of_value {argument : JsString} (h : argument ∈ valueFlags) (value : JsString)
    (rest : List JsString) : ownArguments (argument :: value :: rest) = argument :: ownArguments rest := by
  rw [ownArguments, if_pos h]

/-- Without a value of its own behind a `=`, the argument is its name. -/
theorem flagName_eq_self {argument : JsString} (h : equalsSign ∉ argument) : flagName argument = argument := by
  refine List.takeWhile_eq_self_iff.mpr fun u hu => decide_eq_true ?_
  intro heq
  exact h (heq ▸ hu)

theorem not_mem_valueFlags {argument : JsString} (h : equalsSign ∈ argument) : argument ∉ valueFlags := by
  have hplain : ∀ flag ∈ valueFlags, equalsSign ∉ flag := by decide
  intro hflag
  exact hplain argument hflag h

theorem not_mem_booleanFlags {argument : JsString} (h : equalsSign ∈ argument) : argument ∉ booleanFlags := by
  have hplain : ∀ flag ∈ booleanFlags, equalsSign ∉ flag := by decide
  intro hflag
  exact hplain argument hflag h

/-- What is true of the flags once the arguments have been read. -/
structure ReadFlags (argv : List JsString) (before after : OrderedSet JsString) : Prop where
  has : ∀ flag, after.has flag = true ↔ before.has flag = true ∨ flag ∈ booleanFlags ∧ flag ∈ ownArguments argv
  noHelp : ∀ flag ∈ helpFlags, flag ∉ ownArguments argv

/-- A boolean flag by itself. -/
theorem ReadFlags.boolean {argument : JsString} {rest : List JsString} {before after : OrderedSet JsString}
    (hflag : argument ∈ booleanFlags) (hhelp : argument ∉ helpFlags) (h : ReadFlags rest (before.add argument) after) :
    ReadFlags (argument :: rest) before after := by
  have hdistinct : ∀ flag ∈ booleanFlags, flag ∉ valueFlags := by decide
  have hown := ownArguments_cons_of_not (hdistinct argument hflag) rest
  constructor
  · intro flag
    rw [h.has, hown, OrderedSet.add, OrderedMap.has_set_eq, Bool.or_eq_true, decide_eq_true_iff, List.mem_cons]
    constructor
    · rintro ((rfl | hbefore) | ⟨hboolean, hrest⟩)
      · exact .inr ⟨hflag, .inl rfl⟩
      · exact .inl hbefore
      · exact .inr ⟨hboolean, .inr hrest⟩
    · rintro (hbefore | ⟨hboolean, rfl | hrest⟩)
      · exact .inl (.inr hbefore)
      · exact .inl (.inl rfl)
      · exact .inr ⟨hboolean, hrest⟩
  · intro flag hf
    rw [hown, List.mem_cons]
    rintro (rfl | hrest)
    · exact hhelp hf
    · exact h.noHelp flag hf hrest

/-- An argument that sets a value, behind which the reading goes on at `rest`. -/
theorem ReadFlags.value {argument : JsString} {argv rest : List JsString} {before after : OrderedSet JsString}
    (hown : ownArguments argv = argument :: ownArguments rest) (hboolean : argument ∉ booleanFlags)
    (hhelp : argument ∉ helpFlags) (h : ReadFlags rest before after) : ReadFlags argv before after := by
  constructor
  · intro flag
    rw [h.has, hown, List.mem_cons]
    constructor
    · rintro (hbefore | ⟨hflag, hrest⟩)
      · exact .inl hbefore
      · exact .inr ⟨hflag, .inr hrest⟩
    · rintro (hbefore | ⟨hflag, rfl | hrest⟩)
      · exact .inl hbefore
      · exact absurd hflag hboolean
      · exact .inr ⟨hflag, hrest⟩
  · intro flag hf
    rw [hown, List.mem_cons]
    rintro (rfl | hrest)
    · exact hhelp hf
    · exact h.noHelp flag hf hrest

theorem readArguments_flags {argv : List JsString} {read read' : Arguments} (h : readArguments argv read = .ok read') :
    ReadFlags argv read.flags read'.flags := by
  fun_induction readArguments argv read with
  | case1 read =>
    cases h
    exact ⟨fun flag => by simp [ownArguments], fun flag _ => List.not_mem_nil⟩
  | case4 argument rest read hhelp hboolean hequals ih =>
    have hself := flagName_eq_self hequals
    rw [hself] at hboolean ih h
    exact ReadFlags.boolean hboolean hhelp (ih h)
  | case7 argument rest read hhelp hboolean hvalue hgiven hequals hempty ih =>
    exact ReadFlags.value (ownArguments_cons_of_not (not_mem_valueFlags hequals) rest) (not_mem_booleanFlags hequals) hhelp
      (ih h)
  | case11 argument read hhelp hboolean hvalue hgiven hequals value rest hempty hflag ih =>
    rw [flagName_eq_self hequals] at hboolean hvalue
    exact ReadFlags.value (ownArguments_cons_of_value hvalue value rest) hboolean hhelp (ih h)
  | _ => cases h

/-- What ends the reading is no invocation that runs. -/
theorem readArguments_error {argv : List JsString} {read : Arguments} {refusal : ParsedInvocation}
    (h : readArguments argv read = .error refusal) (invocation : Invocation) : refusal ≠ .run invocation := by
  fun_induction readArguments argv read with
  | case4 argument rest read hhelp hboolean hequals ih => exact ih h
  | case7 argument rest read hhelp hboolean hvalue hgiven hequals hempty ih => exact ih h
  | case11 argument read hhelp hboolean hvalue hgiven hequals value rest hempty hflag ih => exact ih h
  | _ =>
    cases h
    try exact ParsedInvocation.noConfusion

theorem mem_ownArguments_self (argument : JsString) (rest : List JsString) : argument ∈ ownArguments (argument :: rest) := by
  cases rest with
  | nil => exact List.mem_cons_self
  | cons value rest => exact List.mem_cons_self

/-- Help is only shown to who asks for it. -/
theorem readArguments_help {argv : List JsString} {read : Arguments} (h : readArguments argv read = .error .help) :
    ∃ flag ∈ helpFlags, flag ∈ ownArguments argv := by
  fun_induction readArguments argv read with
  | case2 argument rest read hhelp => exact ⟨argument, hhelp, mem_ownArguments_self argument rest⟩
  | case4 argument rest read hhelp hboolean hequals ih =>
    have hdistinct : ∀ flag ∈ booleanFlags, flag ∉ valueFlags := by decide
    obtain ⟨flag, hflag, hown⟩ := ih h
    rw [flagName_eq_self hequals] at hboolean
    rw [ownArguments_cons_of_not (hdistinct argument hboolean)]
    exact ⟨flag, hflag, List.mem_cons_of_mem _ hown⟩
  | case7 argument rest read hhelp hboolean hvalue hgiven hequals hempty ih =>
    obtain ⟨flag, hflag, hown⟩ := ih h
    rw [ownArguments_cons_of_not (not_mem_valueFlags hequals)]
    exact ⟨flag, hflag, List.mem_cons_of_mem _ hown⟩
  | case11 argument read hhelp hboolean hvalue hgiven hequals value rest hempty hflag ih =>
    obtain ⟨flag, hflag, hown⟩ := ih h
    rw [flagName_eq_self hequals] at hvalue
    rw [ownArguments_cons_of_value hvalue]
    exact ⟨flag, hflag, List.mem_cons_of_mem _ hown⟩
  | _ => cases h

/-- What the checks let through. -/
structure Checked (read : Arguments) (invocation : Invocation) : Prop where
  apply : invocation.apply = read.flags.has (js "--apply")
  confirmDigest : invocation.confirmDigest = read.values.get (js "--confirm-digest")
  reviewed : invocation.apply = true → invocation.target = .account → invocation.confirmDigest ≠ none

theorem checkArguments_run {isAbsolute : JsString → Bool} {read : Arguments} {invocation : Invocation}
    (h : checkArguments isAbsolute read = .run invocation) : Checked read invocation := by
  unfold checkArguments at h
  split at h
  · rename_i tenant accountId htenant haccount
    dsimp only at h
    split_ifs at h with habsolute hnone hboth hreview hconfirm
    cases h
    refine ⟨rfl, rfl, fun happly haccount hdigest => hreview ⟨?_, happly, hdigest⟩⟩
    -- Without a peer the target is every peer, and that had to be asked for.
    dsimp only at haccount
    cases hpeer : read.values.get (js "--peer") with
    | some peerId => rw [hpeer] at haccount; cases haccount
    | none => exact Bool.of_not_eq_false fun hall => hnone ⟨hpeer, hall⟩
  · cases h

/-- An invocation that runs was asked for by arguments of their own. -/
structure Asked (argv : List JsString) (invocation : Invocation) : Prop where
  apply : invocation.apply = true ↔ js "--apply" ∈ ownArguments argv
  noHelp : ∀ flag ∈ helpFlags, flag ∉ ownArguments argv
  reviewed : invocation.apply = true → invocation.target = .account → invocation.confirmDigest ≠ none

theorem parseInvocation_run {isAbsolute : JsString → Bool} {argv : List JsString} {invocation : Invocation}
    (h : parseInvocation isAbsolute argv = .run invocation) : Asked argv invocation := by
  unfold parseInvocation at h
  split at h
  · rename_i refusal hread
    exact absurd h (readArguments_error hread invocation)
  · rename_i read hread
    have hflags := readArguments_flags hread
    have hchecked := checkArguments_run h
    refine ⟨?_, hflags.noHelp, hchecked.reviewed⟩
    rw [hchecked.apply, hflags.has]
    constructor
    · rintro (hbefore | hown)
      · cases hbefore
      · exact hown.2
    · intro hown
      exact .inr ⟨by decide, hown⟩

theorem checkArguments_ne_help (isAbsolute : JsString → Bool) (read : Arguments) : checkArguments isAbsolute read ≠ .help := by
  intro h
  unfold checkArguments at h
  split at h
  · dsimp only at h
    split_ifs at h
  · cases h

theorem parseInvocation_help {isAbsolute : JsString → Bool} {argv : List JsString}
    (h : parseInvocation isAbsolute argv = .help) : ∃ flag ∈ helpFlags, flag ∈ ownArguments argv := by
  unfold parseInvocation at h
  split at h
  · rename_i refusal hread
    cases h
    exact readArguments_help hread
  · rename_i read hread
    exact absurd h (checkArguments_ne_help isAbsolute read)

/-- A flag that is read as the value of another one is refused, so a run never has one for a value. -/
example : parseInvocation (fun _ => true) [js "--tenant", js "t", js "--account", js "a", js "--peer", js "--apply"] =
    .usageError (js "--peer requires a value, but \"--apply\" is a flag") := by decide

end Webchannel.Rotation
