import Commeatus.Daemon.ConfigFile
import Commeatus.Lib.RwLock

/-!
The active configuration (`ConfigStore` in `daemon/src/config.rs`).

A reload compiles its candidate without the lock and swaps it in under the
lock for writing; a snapshot copies what is there under the lock for reading.
Calls run at once and take turns in any order, and files may change between
them. What a snapshot returns is still the candidate that was swapped in last
before its copy, and no text is ever active that the compiler has refused.
-/

namespace Commeatus.Daemon

open Commeatus.Lib

variable {η : Type}

/-- The part of the platform that changes. -/
structure Files where
  metadataLen : Str → Except IoError Nat
  readToString : Str → Except IoError Str

def Platform.withFiles (platform : Platform η) (files : Files) : Platform η :=
  { platform with metadataLen := files.metadataLen, readToString := files.readToString }

structure ConfigStore (η : Type) where
  active : RwLock (CompiledConfig η)
  assetRoot : Str

namespace ConfigStore

def newAt (platform : Platform η) (text assetRoot : Str) : Except ConfigError (ConfigStore η) := do
  let active ← parseConfigAt platform text assetRoot
  return ⟨{ value := active }, assetRoot⟩

def new (platform : Platform η) (text : Str) : Except ConfigError (ConfigStore η) :=
  newAt platform text ['.']

/-! ### The calls -/

/-- A text is compiled without the lock. -/
structure Compile where
  text : Str

abbrev Act (η : Type) : Type := RwAct Compile (CompiledConfig η)

abbrev Ans : Act η → Type :=
  RwAns (fun _ => Except ConfigError (CompiledConfig η)) (CompiledConfig η)

abbrev StoreM (η : Type) : Type → Type := Prog (Act η) Ans

def compile (text : Str) : StoreM η (Except ConfigError (CompiledConfig η)) :=
  Prog.perform (RwAct.outside ⟨text⟩)

def write : StoreM η Bool := Prog.perform RwAct.write

def assign (candidate : CompiledConfig η) : StoreM η Unit := Prog.perform (RwAct.assign candidate)

def unwrite : StoreM η Unit := Prog.perform RwAct.unwrite

def read : StoreM η Bool := Prog.perform RwAct.read

def copy : StoreM η (CompiledConfig η) := Prog.perform RwAct.copy

def unread : StoreM η Unit := Prog.perform RwAct.unread

def lockPoisoned : ConfigError := ⟨none, "configuration state lock is poisoned"⟩

/-- What a call returns. -/
inductive Returned (η : Type) where
  | reloaded (result : Except ConfigError Unit)
  | taken (result : Except ConfigError (CompiledConfig η))

def reload (text : Str) : StoreM η (Returned η) := do
  match ← compile text with
  | .error e => return .reloaded (.error e)
  | .ok candidate =>
      if ← write then return .reloaded (.error lockPoisoned)
      else do
        assign candidate
        unwrite
        return .reloaded (.ok ())

def snapshot : StoreM η (Returned η) := do
  if ← read then return .taken (.error lockPoisoned)
  else do
    let active ← copy
    unread
    return .taken (.ok active)

inductive Call where
  | reload (text : Str)
  | snapshot

def Call.run : Call → StoreM η (Returned η)
  | .reload text => ConfigStore.reload text
  | .snapshot => ConfigStore.snapshot

/-- What a compilation can return: the files are those of its time. -/
def Compiles (platform : Platform η) (assetRoot : Str) (action : Compile)
    (result : Except ConfigError (CompiledConfig η)) : Prop :=
  ∃ files, result = parseConfigAt (platform.withFiles files) action.text assetRoot

/-- Calls on one store, with what they have done. -/
abbrev Calls (η ι : Type) : Type :=
  Prog.System (Act η) Ans (Returned η) ι (RwLock (CompiledConfig η))

/-- A state that the calls can come to, in whatever order they take turns. -/
def Reaches {ι : Type} [DecidableEq ι] (platform : Platform η) (store : ConfigStore η)
    (calls : ι → Call) (s : Calls η ι) : Prop :=
  Relation.ReflTransGen (Prog.System.Step (RwLock.Does (Compiles platform store.assetRoot)))
    (.start (fun i => (calls i).run) store.active) s

/-! ### The calls keep to the lock -/

open Prog RwLock

theorem disciplined (call : Call) : Disciplined (call.run (η := η)) := by
  cases call with
  | reload text =>
      refine .outside _ (fun answer => ?_) fun answer => ?_
      · cases answer with
        | error e => rfl
        | ok candidate => rfl
      · cases answer with
        | error e => exact .done _
        | ok candidate =>
            refine .write rfl rfl fun poisoned => ?_
            cases poisoned with
            | true => exact .done _
            | false => exact .assign candidate rfl (.unwrite rfl (.done _))
  | snapshot =>
      refine .read rfl rfl fun poisoned => ?_
      cases poisoned with
      | true => exact .done _
      | false => exact .copy (fun _ => rfl) fun _ => .unread rfl (.done _)

theorem phase_run (call : Call) : phase (call.run (η := η)) = .apart := by
  cases call <;> rfl

/-! ### What a call does -/

variable {events : List (Event (Act η) Ans)} {left : StoreM η (Returned η)}
    {result : Returned η} {text : Str}

/-- How far a reload has come. -/
inductive Reloading (text : Str) : List (Event (Act η) Ans) → StoreM η (Returned η) → Prop where
  | compiling : Reloading text [] (reload text)
  | refused (e : ConfigError) :
      Reloading text [⟨.outside ⟨text⟩, .error e⟩] (.done (.reloaded (.error e)))
  | locking (candidate : CompiledConfig η) {next : Bool → StoreM η (Returned η)} :
      Reloading text [⟨.outside ⟨text⟩, .ok candidate⟩] (.act .write next)
  | poisoned (candidate : CompiledConfig η) :
      Reloading text [⟨.outside ⟨text⟩, .ok candidate⟩, ⟨.write, true⟩]
        (.done (.reloaded (.error lockPoisoned)))
  | assigning (candidate : CompiledConfig η) {next : Unit → StoreM η (Returned η)} :
      Reloading text [⟨.outside ⟨text⟩, .ok candidate⟩, ⟨.write, false⟩]
        (.act (.assign candidate) next)
  | releasing (candidate : CompiledConfig η) {next : Unit → StoreM η (Returned η)} :
      Reloading text [⟨.outside ⟨text⟩, .ok candidate⟩, ⟨.write, false⟩, ⟨.assign candidate, ()⟩]
        (.act .unwrite next)
  | swapped (candidate : CompiledConfig η) :
      Reloading text [⟨.outside ⟨text⟩, .ok candidate⟩, ⟨.write, false⟩,
        ⟨.assign candidate, ()⟩, ⟨.unwrite, ()⟩]
        (.done (.reloaded (.ok ())))

theorem reloading_of_path (path : Path (reload text) events left) : Reloading text events left := by
  rcases path.perform_cases with ⟨rfl, rfl⟩ | ⟨compiled, rest, rfl, onward⟩
  · exact .compiling
  cases compiled with
  | error e =>
      obtain ⟨rfl, rfl⟩ := onward.done_cases
      exact .refused e
  | ok candidate =>
      rcases onward.perform_cases with ⟨rfl, rfl⟩ | ⟨poisoned, rest, rfl, locked⟩
      · exact .locking candidate
      cases poisoned with
      | true =>
          obtain ⟨rfl, rfl⟩ := locked.done_cases
          exact .poisoned candidate
      | false =>
          rcases locked.perform_cases with ⟨rfl, rfl⟩ | ⟨_, rest, rfl, assigned⟩
          · exact .assigning candidate
          rcases assigned.perform_cases with ⟨rfl, rfl⟩ | ⟨_, rest, rfl, released⟩
          · exact .releasing candidate
          obtain ⟨rfl, rfl⟩ := released.done_cases
          exact .swapped candidate

/-- How far a snapshot has come. -/
inductive Taking : List (Event (Act η) Ans) → StoreM η (Returned η) → Prop where
  | locking : Taking [] snapshot
  | poisoned : Taking [⟨.read, true⟩] (.done (.taken (.error lockPoisoned)))
  | copying {next : CompiledConfig η → StoreM η (Returned η)} :
      Taking [⟨.read, false⟩] (.act .copy next)
  | releasing (active : CompiledConfig η) {next : Unit → StoreM η (Returned η)} :
      Taking [⟨.read, false⟩, ⟨.copy, active⟩] (.act .unread next)
  | taken (active : CompiledConfig η) :
      Taking [⟨.read, false⟩, ⟨.copy, active⟩, ⟨.unread, ()⟩] (.done (.taken (.ok active)))

theorem taking_of_path (path : Path snapshot events left) : Taking events left := by
  rcases path.perform_cases with ⟨rfl, rfl⟩ | ⟨poisoned, rest, rfl, locked⟩
  · exact .locking
  cases poisoned with
  | true =>
      obtain ⟨rfl, rfl⟩ := locked.done_cases
      exact .poisoned
  | false =>
      rcases locked.perform_cases with ⟨rfl, rfl⟩ | ⟨active, rest, rfl, copied⟩
      · exact .copying
      rcases copied.perform_cases with ⟨rfl, rfl⟩ | ⟨_, rest, rfl, released⟩
      · exact .releasing active
      obtain ⟨rfl, rfl⟩ := released.done_cases
      exact .taken active

/-- What a call assigns, it has compiled. -/
theorem compiled_of_assigned {call : Call} {config : CompiledConfig η}
    (path : Path call.run events left)
    (assigned : ⟨.assign config, ()⟩ ∈ events) : ∃ text, call = .reload text ∧
      ⟨.outside ⟨text⟩, .ok config⟩ ∈ events := by
  cases call with
  | reload text =>
      refine ⟨text, rfl, ?_⟩
      cases reloading_of_path path with
      | compiling | refused | locking | poisoned | assigning => simp at assigned
      | releasing candidate | swapped candidate =>
          obtain rfl : config = candidate := by simpa using assigned
          simp
  | snapshot =>
      cases taking_of_path path with
      | locking | poisoned | copying | releasing | taken => simp at assigned

/-! ### All calls -/

variable {ι : Type} [DecidableEq ι] {platform : Platform η} {store : ConfigStore η}
    {calls : ι → Call} {s : Calls η ι}

theorem newAt_eq_ok {root : Str} (created : newAt platform text root = .ok store) :
    ∃ compiled, parseConfigAt platform text root = .ok compiled ∧
      store = ⟨{ value := compiled }, root⟩ := by
  obtain ⟨compiled, parsed, made⟩ := bind_eq_ok_iff.mp created
  cases made
  exact ⟨compiled, parsed, rfl⟩

/-- What a call assigns is what its text was compiled to, with the files of the time. -/
theorem parsed_of_assigned (reaches : Reaches platform store calls s) {i : ι}
    {config : CompiledConfig η}
    (assigned : ⟨.assign config, ()⟩ ∈ s.history i) :
    ∃ files text, calls i = .reload text ∧
      parseConfigAt (platform.withFiles files) text store.assetRoot = .ok config := by
  obtain ⟨text, call, compiled⟩ :=
    compiled_of_assigned (System.path_of_reachable reaches i) assigned
  obtain ⟨before, after, split⟩ := List.append_of_mem (System.mem_history.mp compiled)
  obtain ⟨earlier, -, -, lock, ⟨files, parsed⟩, -⟩ := System.made_of_reachable reaches split
  exact ⟨files, text, call, parsed.symm⟩

/-- Nobody makes more than four actions. -/
theorem history_length_le (reaches : Reaches platform store calls s) (i : ι) :
    (s.history i).length ≤ 4 := by
  have path := System.path_of_reachable reaches i
  generalize s.history i = events at path
  generalize s.threads i = left at path
  cases call : calls i with
  | reload text =>
      rw [call] at path
      cases reloading_of_path path <;> simp
  | snapshot =>
      rw [call] at path
      cases taking_of_path path <;> simp

/-- An entry that is not in the first part is in the second one. -/
theorem isPrefix_of_append {α : Type} {before after first rest : List α} {x : α}
    (split : before ++ after = first ++ x :: rest)
    (absent : x ∉ before) : before <+: first := by
  rcases List.append_eq_append_iff.mp split with ⟨more, rfl, -⟩ | ⟨more, rfl, tail⟩
  · exact List.prefix_append _ _
  · cases more with
    | nil => simp
    | cons y more =>
        cases tail
        simp at absent

theorem reloaded_cases (reaches : Reaches platform store calls s)
    (clean : ∀ i, ⟨.write, true⟩ ∉ s.history i) {i : ι}
    {result : Except ConfigError Unit} (place : s.threads i = .done (.reloaded result)) :
    ∃ text, calls i = .reload text ∧
      ((∃ e, result = .error e ∧ ⟨.outside ⟨text⟩, .error e⟩ ∈ s.history i ∧
          ∀ config, ⟨.assign config, ()⟩ ∉ s.history i) ∨
        ∃ config, result = .ok () ∧ ⟨.outside ⟨text⟩, .ok config⟩ ∈ s.history i ∧
          ⟨.assign config, ()⟩ ∈ s.history i) := by
  have path := System.path_of_reachable reaches i
  have clean := clean i
  rw [place] at path
  generalize s.history i = events at path clean
  generalize ended : Prog.done (Returned.reloaded result) = left at path
  cases call : calls i with
  | snapshot =>
      rw [call] at path
      cases taking_of_path path <;> cases ended
  | reload text =>
      rw [call] at path
      refine ⟨text, rfl, ?_⟩
      cases reloading_of_path path with
      | compiling | locking | assigning | releasing => cases ended
      | refused e =>
          cases ended
          exact .inl ⟨e, rfl, by simp, by simp⟩
      | poisoned => simp at clean
      | swapped candidate =>
          cases ended
          exact .inr ⟨candidate, rfl, by simp, by simp⟩

theorem taken_copied (reaches : Reaches platform store calls s)
    (clean : ∀ i, ⟨.read, true⟩ ∉ s.history i) {j : ι}
    {result : Except ConfigError (CompiledConfig η)} (place : s.threads j = .done (.taken result)) :
    ∃ config, result = .ok config ∧ ⟨.copy, config⟩ ∈ s.history j := by
  have path := System.path_of_reachable reaches j
  have clean := clean j
  rw [place] at path
  generalize s.history j = events at path clean
  generalize ended : Prog.done (Returned.taken result) = left at path
  cases call : calls j with
  | reload text =>
      rw [call] at path
      cases reloading_of_path path <;> cases ended
  | snapshot =>
      rw [call] at path
      cases taking_of_path path with
      | locking | copying | releasing => cases ended
      | poisoned => simp at clean
      | taken active =>
          cases ended
          exact ⟨active, rfl, by simp⟩

/-- The latest value of a part of the log was compiled. -/
theorem parsed_latest {compiled : CompiledConfig η} {root : Str}
    (parsed : parseConfigAt platform text root = .ok compiled)
    (reaches : Reaches platform ⟨{ value := compiled }, root⟩ calls s)
    {before after : List (ι × Event (Act η) Ans)}
    (split : s.log = before ++ after) : ∃ files text,
      parseConfigAt (platform.withFiles files) text root = .ok (latest compiled before) := by
  rcases latest_cases compiled before with ⟨-, same⟩ | ⟨earlier, i, later, swapped, -⟩
  · rw [same]
    exact ⟨⟨platform.metadataLen, platform.readToString⟩, text, parsed⟩
  · have there : (i, ⟨.assign (latest compiled before), ()⟩) ∈ earlier ++
        (i, ⟨.assign (latest compiled before), ()⟩) :: later := by
      simp
    rw [← swapped] at there
    have logged := System.mem_history.mpr (split ▸ List.mem_append_left after there)
    obtain ⟨files, text, -, candidate⟩ := parsed_of_assigned reaches logged
    exact ⟨files, text, candidate⟩

/-- In every order of the turns of reloads and snapshots, with files that change in between: a
snapshot returns what was active when it copied, the candidate that was swapped in last before; a
reload fails with the error of its compilation and leaves the active configuration, or swaps in its
candidate; a snapshot that begins after a swap returns that candidate or one swapped in later;
whatever is active at any moment was compiled from a text and files; a swap is alone with the lock;
and the calls end, as some call can go on while one is left and each makes at most four actions. -/
theorem store_keeps_last_good (platform : Platform η) {text root : Str} {store : ConfigStore η}
    (created : newAt platform text root = .ok store) (calls : ι → Call) {s : Calls η ι}
    (reaches : Reaches platform store calls s) :
    (∀ j result, s.threads j = .done (.taken result) → ∃ before config after,
      s.log = before ++ (j, ⟨.copy, config⟩) :: after ∧ result = .ok config ∧
      config = latest store.active.value before) ∧
    (∀ i result, s.threads i = .done (.reloaded result) → ∃ text, calls i = .reload text ∧
      ((∃ e, result = .error e ∧ ⟨.outside ⟨text⟩, .error e⟩ ∈ s.history i ∧
          ∀ config, ⟨.assign config, ()⟩ ∉ s.history i) ∨
        ∃ config, result = .ok () ∧ ⟨.outside ⟨text⟩, .ok config⟩ ∈ s.history i ∧
          ⟨.assign config, ()⟩ ∈ s.history i)) ∧
    (∀ i j candidate config before after, s.log = before ++ after →
      (i, ⟨.assign candidate, ()⟩) ∈ before →
      (∀ entry ∈ before, entry.1 ≠ j) → s.threads j = .done (.taken (.ok config)) →
      ∃ earlier k later, s.log = earlier ++ (k, ⟨.assign config, ()⟩) :: later ∧
        (i, ⟨.assign candidate, ()⟩) ∈ earlier ++ [(k, ⟨.assign config, ()⟩)] ∧
        (j, ⟨.copy, config⟩) ∈ later) ∧
    (∀ before after, s.log = before ++ after → ∃ files text,
      parseConfigAt (platform.withFiles files) text root = .ok (latest store.active.value before)) ∧
    s.shared.value = latest store.active.value s.log ∧
    (∀ i j, phase (s.threads i) = .writing → phase (s.threads j) ≠ .apart → j = i) ∧
    (∀ i, (s.threads i).pending.isSome = true →
      ∃ s', System.Step (Does (Compiles platform store.assetRoot)) s s') ∧
    ∀ i, (s.history i).length ≤ 4 := by
  obtain ⟨compiled, parsed, rfl⟩ := newAt_eq_ok created
  have clean : ∀ i, ⟨.write, true⟩ ∉ s.history i :=
    fun i logged => by simpa using write_clean reaches logged
  have clean' : ∀ i, ⟨.read, true⟩ ∉ s.history i :=
    fun i logged => by simpa using read_clean reaches logged
  have held : Held s.threads s.shared :=
    held_of_reachable (fun i => disciplined (calls i)) (fun i => phase_run (calls i)) reaches
  refine ⟨fun j result place => ?_, fun i result place =>
    reloaded_cases reaches clean place, ?_, ?_,
    value_of_reachable reaches, fun i j => held.exclusive, fun i => held.goes_on ?_,
      history_length_le reaches⟩
  · obtain ⟨config, returned, copied⟩ := taken_copied reaches clean' place
    obtain ⟨before, after, split⟩ := List.append_of_mem (System.mem_history.mp copied)
    exact ⟨before, config, after, split, returned, copied_of_reachable reaches split⟩
  · intro i j candidate config before after split swapped absent place
    obtain ⟨config, same, copied⟩ := taken_copied reaches clean' place
    cases same
    obtain ⟨first, rest, copy⟩ := List.append_of_mem (System.mem_history.mp copied)
    obtain ⟨more, rfl⟩ := isPrefix_of_append (split.symm.trans copy) fun member =>
      absent _ member rfl
    obtain rfl := copied_of_reachable reaches copy
    have there : (i, ⟨.assign candidate, ()⟩) ∈ before ++ more := List.mem_append_left more swapped
    rcases latest_cases compiled (before ++ more) with ⟨keeps, -⟩ | ⟨earlier, k, later, last, keeps⟩
    · exact (keeps _ there).elim
    · refine ⟨earlier, k, later ++ (j, ⟨.copy, latest compiled (before ++ more)⟩) ::
        rest, ?_, ?_, by simp⟩
      · rw [copy]
        nth_rewrite 1 [last]
        simp
      · rw [last] at there
        rcases List.mem_append.mp there with early | late
        · exact List.mem_append_left _ early
        · rcases List.mem_cons.mp late with this' | late
          · rw [this']
            simp
          · exact (keeps _ late).elim
  · intro before after split
    exact parsed_latest parsed reaches split
  · intro action
    exact ⟨_, ⟨platform.metadataLen, platform.readToString⟩, rfl⟩

/-- A platform without files. -/
def samplePlatform : Platform Str where
  serverName name := .ok name
  sha224 _ := Vector.replicate 28 0
  metadataLen _ := .error ⟨.notFound, "No such file or directory"⟩
  readToString _ := .error ⟨.notFound, "No such file or directory"⟩

def sampleText : Str := "version 1\ndefault direct\nlisten socks5 127.0.0.1:1080\n".toList

def reloadedText : Str :=
  "version 1\ndefault direct\nlisten socks5 127.0.0.1:1080\nlisten http 127.0.0.1:8080\n".toList

/-- A reload of another text is over when a snapshot begins: the snapshot has the configuration of
that text. -/
theorem store_keeps_last_good_example :
    ∃ store compiled s, newAt samplePlatform sampleText ['/'] = .ok store ∧
    parseConfigAt samplePlatform reloadedText ['/'] = .ok compiled ∧
    Reaches samplePlatform store (fun second : Bool => if second then .snapshot
      else .reload reloadedText) s ∧
    ∃ earlier k later, s.log = earlier ++ (k, ⟨.assign compiled, ()⟩) :: later ∧
      (true, ⟨.copy, compiled⟩) ∈ later := by
  have first :
    (parseConfigAt samplePlatform sampleText ['/']).toOption.map
      (fun compiled => compiled.listeners.length) =
      some 1 := by decide +kernel
  have second :
    (parseConfigAt samplePlatform reloadedText ['/']).toOption.map
      (fun compiled => compiled.listeners.length) =
      some 2 := by decide +kernel
  obtain ⟨active, accepted, -⟩ := exists_ok_of_map first
  obtain ⟨compiled, parsed, -⟩ := exists_ok_of_map second
  have created : newAt samplePlatform sampleText ['/'] = .ok ⟨{ value := active }, ['/']⟩ :=
    bind_eq_ok_iff.mpr ⟨active, accepted, rfl⟩
  let calls : Bool → Call := fun second => if second then .snapshot else .reload reloadedText
  have start : Reaches samplePlatform ⟨{ value := active }, ['/']⟩ calls (.start _ _) := .refl
  have compiles : Compiles samplePlatform ['/'] ⟨reloadedText⟩ (.ok compiled) :=
    ⟨⟨samplePlatform.metadataLen, samplePlatform.readToString⟩, parsed.symm⟩
  have compiling := start.tail (.turn false (.ok compiled) rfl ⟨compiles, rfl⟩)
  have locked := compiling.tail (.turn false false rfl ⟨rfl, rfl, rfl, rfl⟩)
  have swapped := locked.tail (.turn false () rfl rfl)
  have released := swapped.tail (.turn false () rfl rfl)
  have reading := released.tail (.turn true false rfl ⟨rfl, rfl, rfl⟩)
  have copied := reading.tail (.turn true compiled rfl ⟨rfl, rfl⟩)
  have taken := copied.tail (.turn true () rfl rfl)
  obtain ⟨-, -, recent, -⟩ := store_keeps_last_good samplePlatform created calls taken
  obtain ⟨earlier, k, later, log, -, copy⟩ := recent false true compiled compiled
    [(false, ⟨.outside ⟨reloadedText⟩, .ok compiled⟩), (false, ⟨.write, false⟩),
      (false, ⟨.assign compiled, ()⟩), (false, ⟨.unwrite, ()⟩)]
    _ rfl (by simp) (by simp) rfl
  exact ⟨_, compiled, _, created, parsed, taken, earlier, k, later, log, copy⟩

end ConfigStore

end Commeatus.Daemon
