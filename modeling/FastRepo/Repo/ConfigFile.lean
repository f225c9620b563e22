/-
The configuration of a repo.

`parseConfig` reads a file that Boost's property tree has parsed, and `main` sets what the command
line overrides. A section is looked up by its key; the options of the `data` and `command` sections
are gone through in order.

* `parses`: which files are accepted, and the configuration they give; and the error of any other
  file is true of it, and names the first thing that is not accepted.
* `listens_run`: what a repo that `main` has configured listens for, at any time.
-/

import FastRepo.Lib.Gather
import FastRepo.Repo.Delivery
import FastRepo.Repo.Registrations

namespace FastRepo

open FastRepoImpl

namespace ConfigFile

/-! ### Property trees -/

/-- `ptree`: a value, and the children with their keys, in the order of the file. -/
inductive Ptree where
  | node (data : Bytes) (children : List (Bytes × Ptree))

namespace Ptree

def data : Ptree → Bytes
  | node data _ => data

def children : Ptree → List (Bytes × Ptree)
  | node _ children => children

/-- The node at a path. Boost does not promise which of several children under one key it finds; the
first of them is taken here. -/
def find : Ptree → List Bytes → Option Ptree
  | tree, [] => some tree
  | tree, key :: path => (tree.children.lookup key).bind fun child => child.find path

end Ptree

/-- What Boost does: `read_info` on the text of a file, and `get_value<int>` on a value. -/
structure Boost where
  readInfo : Bytes → Option Ptree
  getInt : Bytes → Option Int

/-- What ends `parseConfig`: its own errors by their texts, and those of the property tree. -/
inductive ConfigError where
  | runtimeError (what : Bytes)
  | badPath (path : List Bytes)
  | badData (data : Bytes)
deriving DecidableEq

/-- `get_child`. -/
def getChild (tree : Ptree) (path : List Bytes) : Except ConfigError Ptree :=
  match tree.find path with
  | some child => .ok child
  | none => .error (.badPath path)

/-! ### `parseConfig` -/

/-- `Config::DISABLED_SUBSET_LENGTH`. -/
def disabledSubsetLength : UInt64 := UInt64.ofInt (-1)

/-- `Config` with the members that are read outside the handles. -/
structure FullConfig extends Config where
  repoConfigPath : Bytes := []
  dbPath : Bytes := []
  registrationSubset : UInt64 := disabledSubsetLength
  validatorNode : Ptree := .node [] []

/-- The text of the error about an option of a section. -/
def unrecognized (option : Bytes) (part : String) (configPath : Bytes) : Bytes :=
  ascii "Unrecognized '" ++ option ++ ascii "' option in '" ++ ascii part ++
    ascii "' section in configuration file '" ++ configPath ++ ascii "'"

variable (uri : UriScheme) (boost : Boost)

/-- The body of the loop over the `data` section. -/
def dataOption (configPath : Bytes) (config : FullConfig) (option : Bytes × Ptree) :
    Except ConfigError FullConfig :=
  if option.1 = ascii "prefix" then
    .ok { config with dataPrefixes := config.dataPrefixes ++ [uri.ofUri option.2.data] }
  else if option.1 = ascii "registration-subset" then
    match boost.getInt option.2.data with
    | some n => .ok { config with registrationSubset := UInt64.ofInt n }
    | none => .error (.badData option.2.data)
  else .error (.runtimeError (unrecognized option.1 "data" configPath))

/-- The body of the loop over the `command` section. -/
def commandOption (configPath : Bytes) (config : FullConfig) (option : Bytes × Ptree) :
    Except ConfigError FullConfig :=
  if option.1 = ascii "prefix" then
    .ok { config with repoPrefixes := config.repoPrefixes ++ [uri.ofUri option.2.data] }
  else .error (.runtimeError (unrecognized option.1 "command" configPath))

/-- Open the file and read it. An empty path is logged and then fails to open. -/
def readFile (configPath : Bytes) (file : Option Bytes) : Except ConfigError Ptree :=
  match file with
  | none => .error (.runtimeError
      (ascii "failed to open configuration file '" ++ configPath ++ ascii "'"))
  | some text =>
    match boost.readInfo text with
    | none => .error (.runtimeError
        (ascii "failed to read configuration file '" ++ configPath ++ ascii "'"))
    | some tree => .ok tree

/-- The end of `parseConfig`: the storage and the validator. -/
def readStorage (repoConf : Ptree) (repoConfig : FullConfig) : Except ConfigError FullConfig := do
  let method ← getChild repoConf [ascii "storage", ascii "method"]
  if method.data ≠ ascii "rocksdb" then
    throw (.runtimeError (ascii "Only 'rocksdb' storage method is supported"))
  let mode ← getChild repoConf [ascii "storage", ascii "mode"]
  let path ← getChild repoConf [ascii "storage", ascii "path"]
  let validator ← getChild repoConf [ascii "validator"]
  return { repoConfig with
    readOnly := decide (mode.data = ascii "read_only")
    dbPath := path.data
    validatorNode := validator }

/-- `parseConfig`. -/
def parseConfig (configPath : Bytes) (file : Option Bytes) : Except ConfigError FullConfig := do
  let propertyTree ← readFile boost configPath file
  let repoConf ← getChild propertyTree [ascii "repo"]
  let dataConf ← getChild repoConf [ascii "data"]
  let repoConfig ← dataConf.children.foldlM (dataOption uri boost configPath)
    { repoConfigPath := configPath }
  let commandConf ← getChild repoConf [ascii "command"]
  let repoConfig ← commandConf.children.foldlM (commandOption uri configPath) repoConfig
  readStorage repoConf repoConfig

/-! ### `main` -/

/-- The arguments of the command line that the configuration depends on. -/
structure Arguments where
  config : Option Bytes := none
  commandPrefix : Option Bytes := none
  dbPath : Bytes := ascii "/var/db/fast-repo"
  readonly : Bool := false
  renamePrefix : Option Bytes := none

/-- What `main` overrides. -/
def overridden (args : Arguments) (repoConfig : FullConfig) : FullConfig :=
  let repoConfig := match args.commandPrefix with
    | some text => { repoConfig with
        repoPrefixes := repoConfig.repoPrefixes ++ [uri.ofUri text]
        dbPath := args.dbPath }
    | none => repoConfig
  let repoConfig := if args.readonly then { repoConfig with readOnly := true } else repoConfig
  match args.renamePrefix with
  | some text => { repoConfig with renamePrefix := text }
  | none => repoConfig

/-- The configuration `main` constructs the repo with. -/
def mainConfig (args : Arguments) (file : Option Bytes) : Except ConfigError FullConfig :=
  (match args.config with
    | some configPath => parseConfig uri boost configPath file
    | none => .ok {}).map (overridden uri args)

/-! ### What a file says -/

/-- The parts of a file that are read. -/
structure Sections where
  data : List (Bytes × Ptree)
  command : List (Bytes × Ptree)
  method : Bytes
  mode : Bytes
  path : Bytes
  validator : Ptree

/-- The parts of a file, if it has all of them. -/
def sectionsOf (file : Option Bytes) : Option Sections := do
  let propertyTree ← file.bind boost.readInfo
  let repo ← propertyTree.find [ascii "repo"]
  let data ← repo.find [ascii "data"]
  let command ← repo.find [ascii "command"]
  let method ← repo.find [ascii "storage", ascii "method"]
  let mode ← repo.find [ascii "storage", ascii "mode"]
  let path ← repo.find [ascii "storage", ascii "path"]
  let validator ← repo.find [ascii "validator"]
  return ⟨data.children, command.children, method.data, mode.data, path.data, validator⟩

/-- An option of the `data` section is accepted. -/
def AcceptsData (option : Bytes × Ptree) : Prop :=
  option.1 = ascii "prefix" ∨
    option.1 = ascii "registration-subset" ∧ (boost.getInt option.2.data).isSome = true

/-- An option of the `command` section is accepted. -/
def AcceptsCommand (option : Bytes × Ptree) : Prop := option.1 = ascii "prefix"

/-- The file is accepted. -/
structure Sections.Accepted (sections : Sections) : Prop where
  data : ∀ option ∈ sections.data, AcceptsData boost option
  command : ∀ option ∈ sections.command, AcceptsCommand option
  method : sections.method = ascii "rocksdb"

/-- The names the `prefix` options of a section give. -/
def prefixesOf (options : List (Bytes × Ptree)) : List Name :=
  (options.filter fun option => option.1 = ascii "prefix").map fun option =>
    uri.ofUri option.2.data

/-- The number an option gives, if it is a registration subset. -/
def subsetOf (option : Bytes × Ptree) : Option UInt64 :=
  if option.1 = ascii "registration-subset" then
    (boost.getInt option.2.data).map UInt64.ofInt
  else none

/-- The configuration the parts of a file give: the last registration subset counts, and every mode
but `read_only` is read-write. -/
def Sections.config (configPath : Bytes) (sections : Sections) : FullConfig where
  readOnly := decide (sections.mode = ascii "read_only")
  repoConfigPath := configPath
  dbPath := sections.path
  dataPrefixes := prefixesOf uri sections.data
  registrationSubset :=
    ((sections.data.filterMap (subsetOf boost)).getLast?).getD disabledSubsetLength
  repoPrefixes := prefixesOf uri sections.command
  validatorNode := sections.validator

/-! ### The loops over the options -/

section Loops

variable {uri boost} {configPath : Bytes}

/-- What an accepted option of the `data` section makes of the configuration. -/
def withDataOption (uri : UriScheme) (boost : Boost) (config : FullConfig)
    (option : Bytes × Ptree) : FullConfig :=
  { config with
    dataPrefixes := config.dataPrefixes ++ prefixesOf uri [option]
    registrationSubset := (subsetOf boost option).getD config.registrationSubset }

/-- What an accepted option of the `command` section makes of the configuration. -/
def withCommandOption (uri : UriScheme) (config : FullConfig) (option : Bytes × Ptree) :
    FullConfig :=
  { config with repoPrefixes := config.repoPrefixes ++ prefixesOf uri [option] }

theorem distinct_options : ascii "registration-subset" ≠ ascii "prefix" := by decide

theorem dataOption_eq_ok_iff (config : FullConfig) (option : Bytes × Ptree) (after : FullConfig) :
    dataOption uri boost configPath config option = .ok after ↔
      AcceptsData boost option ∧ withDataOption uri boost config option = after := by
  obtain ⟨key, tree⟩ := option
  unfold dataOption AcceptsData withDataOption prefixesOf subsetOf
  by_cases isPrefix : key = ascii "prefix"
  · subst isPrefix
    simp [distinct_options.symm]
  · by_cases isSubset : key = ascii "registration-subset"
    · subst isSubset
      cases boost.getInt tree.data <;> simp [distinct_options]
    · simp [isPrefix, isSubset]

theorem commandOption_eq_ok_iff (config : FullConfig) (option : Bytes × Ptree)
    (after : FullConfig) : commandOption uri configPath config option = .ok after ↔
      AcceptsCommand option ∧ withCommandOption uri config option = after := by
  obtain ⟨key, tree⟩ := option
  unfold commandOption AcceptsCommand withCommandOption prefixesOf
  by_cases isPrefix : key = ascii "prefix"
  · subst isPrefix
    simp
  · simp [isPrefix]

theorem prefixesOf_cons (option : Bytes × Ptree) (options : List (Bytes × Ptree)) :
    prefixesOf uri (option :: options) = prefixesOf uri [option] ++ prefixesOf uri options := by
  unfold prefixesOf
  rw [← List.map_append, ← List.filter_append]
  rfl

/-- The loop over the `data` section adds its prefixes and takes its last registration subset. -/
theorem foldl_withDataOption (options : List (Bytes × Ptree)) (config : FullConfig) :
    options.foldl (withDataOption uri boost) config =
      { config with
        dataPrefixes := config.dataPrefixes ++ prefixesOf uri options
        registrationSubset :=
          ((options.filterMap (subsetOf boost)).getLast?).getD config.registrationSubset } := by
  induction options generalizing config with
  | nil => simp [prefixesOf]
  | cons option options ih =>
    rw [List.foldl_cons, ih, prefixesOf_cons, List.filterMap_cons]
    unfold withDataOption
    cases subsetOf boost option with
    | none => simp
    | some subset => simp [List.getLast?_cons]

/-- The loop over the `command` section adds its prefixes. -/
theorem foldl_withCommandOption (options : List (Bytes × Ptree)) (config : FullConfig) :
    options.foldl (withCommandOption uri) config =
      { config with repoPrefixes := config.repoPrefixes ++ prefixesOf uri options } := by
  induction options generalizing config with
  | nil => simp [prefixesOf]
  | cons option options ih =>
    rw [List.foldl_cons, ih, prefixesOf_cons]
    simp [withCommandOption]

end Loops

/-! ### Accepted files -/

section Accepted

variable {uri boost} {configPath : Bytes} {file : Option Bytes}

theorem bind_eq_ok_iff {α β : Type} {first : Except ConfigError α}
    {next : α → Except ConfigError β} {b : β} :
    (first >>= next) = .ok b ↔ ∃ a, first = .ok a ∧ next a = .ok b := by
  cases first with
  | ok a => exact ⟨fun same => ⟨a, rfl, same⟩, fun ⟨_, same, rest⟩ => by cases same; exact rest⟩
  | error failure => exact ⟨fun same => (by cases same), fun ⟨_, same, _⟩ => by cases same⟩

theorem getChild_eq_ok_iff {tree child : Ptree} {path : List Bytes} :
    getChild tree path = .ok child ↔ tree.find path = some child := by
  unfold getChild
  cases tree.find path <;> simp

theorem readFile_eq_ok_iff {tree : Ptree} :
    readFile boost configPath file = .ok tree ↔ file.bind boost.readInfo = some tree := by
  unfold readFile
  cases file with
  | none => simp
  | some text => cases read : boost.readInfo text <;> simp [read]

theorem readStorage_eq_ok_iff {repoConf : Ptree} {repoConfig config : FullConfig} :
    readStorage repoConf repoConfig = .ok config ↔
      ∃ method mode path validator, repoConf.find [ascii "storage", ascii "method"] = some method ∧
        repoConf.find [ascii "storage", ascii "mode"] = some mode ∧
        repoConf.find [ascii "storage", ascii "path"] = some path ∧
        repoConf.find [ascii "validator"] = some validator ∧ method.data = ascii "rocksdb" ∧
        { repoConfig with
          readOnly := decide (mode.data = ascii "read_only")
          dbPath := path.data
          validatorNode := validator } = config := by
  unfold readStorage
  simp only [bind_eq_ok_iff, getChild_eq_ok_iff]
  constructor
  · rintro ⟨method, hasMethod, rest⟩
    by_cases known : method.data = ascii "rocksdb"
    · rw [if_neg (not_not_intro known)] at rest
      simp only [bind_eq_ok_iff, getChild_eq_ok_iff] at rest
      obtain ⟨mode, hasMode, path, hasPath, validator, hasValidator, same⟩ := rest
      exact ⟨method, mode, path, validator, hasMethod, hasMode, hasPath, hasValidator, known,
        Except.ok.inj same⟩
    · rw [if_pos known] at rest
      cases rest
  · rintro ⟨method, mode, path, validator, hasMethod, hasMode, hasPath, hasValidator, known, same⟩
    refine ⟨method, hasMethod, ?_⟩
    rw [if_neg (not_not_intro known)]
    simp only [bind_eq_ok_iff, getChild_eq_ok_iff]
    exact ⟨mode, hasMode, path, hasPath, validator, hasValidator, congrArg Except.ok same⟩

/-- A file is accepted exactly when it has all the sections that are read, every option of `data`
and `command` is accepted and the method is `rocksdb`; the configuration is the one its sections
give. -/
theorem parseConfig_eq_ok_iff {config : FullConfig} :
    parseConfig uri boost configPath file = .ok config ↔
      ∃ sections, sectionsOf boost file = some sections ∧ sections.Accepted boost ∧
        sections.config uri boost configPath = config := by
  unfold parseConfig sectionsOf
  simp only [bind_eq_ok_iff, getChild_eq_ok_iff, readFile_eq_ok_iff, readStorage_eq_ok_iff,
    Option.bind_eq_bind, Option.bind_eq_some_iff, Option.pure_def, Option.some.injEq,
    Gather.foldlM_eq_ok dataOption_eq_ok_iff, Gather.foldlM_eq_ok commandOption_eq_ok_iff,
    foldl_withDataOption, foldl_withCommandOption]
  constructor
  · rintro ⟨tree, hasTree, repo, hasRepo, data, hasData, _, ⟨acceptsData, rfl⟩, command, hasCommand,
      _, ⟨acceptsCommand, rfl⟩, method, mode, path, validator, hasMethod, hasMode, hasPath,
      hasValidator, known, same⟩
    refine ⟨⟨data.children, command.children, method.data, mode.data, path.data, validator⟩,
      ⟨tree, hasTree, repo, hasRepo, data, hasData, command, hasCommand, method, hasMethod, mode,
        hasMode, path, hasPath, validator, hasValidator, rfl⟩,
      ⟨acceptsData, acceptsCommand, known⟩, same⟩
  · rintro ⟨_, ⟨tree, hasTree, repo, hasRepo, data, hasData, command, hasCommand, method, hasMethod,
      mode, hasMode, path, hasPath, validator, hasValidator, rfl⟩,
      ⟨acceptsData, acceptsCommand, known⟩, same⟩
    exact ⟨tree, hasTree, repo, hasRepo, data, hasData, _, ⟨acceptsData, rfl⟩, command, hasCommand,
      _, ⟨acceptsCommand, rfl⟩, method, mode, path, validator, hasMethod, hasMode, hasPath,
      hasValidator, known, same⟩

end Accepted

/-! ### Refused files -/

section Refused

/-- The parsed file has a `repo` section. -/
def HasRepo (file : Option Bytes) (repo : Ptree) : Prop :=
  ∃ tree, file.bind boost.readInfo = some tree ∧ tree.find [ascii "repo"] = some repo

/-- The `data` section was read: it is there, and each of its options is accepted. -/
def DataRead (repo : Ptree) : Prop :=
  ∃ data, repo.find [ascii "data"] = some data ∧
    ∀ option ∈ data.children, AcceptsData boost option

/-- The `command` section was read, and the one before it. -/
def CommandRead (repo : Ptree) : Prop :=
  DataRead boost repo ∧ ∃ command, repo.find [ascii "command"] = some command ∧
    ∀ option ∈ command.children, AcceptsCommand option

/-- The storage method was read, and the sections before it. -/
def MethodRead (repo : Ptree) : Prop :=
  CommandRead boost repo ∧ ∃ method, repo.find [ascii "storage", ascii "method"] = some method ∧
    method.data = ascii "rocksdb"

/-- The error is true of the file, and it is about the first thing that is not accepted: whatever is
read before it is there and accepted. -/
inductive TrueOf (configPath : Bytes) (file : Option Bytes) : ConfigError → Prop where
  | unopened (absent : file = none) : TrueOf configPath file (.runtimeError
      (ascii "failed to open configuration file '" ++ configPath ++ ascii "'"))
  | unread {text : Bytes} (opened : file = some text) (bad : boost.readInfo text = none) :
      TrueOf configPath file (.runtimeError
        (ascii "failed to read configuration file '" ++ configPath ++ ascii "'"))
  | noRepo {tree : Ptree} (read : file.bind boost.readInfo = some tree)
      (absent : tree.find [ascii "repo"] = none) : TrueOf configPath file (.badPath [ascii "repo"])
  | noData {repo : Ptree} (found : HasRepo boost file repo)
      (absent : repo.find [ascii "data"] = none) : TrueOf configPath file (.badPath [ascii "data"])
  | badSubset {repo data : Ptree} {before rest : List (Bytes × Ptree)} {option : Bytes × Ptree}
      (found : HasRepo boost file repo) (has : repo.find [ascii "data"] = some data)
      (options : data.children = before ++ option :: rest)
      (accepted : ∀ option ∈ before, AcceptsData boost option)
      (isSubset : option.1 = ascii "registration-subset")
      (noInt : boost.getInt option.2.data = none) :
      TrueOf configPath file (.badData option.2.data)
  | dataOption {repo data : Ptree} {before rest : List (Bytes × Ptree)} {option : Bytes × Ptree}
      (found : HasRepo boost file repo) (has : repo.find [ascii "data"] = some data)
      (options : data.children = before ++ option :: rest)
      (accepted : ∀ option ∈ before, AcceptsData boost option)
      (noPrefix : option.1 ≠ ascii "prefix") (noSubset : option.1 ≠ ascii "registration-subset") :
      TrueOf configPath file (.runtimeError (unrecognized option.1 "data" configPath))
  | noCommand {repo : Ptree} (found : HasRepo boost file repo) (read : DataRead boost repo)
      (absent : repo.find [ascii "command"] = none) :
      TrueOf configPath file (.badPath [ascii "command"])
  | commandOption {repo command : Ptree} {before rest : List (Bytes × Ptree)}
      {option : Bytes × Ptree} (found : HasRepo boost file repo) (read : DataRead boost repo)
      (has : repo.find [ascii "command"] = some command)
      (options : command.children = before ++ option :: rest)
      (accepted : ∀ option ∈ before, AcceptsCommand option) (noPrefix : option.1 ≠ ascii "prefix") :
      TrueOf configPath file (.runtimeError (unrecognized option.1 "command" configPath))
  | noMethod {repo : Ptree} (found : HasRepo boost file repo) (read : CommandRead boost repo)
      (absent : repo.find [ascii "storage", ascii "method"] = none) :
      TrueOf configPath file (.badPath [ascii "storage", ascii "method"])
  | otherMethod {repo method : Ptree} (found : HasRepo boost file repo)
      (read : CommandRead boost repo)
      (has : repo.find [ascii "storage", ascii "method"] = some method)
      (other : method.data ≠ ascii "rocksdb") : TrueOf configPath file
        (.runtimeError (ascii "Only 'rocksdb' storage method is supported"))
  | noMode {repo : Ptree} (found : HasRepo boost file repo) (read : MethodRead boost repo)
      (absent : repo.find [ascii "storage", ascii "mode"] = none) :
      TrueOf configPath file (.badPath [ascii "storage", ascii "mode"])
  | noPath {repo mode : Ptree} (found : HasRepo boost file repo) (read : MethodRead boost repo)
      (hasMode : repo.find [ascii "storage", ascii "mode"] = some mode)
      (absent : repo.find [ascii "storage", ascii "path"] = none) :
      TrueOf configPath file (.badPath [ascii "storage", ascii "path"])
  | noValidator {repo mode path : Ptree} (found : HasRepo boost file repo)
      (read : MethodRead boost repo)
      (hasMode : repo.find [ascii "storage", ascii "mode"] = some mode)
      (hasPath : repo.find [ascii "storage", ascii "path"] = some path)
      (absent : repo.find [ascii "validator"] = none) :
      TrueOf configPath file (.badPath [ascii "validator"])

variable {uri boost} {configPath : Bytes} {file : Option Bytes}

theorem bind_eq_error_iff {α β : Type} {first : Except ConfigError α}
    {next : α → Except ConfigError β} {failure : ConfigError} :
    (first >>= next) = .error failure ↔
      first = .error failure ∨ ∃ a, first = .ok a ∧ next a = .error failure := by
  cases first with
  | ok a =>
    exact ⟨fun same => Or.inr ⟨a, rfl, same⟩, fun either => by
      rcases either with same | ⟨_, same, rest⟩
      · cases same
      · cases same
        exact rest⟩
  | error thrown =>
    refine ⟨fun same => Or.inl (Except.error.inj same ▸ rfl), fun either => ?_⟩
    rcases either with same | ⟨_, same, _⟩
    · cases same
      rfl
    · cases same

theorem getChild_eq_error_iff {tree : Ptree} {path : List Bytes} {failure : ConfigError} :
    getChild tree path = .error failure ↔ tree.find path = none ∧ .badPath path = failure := by
  unfold getChild
  cases tree.find path <;> simp

theorem trueOf_readFile {failure : ConfigError}
    (failed : readFile boost configPath file = .error failure) :
    TrueOf boost configPath file failure := by
  unfold readFile at failed
  split at failed
  · cases failed
    exact .unopened rfl
  · split at failed
    · rename_i bad
      cases failed
      exact .unread rfl bad
    · cases failed

/-- What the option of a `data` section that is refused is refused for. -/
theorem trueOf_dataOption {repo data : Ptree} {config : FullConfig} {failure : ConfigError}
    (found : HasRepo boost file repo) (has : repo.find [ascii "data"] = some data)
    (failed : data.children.foldlM (dataOption uri boost configPath) config = .error failure) :
    TrueOf boost configPath file failure := by
  obtain ⟨before, option, rest, options, accepted, state, refused⟩ :=
    Gather.exists_of_foldlM_error dataOption_eq_ok_iff failed
  unfold dataOption at refused
  split at refused
  · cases refused
  · rename_i noPrefix
    split at refused
    · rename_i isSubset
      split at refused
      · cases refused
      · rename_i noInt
        cases refused
        exact .badSubset found has options accepted isSubset noInt
    · rename_i noSubset
      cases refused
      exact .dataOption found has options accepted noPrefix noSubset

theorem trueOf_commandOption {repo command : Ptree} {config : FullConfig} {failure : ConfigError}
    (found : HasRepo boost file repo) (read : DataRead boost repo)
    (has : repo.find [ascii "command"] = some command)
    (failed : command.children.foldlM (commandOption uri configPath) config = .error failure) :
    TrueOf boost configPath file failure := by
  obtain ⟨before, option, rest, options, accepted, state, refused⟩ :=
    Gather.exists_of_foldlM_error commandOption_eq_ok_iff failed
  unfold commandOption at refused
  split at refused
  · cases refused
  · rename_i noPrefix
    cases refused
    exact .commandOption found read has options accepted noPrefix

theorem trueOf_readStorage {repo : Ptree} {config : FullConfig} {failure : ConfigError}
    (found : HasRepo boost file repo) (read : CommandRead boost repo)
    (failed : readStorage repo config = .error failure) :
    TrueOf boost configPath file failure := by
  unfold readStorage at failed
  simp only [bind_eq_error_iff, getChild_eq_error_iff, getChild_eq_ok_iff] at failed
  rcases failed with ⟨absent, rfl⟩ | ⟨method, has, failed⟩
  · exact .noMethod found read absent
  · by_cases known : method.data = ascii "rocksdb"
    · rw [if_neg (not_not_intro known)] at failed
      simp only [bind_eq_error_iff, getChild_eq_error_iff, getChild_eq_ok_iff] at failed
      have methodRead : MethodRead boost repo := ⟨read, method, has, known⟩
      rcases failed with ⟨absent, rfl⟩ | ⟨mode, hasMode, ⟨absent, rfl⟩ | ⟨path, hasPath,
        ⟨absent, rfl⟩ | ⟨_, _, never⟩⟩⟩
      · exact .noMode found methodRead absent
      · exact .noPath found methodRead hasMode absent
      · exact .noValidator found methodRead hasMode hasPath absent
      · cases never
    · rw [if_pos known] at failed
      cases failed
      exact .otherMethod found read has known

/-- A file is refused by an error that is true of it. -/
theorem trueOf_parseConfig {failure : ConfigError}
    (failed : parseConfig uri boost configPath file = .error failure) :
    TrueOf boost configPath file failure := by
  unfold parseConfig at failed
  simp only [bind_eq_error_iff, getChild_eq_error_iff, getChild_eq_ok_iff, readFile_eq_ok_iff]
    at failed
  rcases failed with failed | ⟨tree, read, ⟨absent, rfl⟩ | ⟨repo, has, failed⟩⟩
  · exact trueOf_readFile failed
  · exact .noRepo read absent
  · have found : HasRepo boost file repo := ⟨tree, read, has⟩
    rcases failed with ⟨absent, rfl⟩ | ⟨data, hasData, failed | ⟨_, looped, failed⟩⟩
    · exact .noData found absent
    · exact trueOf_dataOption found hasData failed
    · have dataRead : DataRead boost repo :=
        ⟨data, hasData, ((Gather.foldlM_eq_ok dataOption_eq_ok_iff).mp looped).1⟩
      rcases failed with ⟨absent, rfl⟩ | ⟨command, hasCommand, failed | ⟨_, looped, failed⟩⟩
      · exact .noCommand found dataRead absent
      · exact trueOf_commandOption found dataRead hasCommand failed
      · exact trueOf_readStorage found ⟨dataRead, command, hasCommand,
          ((Gather.foldlM_eq_ok commandOption_eq_ok_iff).mp looped).1⟩ failed

variable (uri boost configPath file) in
/-- Parsing: **a file is accepted exactly when it has all the sections that are read, every option of
`data` and `command` is accepted and the method is `rocksdb`, and then the configuration is the one
its sections give; and every error is true of the file, and names the first thing that is not
accepted**. -/
theorem parses :
    (∀ config, parseConfig uri boost configPath file = .ok config ↔
      ∃ sections, sectionsOf boost file = some sections ∧ sections.Accepted boost ∧
        sections.config uri boost configPath = config) ∧
    ∀ failure, parseConfig uri boost configPath file = .error failure →
      TrueOf boost configPath file failure :=
  ⟨fun _ => parseConfig_eq_ok_iff, fun _ failed => trueOf_parseConfig failed⟩

end Refused

/-! ### What a configured repo listens for -/

section Listens

/-- The prefixes of the `prefix` options in the `data` section of the file, if there is one. -/
def configuredData (args : Arguments) (file : Option Bytes) : List Name :=
  ((args.config.bind fun _ => sectionsOf boost file).map fun sections =>
    prefixesOf uri sections.data).getD []

/-- The command prefixes: those of the file, and the argument behind them. -/
def configuredCommands (args : Arguments) (file : Option Bytes) : List Name :=
  ((args.config.bind fun _ => sectionsOf boost file).map fun sections =>
    prefixesOf uri sections.command).getD [] ++ args.commandPrefix.toList.map uri.ofUri

/-- The repo is to be read-only: by the command line, or by the mode of the file. -/
def ConfiguredReadOnly (args : Arguments) (file : Option Bytes) : Prop :=
  args.readonly = true ∨ ∃ configPath sections, args.config = some configPath ∧
    sectionsOf boost file = some sections ∧ sections.mode = ascii "read_only"

variable {uri boost} {args : Arguments} {file : Option Bytes} {config : FullConfig}

variable (uri) in
/-- What the command line makes of a configuration. -/
theorem overridden_facts (args : Arguments) (config : FullConfig) :
    (overridden uri args config).dataPrefixes = config.dataPrefixes ∧
      (overridden uri args config).repoPrefixes =
        config.repoPrefixes ++ args.commandPrefix.toList.map uri.ofUri ∧
      ((overridden uri args config).readOnly = true ↔
        args.readonly = true ∨ config.readOnly = true) := by
  obtain ⟨path, commandPrefix, dbPath, readonly, renamePrefix⟩ := args
  unfold overridden
  cases commandPrefix <;> cases renamePrefix <;> cases readonly <;> simp

theorem mainConfig_facts (configured : mainConfig uri boost args file = .ok config) :
    config.dataPrefixes = configuredData uri boost args file ∧
      config.repoPrefixes = configuredCommands uri boost args file ∧
      (config.readOnly = true ↔ ConfiguredReadOnly boost args file) := by
  unfold mainConfig at configured
  unfold configuredData configuredCommands ConfiguredReadOnly
  cases path : args.config with
  | none =>
    rw [path] at configured
    cases configured
    obtain ⟨data, commands, readOnly⟩ := overridden_facts uri args {}
    rw [data, commands, readOnly]
    simp
  | some configPath =>
    simp only [path] at configured
    cases parsed : parseConfig uri boost configPath file with
    | error failure =>
      rw [parsed] at configured
      cases configured
    | ok base =>
      rw [parsed] at configured
      cases configured
      obtain ⟨sections, has, _, rfl⟩ := parseConfig_eq_ok_iff.mp parsed
      obtain ⟨data, commands, readOnly⟩ := overridden_facts uri args
        (sections.config uri boost configPath)
      rw [data, commands, readOnly]
      simp [has, Sections.config]

variable {platform : Platform} {db : Db} {occurrences : List Occurrence} {last : FastRepoImpl}

/-- A configured repo: **at any time it listens for no command at all if it was configured to be
read-only, and else for the three commands under each command prefix of the file and of the command
line, in this order; and for the data prefixes of the file before any other**. -/
theorem listens_run (configured : mainConfig uri boost args file = .ok config)
    (reached : (FastRepoImpl.started platform config.toConfig db).run platform occurrences =
      some last) :
    (ConfiguredReadOnly boost args file → last.face.commandFilters = []) ∧
      (¬ConfiguredReadOnly boost args file → last.face.commandFilters =
        (configuredCommands uri boost args file).flatMap Delivery.filtersUnder) ∧
      configuredData uri boost args file <+: last.face.dataListeners := by
  obtain ⟨data, commands, readOnly⟩ := mainConfig_facts configured
  have filters := Delivery.commandFilters_run reached
  unfold StatusIsolation.listened at filters
  refine ⟨fun asked => ?_, fun notAsked => ?_, ?_⟩
  · rw [filters, if_pos (readOnly.mpr asked)]
    rfl
  · rw [filters, if_neg fun is => notAsked (readOnly.mp is), commands]
  · obtain ⟨prefixes, _, same⟩ := started_dataPrefixes platform config.toConfig db
    have grown := Registrations.grows reached ⟨[], List.nil_prefix, rfl⟩
    rw [same, prefixes] at grown
    exact data ▸ (List.prefix_append _ _).trans grown

end Listens

/-! ### A configuration file -/

section Sample

/-- A node without children. -/
def value (text : String) : Ptree := .node (ascii text) []

/-- The tree of a configuration file with the given mode. -/
def sampleTree (mode : String) : Ptree :=
  .node [] [(ascii "repo", .node [] [
    (ascii "data", .node [] [(ascii "registration-subset", value "2"),
      (ascii "prefix", value "/example/data/1"), (ascii "prefix", value "/example/data/2")]),
    (ascii "command", .node [] [(ascii "prefix", value "/example/repo/1"),
      (ascii "prefix", value "/example/repo/2")]),
    (ascii "storage", .node [] [(ascii "mode", value mode), (ascii "method", value "rocksdb"),
      (ascii "path", value "/var/db/ndn-fast-repo")]),
    (ascii "validator", .node [] [(ascii "trust-anchor",
      .node [] [(ascii "type", value "any")])])])]

/-- Every file that can be opened has the given tree, and the numbers are decimal. -/
def sampleBoost (tree : Ptree) : Boost where
  readInfo _ := some tree
  getInt text := if text.all Decimal.isDigit then some (Decimal.ofDecimal text) else none

/-- The arguments that name the file. -/
def sampleArguments : Arguments := { config := some (ascii "repo.conf") }

/-- A file with an option of the older repo. -/
def olderTree : Ptree :=
  .node [] [(ascii "repo", .node [] [(ascii "data", .node [] [(ascii "prefix", value "/a"),
    (ascii "max-packets", value "3")])])]

/-- The option is named, before the missing sections are. -/
theorem parses_older : TrueOf (sampleBoost olderTree) (ascii "repo.conf") (some [])
    (.runtimeError (unrecognized (ascii "max-packets") "data" (ascii "repo.conf"))) :=
  (parses ndnTlv.uri (sampleBoost olderTree) (ascii "repo.conf") (some [])).2 _ rfl

/-- A mode that is not spelt `read_only` is read-write. -/
theorem listens_misspelt : ∃ config,
    mainConfig ndnTlv.uri (sampleBoost (sampleTree "readonly")) sampleArguments (some []) =
        .ok config ∧
      (FastRepoImpl.started (tlvPlatform false false) config.toConfig ∅).face.commandFilters =
        [nameOf ["example", "repo", "1"], nameOf ["example", "repo", "2"]].flatMap
          Delivery.filtersUnder ∧
      [nameOf ["example", "data", "1"], nameOf ["example", "data", "2"]] <+:
        (FastRepoImpl.started (tlvPlatform false false) config.toConfig ∅).face.dataListeners := by
  have accepted : (mainConfig ndnTlv.uri (sampleBoost (sampleTree "readonly")) sampleArguments
      (some [])).isOk = true := by decide
  cases configured : mainConfig ndnTlv.uri (sampleBoost (sampleTree "readonly")) sampleArguments
      (some []) with
  | error failure =>
    rw [configured] at accepted
    cases accepted
  | ok config =>
    obtain ⟨_, listens, data⟩ := @listens_run ndnTlv.uri _ _ _ _
      (tlvPlatform false false) ∅ [] _ configured rfl
    refine ⟨config, rfl, (listens ?_).trans (by decide), ?_⟩
    · rintro (asked | ⟨_, sections, _, has, mode⟩)
      · cases asked
      · cases has
        revert mode
        decide
    · have given : configuredData ndnTlv.uri (sampleBoost (sampleTree "readonly")) sampleArguments
          (some []) = [nameOf ["example", "data", "1"], nameOf ["example", "data", "2"]] := by
        decide
      exact given ▸ data

end Sample

end ConfigFile

end FastRepo
