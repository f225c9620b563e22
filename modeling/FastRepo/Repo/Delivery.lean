/-
What reaches a repo, and what a read-only repo can do.

The face hands a command to a handle only through a filter the repo has set, and an Interest to the
read handle only under a prefix it listens for; `Delivered` says so of an event. `main` sets no
command filter for a read-only repo.

* `oneHandler_run_iff`: when each Interest is handed to one command handler at most.
* `answers_run`: a packet that a repo sends is the reply to a command under one of its command
  prefixes, or answers an Interest under a prefix it listens for. The packets the CNL library
  publishes for status requests, which are no events of the model, are not among those counted.
* `readOnly_run`: a read-only repo changes nothing, and its answers do not depend on their order.
-/

import FastRepo.Repo.Restarts
import FastRepo.Repo.SentPackets
import FastRepo.Repo.StatusIsolation

namespace FastRepo

open BaseHandle Exits FastRepoImpl PatternHandle PrefixCover SentPackets StatusIsolation

namespace Delivery

variable (platform : Platform)

/-! ### Delivered events -/

/-- The filter for a command is set, and lets the Interest through. -/
def Filtered (repo : FastRepoImpl) (cmdPrefix : Name) (command : Command) (interest : Interest) :
    Prop :=
  (cmdPrefix, command) ∈ repo.face.commandFilters ∧ cmdPrefix <+: interest.name

/-- The face delivers the event. -/
def Delivered (repo : FastRepoImpl) : Event → Prop
  | .insertCommand cmdPrefix interest _ => Filtered repo cmdPrefix .insert interest
  | .patternCommand cmdPrefix interest => Filtered repo cmdPrefix .pattern interest
  | .cancelCommand cmdPrefix interest => Filtered repo cmdPrefix .cancel interest
  | .readInterest interest =>
    ∃ dataPrefix ∈ repo.face.dataListeners, dataPrefix <+: interest.name
  | _ => True

/-- All the events of a run are delivered. -/
def AllDelivered (start : FastRepoImpl) (occurrences : List Occurrence) : Prop :=
  ∀ repo occurrence, Runs.Takes (step platform) start occurrences repo occurrence →
    Delivered repo occurrence.event

/-- The filters that are set under a command prefix. -/
def filtersUnder (cmdPrefix : Name) : List (Name × Command) :=
  [(cmdPrefix ++ [.generic (ascii "insert")], .insert),
    (cmdPrefix ++ [.generic (ascii "pattern")], .pattern),
    (cmdPrefix ++ [.generic (ascii "cancel")], .cancel)]

/-! ### The filters of a run -/

section Filters

variable {platform}

theorem ignoresInserts_filters :
    IgnoresInserts platform fun repo => repo.face.commandFilters where
  send _ _ := rfl
  updateResponse _ _ _ := rfl
  eraseProcess _ _ := rfl
  addInsertInterest _ _ := rfl
  announced := part_announced (fun repo => repo.face.commandFilters) fun _ _ _ _ => rfl
  written _ _ _ _ := rfl

theorem ignoresPatterns_filters :
    IgnoresPatterns platform fun repo => repo.face.commandFilters where
  send _ _ := rfl
  written _ _ _ _ := rfl
  recorded _ _ _ _ := rfl
  setInstance _ _ _ := rfl
  erasePattern _ _ := rfl
  addTimer _ _ := rfl
  addPatternInterest _ _ := rfl
  announced := part_announced (fun repo => repo.face.commandFilters) fun _ _ _ _ => rfl
  addInstance _ _ := rfl
  addPattern _ _ _ := rfl

theorem commandFilters_after (repo : FastRepoImpl) (occurrence : Occurrence) :
    (repo.after platform occurrence).face.commandFilters = repo.face.commandFilters := by
  cases insert : occurrence.event.isInsert with
  | true => exact after_of_insert ignoresInserts_filters repo insert
  | false =>
    refine after_of_not_insert ignoresPatterns_filters (fun repo event => ?_) repo insert
    cases event <;> rfl

theorem commandFilters_foldl (repo : FastRepoImpl) (cmdPrefixes : List Name) :
    (cmdPrefixes.foldl listenUnder repo).face.commandFilters =
      repo.face.commandFilters ++ cmdPrefixes.flatMap filtersUnder := by
  induction cmdPrefixes generalizing repo with
  | nil => exact (List.append_nil _).symm
  | cons cmdPrefix cmdPrefixes ih =>
    rw [List.foldl_cons, ih, List.flatMap_cons, ← List.append_assoc]
    rfl

/-- The filters of a repo are those of the command prefixes it listens under, at any time. -/
theorem commandFilters_run {config : Config} {db : Db} {occurrences : List Occurrence}
    {repo : FastRepoImpl}
    (reached : (started platform config db).run platform occurrences = some repo) :
    repo.face.commandFilters = (listened config).flatMap filtersUnder := by
  refine run_invariant platform
    (I := fun repo => repo.face.commandFilters = (listened config).flatMap filtersUnder) ?_
    (fun repo occurrence same => (commandFilters_after repo occurrence).trans same) reached
  have scan : ∀ repo, (initializeStorage platform repo).face.commandFilters =
      repo.face.commandFilters := fun _ => rfl
  unfold FastRepoImpl.started listened
  rw [scan]
  split
  · rfl
  · exact commandFilters_foldl (constructed config db) config.repoPrefixes

/-- The filters under a command prefix are for the three verbs. -/
theorem exists_filter_iff (cmdPrefix filterPrefix : Name) :
    (∃ command, (filterPrefix, command) ∈ filtersUnder cmdPrefix) ↔
      ∃ verb ∈ ["insert", "pattern", "cancel"],
        filterPrefix = cmdPrefix ++ [.generic (ascii verb)] := by
  simp [filtersUnder, exists_or]

/-- A filter is for a command prefix the repo listens under and one of the three verbs. -/
theorem verb_of_filter {config : Config} {filterPrefix : Name} {command : Command}
    (set : (filterPrefix, command) ∈ (listened config).flatMap filtersUnder) :
    ∃ cmdPrefix ∈ listened config, ∃ verb ∈ ["insert", "pattern", "cancel"],
      filterPrefix = cmdPrefix ++ [.generic (ascii verb)] := by
  obtain ⟨cmdPrefix, member, among⟩ := List.mem_flatMap.mp set
  exact ⟨cmdPrefix, member, (exists_filter_iff cmdPrefix filterPrefix).mp ⟨command, among⟩⟩

/-- Two command prefixes have no Interest for a filter of each. -/
def Separate (first second : Name) : Prop :=
  first ≠ second ∧ ∀ verb ∈ ["insert", "pattern", "cancel"],
    ¬first ++ [.generic (ascii verb)] <+: second ∧ ¬second ++ [.generic (ascii verb)] <+: first

instance (first second : Name) : Decidable (Separate first second) :=
  inferInstanceAs (Decidable (_ ∧ _))

/-- The handlers that a face hands an Interest to as a command: one for each filter it matches. -/
def handlersOf (repo : FastRepoImpl) (interest : Interest) : List Command :=
  (repo.face.commandFilters.filter fun filter => filter.1.isPrefixOf interest.name).map Prod.snd

theorem incomparable_concat_iff (first second : Name) (one other : Component) :
    Incomparable (first ++ [one]) (second ++ [other]) ↔
      ¬(first = second ∧ one = other) ∧ ¬first ++ [one] <+: second ∧
        ¬second ++ [other] <+: first := by
  unfold Incomparable
  rw [List.prefix_concat_iff, List.prefix_concat_iff, List.append_singleton_inj,
    List.append_singleton_inj]
  constructor
  · rintro ⟨forth, back⟩
    exact ⟨fun same => forth (Or.inl same), fun below => forth (Or.inr below),
      fun above => back (Or.inr above)⟩
  · rintro ⟨apart, below, above⟩
    exact ⟨fun either => either.elim apart below,
      fun either => either.elim (fun same => apart ⟨same.1.symm, same.2.symm⟩) above⟩

/-- The filters under one prefix are apart. -/
theorem pairwise_filtersUnder (cmdPrefix : Name) :
    (filtersUnder cmdPrefix).Pairwise fun one other => Incomparable one.1 other.1 := by
  have short : ∀ component : Component, ¬cmdPrefix ++ [component] <+: cmdPrefix := by
    intro component within
    have bound := within.length_le
    rw [List.length_append, List.length_singleton] at bound
    omega
  simp only [filtersUnder, List.pairwise_cons, List.mem_cons, List.not_mem_nil, or_false,
    forall_eq_or_imp, forall_eq, incomparable_concat_iff, short, not_false_eq_true, and_true,
    true_and, IsEmpty.forall_iff, implies_true, List.Pairwise.nil]
  decide

/-- The filters under two prefixes are apart when the prefixes are separate. -/
theorem separate_iff (first second : Name) :
    (∀ one ∈ filtersUnder first, ∀ other ∈ filtersUnder second, Incomparable one.1 other.1) ↔
      Separate first second := by
  constructor
  · intro apart
    have pair : ∀ verb ∈ ["insert", "pattern", "cancel"], ∀ other ∈ ["insert", "pattern", "cancel"],
        Incomparable (first ++ [.generic (ascii verb)]) (second ++ [.generic (ascii other)]) := by
      intro verb known other knownOther
      obtain ⟨command, mine⟩ := (exists_filter_iff first _).mpr ⟨verb, known, rfl⟩
      obtain ⟨command', others⟩ := (exists_filter_iff second _).mpr ⟨other, knownOther, rfl⟩
      exact apart _ mine _ others
    simp only [incomparable_concat_iff] at pair
    refine ⟨fun same => ?_, fun verb known => ⟨(pair verb known verb known).2.1,
      (pair verb known verb known).2.2⟩⟩
    exact (pair "insert" (by simp) "insert" (by simp)).1 ⟨same, rfl⟩
  · rintro ⟨different, apart⟩ ⟨one, command⟩ mine ⟨other, command'⟩ others
    obtain ⟨verb, known, rfl⟩ := (exists_filter_iff first one).mp ⟨command, mine⟩
    obtain ⟨verb', known', rfl⟩ := (exists_filter_iff second other).mp ⟨command', others⟩
    exact (incomparable_concat_iff ..).mpr
      ⟨fun same => different same.1, (apart verb known).1, (apart verb' known').2⟩

theorem handlersOf_length (repo : FastRepoImpl) (interest : Interest) :
    (handlersOf repo interest).length =
      (matching (repo.face.commandFilters.map Prod.fst) interest.name).length := by
  unfold handlersOf matching
  rw [List.length_map, List.filter_map, List.length_map]
  rfl

/-- One handler: **in a reachable state each Interest is handed to one command handler at most exactly
when the command prefixes that are listened under are separate**: no one is listed twice or goes on
from another with a verb. -/
theorem oneHandler_run_iff {config : Config} {db : Db} {occurrences : List Occurrence}
    {repo : FastRepoImpl}
    (reached : (started platform config db).run platform occurrences = some repo) :
    (∀ interest : Interest, (handlersOf repo interest).length ≤ 1) ↔
      (listened config).Pairwise Separate := by
  have filters := commandFilters_run reached
  have names : (∀ interest : Interest, (handlersOf repo interest).length ≤ 1) ↔
      ∀ name, (matching (repo.face.commandFilters.map Prod.fst) name).length ≤ 1 :=
    ⟨fun one name => handlersOf_length repo { name := name } ▸ one { name := name },
      fun one interest => (handlersOf_length repo interest).le.trans (one interest.name)⟩
  rw [names, matching_le_one_iff, filters, List.pairwise_map, List.pairwise_flatMap]
  simp only [separate_iff]
  exact and_iff_right fun cmdPrefix _ => pairwise_filtersUnder cmdPrefix

/-- Under `/r` and `/r/insert` some Interest is handled as a command twice. -/
theorem twoHandlers_nested :
    ¬∀ interest : Interest, (handlersOf (FastRepoImpl.started (tlvPlatform false false)
      { repoPrefixes := [nameOf ["r"], nameOf ["r", "insert"]] } ∅) interest).length ≤ 1 := by
  intro one
  have reached : (FastRepoImpl.started (tlvPlatform false false)
      { repoPrefixes := [nameOf ["r"], nameOf ["r", "insert"]] } ∅).run (tlvPlatform false false) [] =
    some _ := rfl
  have separate := (oneHandler_run_iff reached).mp one
  revert separate
  decide

end Filters

/-! ### What is answered -/

section Answers

variable {platform} {config : Config} {db : Db} {occurrences : List Occurrence}
  {last : FastRepoImpl}

/-- A command that is delivered is under a filter. -/
theorem filtered_of_command {repo : FastRepoImpl} {event : Event} {interest : Interest}
    (delivered : Delivered repo event) (command : commandOf event = some interest) :
    ∃ cmdPrefix kind, Filtered repo cmdPrefix kind interest := by
  cases event with
  | insertCommand cmdPrefix other processId =>
    cases command
    exact ⟨cmdPrefix, .insert, delivered⟩
  | patternCommand cmdPrefix other =>
    cases command
    exact ⟨cmdPrefix, .pattern, delivered⟩
  | cancelCommand cmdPrefix other =>
    cases command
    exact ⟨cmdPrefix, .cancel, delivered⟩
  | _ => cases command

/-- A packet that a repo sends replies to a command that a filter let through, or was read for an
Interest under a prefix listened for. -/
theorem filtered_or_read
    (reached : (started platform config db).run platform occurrences = some last)
    (delivered : AllDelivered platform (started platform config db) occurrences) {packet : Data}
    (member : packet ∈ last.face.sent) :
    ∃ repo occurrence,
      Runs.Takes (step platform) (started platform config db) occurrences repo occurrence ∧
        ((∃ filterPrefix command, (filterPrefix, command) ∈ repo.face.commandFilters ∧
          filterPrefix <+: packet.name) ∨
        ∃ interest, occurrence.event = .readInterest interest ∧ interest.mustBeFresh = false ∧
          repo.storage.read platform.ndn interest = .ok (some packet) ∧
          ∃ dataPrefix ∈ repo.face.dataListeners, dataPrefix <+: interest.name) := by
  obtain ⟨repo, occurrence, taken, sends⟩ := sends_of_sent reached member
  have reaches := delivered repo occurrence taken
  refine ⟨repo, occurrence, taken, ?_⟩
  generalize same : occurrence.event = event at sends reaches
  cases sends with
  | read stale found => exact Or.inr ⟨_, rfl, stale, found, reaches⟩
  | reply command tells =>
    obtain ⟨filterPrefix, kind, set, within⟩ := filtered_of_command reaches command
    exact Or.inl ⟨filterPrefix, kind, set, within⟩

/-- Answers: **every packet a repo sends is the reply to a command under a command prefix it listens
under, by the name of the command, or it was read for an Interest under a prefix it listens for**. -/
theorem answers_run
    (reached : (started platform config db).run platform occurrences = some last)
    (delivered : AllDelivered platform (started platform config db) occurrences) {packet : Data}
    (member : packet ∈ last.face.sent) :
    (∃ cmdPrefix ∈ listened config, ∃ verb ∈ ["insert", "pattern", "cancel"],
      cmdPrefix ++ [.generic (ascii verb)] <+: packet.name) ∨
    ∃ repo occurrence interest,
      Runs.Takes (step platform) (started platform config db) occurrences repo occurrence ∧
        occurrence.event = .readInterest interest ∧ interest.mustBeFresh = false ∧
        repo.storage.read platform.ndn interest = .ok (some packet) ∧
        ∃ dataPrefix ∈ repo.face.dataListeners, dataPrefix <+: interest.name := by
  obtain ⟨repo, occurrence, taken, ⟨filterPrefix, command, set, within⟩ |
    ⟨interest, event, stale, found, listens⟩⟩ := filtered_or_read reached delivered member
  · left
    obtain ⟨_, _, passed⟩ := taken
    rw [commandFilters_run passed] at set
    obtain ⟨cmdPrefix, listens, verb, known, rfl⟩ := verb_of_filter set
    exact ⟨cmdPrefix, listens, verb, known, within⟩
  · exact Or.inr ⟨repo, occurrence, interest, taken, event, stale, found, listens⟩

end Answers

/-! ### Read-only repos -/

/-- The state without the packets that were sent. -/
def unsent (repo : FastRepoImpl) : FastRepoImpl := { repo with face.sent := [] }

section ReadOnly

variable {platform} {config : Config} {db : Db} {occurrences : List Occurrence}
  {last : FastRepoImpl}

/-- Nothing is pending, no pattern is or was there, and no command is listened for. -/
structure Idle (repo : FastRepoImpl) : Prop where
  filters : repo.face.commandFilters = []
  timers : repo.face.timers = []
  patternInterests : repo.face.patternInterests = []
  insertInterests : repo.face.insertInterests = []
  patterns : repo.patterns = ∅
  instances : repo.instances = []

theorem idle_started (readOnly : config.readOnly = true) : Idle (started platform config db) := by
  simp only [FastRepoImpl.started, if_pos readOnly]
  exact ⟨rfl, rfl, rfl, rfl, rfl, rfl⟩

theorem Idle.congr {repo other : FastRepoImpl} (idle : Idle other)
    (same : unsent repo = unsent other) : Idle repo where
  filters := (congrArg (fun repo => repo.face.commandFilters) same).trans idle.filters
  timers := (congrArg (fun repo => repo.face.timers) same).trans idle.timers
  patternInterests := (congrArg (fun repo => repo.face.patternInterests) same).trans
    idle.patternInterests
  insertInterests := (congrArg (fun repo => repo.face.insertInterests) same).trans
    idle.insertInterests
  patterns := (congrArg (fun repo => repo.patterns) same).trans idle.patterns
  instances := (congrArg (fun repo => repo.instances) same).trans idle.instances

/-- An event that is delivered to an idle repo sends at most. -/
theorem unsent_after {repo : FastRepoImpl} (idle : Idle repo) {occurrence : Occurrence}
    (enabled : repo.Enabled occurrence.event) (delivered : Delivered repo occurrence.event) :
    unsent (repo.after platform occurrence) = unsent repo := by
  have unfiltered : ∀ {cmdPrefix command interest},
      ¬Filtered repo cmdPrefix command interest := by
    rintro _ _ _ ⟨set, _⟩
    rw [idle.filters] at set
    cases set
  have noInsert : ∀ {processId}, ¬∃ interest ∈ repo.face.insertInterests,
      interest.processId = processId := by
    rintro _ ⟨_, member, _⟩
    rw [idle.insertInterests] at member
    cases member
  obtain ⟨event, outcomes⟩ := occurrence
  cases event with
  | insertCommand => exact absurd delivered unfiltered
  | patternCommand => exact absurd delivered unfiltered
  | cancelCommand => exact absurd delivered unfiltered
  | insertData => exact absurd enabled noInsert
  | insertTimeout => exact absurd enabled noInsert
  | insertNack => exact absurd enabled noInsert
  | timer timer =>
    have pending : timer ∈ repo.face.timers := enabled
    rw [idle.timers] at pending
    cases pending
  | counterData interest data =>
    have pending : interest ∈ repo.face.patternInterests := enabled.1
    rw [idle.patternInterests] at pending
    cases pending
  | counterTimeout interest =>
    have pending : interest ∈ repo.face.patternInterests := enabled
    rw [idle.patternInterests] at pending
    cases pending
  | recorderData instanceId data =>
    have recorder : (repo.instances[instanceId]?.map FetchPattern.kind) = some .ndnrtc := enabled
    rw [idle.instances] at recorder
    cases recorder
  | removePattern fetchPrefix =>
    have absent : repo.patterns[fetchPrefix]? = none := by
      rw [idle.patterns]
      exact Std.TreeMap.getElem?_emptyc
    exact congrArg unsent (final_of_ok (removePattern_absent outcomes absent))
  | readInterest interest => exact frames_answer (fun _ _ => rfl) outcomes interest repo

/-- The answer to an event does not depend on what was sent before. -/
theorem sentBy_unsent (repo : FastRepoImpl) (occurrence : Occurrence) :
    sentBy platform (unsent repo) occurrence = sentBy platform repo occurrence := by
  obtain ⟨event, outcomes⟩ := occurrence
  cases event <;> rfl

theorem unsent_run (readOnly : config.readOnly = true)
    (reached : (FastRepoImpl.started platform config db).run platform occurrences = some last)
    (delivered : AllDelivered platform (FastRepoImpl.started platform config db) occurrences) :
    unsent last = unsent (FastRepoImpl.started platform config db) ∧
      last.face.sent =
        occurrences.flatMap (sentBy platform (FastRepoImpl.started platform config db)) := by
  have start : Idle (FastRepoImpl.started platform config db) := idle_started readOnly
  refine Runs.run_history_of (I := fun occurrences repo =>
    unsent repo = unsent (FastRepoImpl.started platform config db) ∧ repo.face.sent =
      occurrences.flatMap (sentBy platform (FastRepoImpl.started platform config db)))
    ⟨rfl, ?_⟩ (fun occurrences occurrence repo next reaches before took => ?_) delivered reached
  · exact part_started platform (fun repo => repo.face.sent) (fun _ _ => rfl) (fun _ => rfl)
      config db
  · obtain ⟨enabled, rfl⟩ := (step_eq_some platform).mp took
    obtain ⟨same, sent⟩ := before
    refine ⟨(unsent_after (start.congr same) enabled reaches).trans same, ?_⟩
    rw [sent_after, sent, List.flatMap_append, List.flatMap_singleton, ← sentBy_unsent, same,
      sentBy_unsent]

/-- Read-only: **whatever is delivered to a read-only repo, nothing of it changes but the packets it
has sent; these are the answers of its first state to the events, one after the other, and each of
them is stored in the database it opened**. -/
theorem readOnly_run (readOnly : config.readOnly = true) (well : Restarts.WellStored platform db)
    (reached : (FastRepoImpl.started platform config db).run platform occurrences = some last)
    (delivered : AllDelivered platform (FastRepoImpl.started platform config db) occurrences) :
    unsent last = unsent (FastRepoImpl.started platform config db) ∧
      last.face.sent =
        occurrences.flatMap (sentBy platform (FastRepoImpl.started platform config db)) ∧
      ∀ packet ∈ last.face.sent,
        Restarts.contentsOf platform db packet.name = some packet := by
  obtain ⟨same, sent⟩ := unsent_run readOnly reached delivered
  refine ⟨same, sent, fun packet member => ?_⟩
  obtain ⟨repo, occurrence, ⟨before, within, passed⟩, filtered | ⟨interest, _, _, read, _⟩⟩ :=
    filtered_or_read reached delivered member
  · obtain ⟨filterPrefix, command, set, _⟩ := filtered
    rw [commandFilters_run passed, listened, if_pos readOnly] at set
    cases set
  · have unchanged := (unsent_run readOnly passed fun repo other taken =>
      delivered repo other (taken.mono ((List.prefix_append before _).trans within))).1
    have storage : repo.storage = (FastRepoImpl.started platform config db).storage := by
      show (unsent repo).storage = (unsent (FastRepoImpl.started platform config db)).storage
      rw [unchanged]
    rw [storage] at read
    rw [← Restarts.contents_started config db]
    exact StoreHistory.contents_of_read (Restarts.wellStored_started well config) read

/-- A read-only repo that listens for `/a`. -/
def readOnlyConfig : Config :=
  { readOnly := true, dataPrefixes := [nameOf ["a"]], repoPrefixes := [nameOf ["r"]] }

/-- A database with the packet `/a/b`. -/
def oneEntry : Db := ((StorageEngine.opened []).putAll ndnTlv [{ name := nameOf ["a", "b"] }]).pimpl.db

/-- An Interest for `/a`. -/
def readA : List Occurrence := [⟨.readInterest { name := nameOf ["a"] }, {}⟩]

theorem delivered_readA : AllDelivered (tlvPlatform false false)
    (FastRepoImpl.started (tlvPlatform false false) readOnlyConfig oneEntry) readA := by
  intro repo occurrence taken
  obtain ⟨rfl, rfl⟩ := Runs.takes_singleton.mp taken
  refine ⟨nameOf ["a"], ?_, List.prefix_rfl⟩
  rw [(started_dataPrefixes (tlvPlatform false false) readOnlyConfig oneEntry).2.2,
    (started_dataPrefixes (tlvPlatform false false) readOnlyConfig oneEntry).1]
  simp [readOnlyConfig]

/-- The Interest is under a prefix that is listened for. -/
theorem answers_readA : ∃ repo occurrence interest,
    Runs.Takes (step (tlvPlatform false false))
      (FastRepoImpl.started (tlvPlatform false false) readOnlyConfig oneEntry) readA
      repo occurrence ∧
    occurrence.event = .readInterest interest ∧
    ∃ dataPrefix ∈ repo.face.dataListeners, dataPrefix <+: interest.name := by
  have ran : ((FastRepoImpl.started (tlvPlatform false false) readOnlyConfig oneEntry).run
    (tlvPlatform false false) readA).isSome = true := by decide
  have member : ({ name := nameOf ["a", "b"] } : Data) ∈
      (Option.get _ ran).face.sent := by decide +revert
  rcases answers_run (Option.some_get ran).symm delivered_readA member with
    ⟨cmdPrefix, listens, _⟩ | ⟨repo, occurrence, interest, taken, event, _, _, within⟩
  · cases listens
  · exact ⟨repo, occurrence, interest, taken, event, within⟩

/-- The packet that is sent was in the database. -/
theorem readOnly_readA : ∃ last : FastRepoImpl,
    (FastRepoImpl.started (tlvPlatform false false) readOnlyConfig oneEntry).run
      (tlvPlatform false false) readA = some last ∧
    last.face.sent = [{ name := nameOf ["a", "b"] }] := by
  have ran : ((FastRepoImpl.started (tlvPlatform false false) readOnlyConfig oneEntry).run
    (tlvPlatform false false) readA).isSome = true := by decide
  have well : Restarts.WellStored (tlvPlatform false false) oneEntry :=
    StoreHistory.wellStored_congr rfl
      (StorageEngine.wellStored_putAll ndnTlv (StorageEngine.wellStored_opened ndnTlv []) _)
  refine ⟨_, (Option.some_get ran).symm, ?_⟩
  rw [(readOnly_run rfl well (Option.some_get ran).symm delivered_readA).2.1]
  decide

end ReadOnly

end Delivery

end FastRepo
