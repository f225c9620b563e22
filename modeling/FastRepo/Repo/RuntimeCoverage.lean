/-
Coverage at run time: every key the repo writes is covered by a prefix passed to `listen`.

The insert command announces the stored name after the write, the pattern command announces the
renamed fetch prefix before any write, and the announcement reaches one slot for each command
prefix. `announces` is the name an event announces; `registers_after` says what becomes of the data
prefixes. `Covering` is the invariant: what the insert command and the counter patterns have written
is covered, and so is whatever a pending timer or Interest of a counter pattern will write. One step
keeps it (`covering_after`), so every run does (`coverage_run`). What a recorder writes is of its
own choice and need not be covered.
-/

import FastRepo.Handles.CommandTlv
import FastRepo.Repo.PatternState

namespace FastRepo

open Exits FastRepoImpl PatternHandle PatternState PrefixCover

namespace RuntimeCoverage

variable (platform : Platform)

/-! ### Announcements -/

/-- The name the packet of an insert command is announced under: the one its write returned. -/
def insertAnnounces (repo : FastRepoImpl) (outcomes : Outcomes) (processId : UInt64) (data : Data) :
    Option Name :=
  match repo.processes[processId]? with
  | none => none
  | some process =>
    if process.response.insertNum = 0 ∧ outcomes.throws .storagePut = none then
      some (repo.written platform outcomes.dbPut (.insert processId) data).2
    else none

/-- The name a pattern command announces: the rename prefix and the fetch prefix. -/
def patternAnnounces (repo : FastRepoImpl) (outcomes : Outcomes) (interest : Interest)
    (cmdPrefix : Name) : Option Name :=
  match asksFor platform interest cmdPrefix with
  | some (fetchPrefix, some kind) =>
    if repo.patterns[fetchPrefix]? = none ∧
        FetchPattern.FetchReturns platform outcomes kind fetchPrefix then
      some (platform.ndn.uri.ofUri repo.storage.pimpl.renamePrefix ++ fetchPrefix)
    else none
  | _ => none

/-- The name an event announces to the slots of an `onDataInsertion` signal. -/
def announces (repo : FastRepoImpl) (occurrence : Occurrence) : Option Name :=
  match occurrence.event with
  | .insertData processId data => insertAnnounces platform repo occurrence.outcomes processId data
  | .patternCommand cmdPrefix interest =>
    patternAnnounces platform repo occurrence.outcomes interest cmdPrefix
  | _ => none

/-- The part of the state that coverage is about. -/
def coverSide (repo : FastRepoImpl) :=
  (repo.insertionSlots, repo.storage, repo.puts, repo.config.dataPrefixes, repo.passedToListen,
    repo.face.dataListeners, repo.instances, repo.face.timers, repo.face.patternInterests)

theorem ignoresRecords_coverSide : IgnoresRecords coverSide where
  send _ _ := rfl
  updateResponse _ _ _ := rfl
  eraseProcess _ _ := rfl
  addInsertInterest _ _ := rfl

theorem coverSide_of_sendsAtMost {repo next : FastRepoImpl} (sends : SendsAtMost repo next) :
    coverSide next = coverSide repo := by
  rcases sends with rfl | ⟨packet, rfl⟩ <;> rfl

/-- An announcement sees nothing but the part coverage is about. -/
theorem coverSide_announced {first second : FastRepoImpl} (same : coverSide first = coverSide second)
    (outcomes : Outcomes) (name : Name) :
    coverSide (first.announced outcomes name) = coverSide (second.announced outcomes name) := by
  have whole := same
  simp only [coverSide, Prod.mk.injEq] at same
  obtain ⟨slots, storage, puts, prefixes, passed, listeners, instances, timers, interests⟩ := same
  unfold announced
  rw [prefixes]
  split
  · exact whole
  · simp only [coverSide, slots, storage, puts, passed, listeners, instances, timers, interests]

section InsertData

variable {repo : FastRepoImpl} {outcomes : Outcomes} {processId : UInt64} {data : Data}

/-- A callback that announces nothing writes nothing. -/
theorem coverSide_insertData_idle
    (idle : insertAnnounces platform repo outcomes processId data = none) :
    coverSide (final (WriteHandle.onDataValidated platform outcomes data processId) repo) =
      coverSide repo := by
  unfold insertAnnounces at idle
  unfold WriteHandle.onDataValidated WriteHandle.insertFetched
  rw [final_get_bind]
  cases record : repo.processes[processId]? with
  | none => rfl
  | some process =>
    simp only [record] at idle ⊢
    rw [final_bind]
    by_cases nothing : process.response.insertNum = 0
    · cases throws : outcomes.throws .storagePut with
      | none => simp [nothing, throws] at idle
      | some exn =>
        rw [if_pos nothing, bind_apply, put_apply, throws]
    · rw [if_neg nothing]
      rfl

/-- A callback that announces a name writes the packet, and then the name is announced if there is
a slot. -/
theorem coverSide_insertData_signal {name : Name}
    (named : insertAnnounces platform repo outcomes processId data = some name) :
    name = (repo.written platform outcomes.dbPut (.insert processId) data).2 ∧
      coverSide (final (WriteHandle.onDataValidated platform outcomes data processId) repo) =
        coverSide (if repo.insertionSlots = 0 then
            (repo.written platform outcomes.dbPut (.insert processId) data).1
          else (repo.written platform outcomes.dbPut (.insert processId) data).1.announced outcomes
            name) := by
  unfold insertAnnounces at named
  cases record : repo.processes[processId]? with
  | none => simp [record] at named
  | some process =>
    simp only [record] at named
    split at named
    · rename_i accepted
      obtain ⟨nothing, returns⟩ := accepted
      cases named
      refine ⟨rfl, ?_⟩
      unfold WriteHandle.onDataValidated WriteHandle.insertFetched
      rw [final_get_bind]
      simp only [record]
      refine (part_final_bind _ (fun _ => frames_modify fun repo =>
        ignoresRecords_coverSide.eraseProcess repo processId) repo).trans ?_
      rw [if_pos nothing, final_bind, put_apply, returns]
      show coverSide (final (modify _ >>= _ : Handler Unit) _) = _
      rw [final_modify_bind, final_dataInsertionSignal]
      show coverSide (if repo.insertionSlots = 0 then _ else _) = _
      split
      · exact ignoresRecords_coverSide.updateResponse _ _ _
      · exact coverSide_announced (ignoresRecords_coverSide.updateResponse _ _ _) _ _
    · cases named

/-- A callback that announces a name to a slot writes the packet, and then the name is announced. -/
theorem coverSide_insertData {name : Name} (slots : repo.insertionSlots ≠ 0)
    (named : insertAnnounces platform repo outcomes processId data = some name) :
    name = (repo.written platform outcomes.dbPut (.insert processId) data).2 ∧
      coverSide (final (WriteHandle.onDataValidated platform outcomes data processId) repo) =
        coverSide
          ((repo.written platform outcomes.dbPut (.insert processId) data).1.announced outcomes
            name) := by
  have signalled := coverSide_insertData_signal platform named
  rwa [if_neg slots] at signalled

end InsertData

section PatternCommand

variable {repo : FastRepoImpl} {outcomes : Outcomes} {interest : Interest} {cmdPrefix : Name}

/-- A pattern command that announces nothing replies at most, or leaves a new object behind that was
told to fetch and threw. -/
theorem patternCommand_idle
    (idle : patternAnnounces platform repo outcomes interest cmdPrefix = none) :
    SendsAtMost repo (final (onInterest platform outcomes interest cmdPrefix) repo) ∨
      ∃ kind, FetchPattern.FetchThrew (repo.addInstance kind)
        (final (onInterest platform outcomes interest cmdPrefix) repo) repo.instances.length := by
  by_cases accepted : ∃ fetchPrefix kind,
      asksFor platform interest cmdPrefix = some (fetchPrefix, some kind) ∧
        repo.patterns[fetchPrefix]? = none
  · obtain ⟨fetchPrefix, kind, asks, absent⟩ := accepted
    refine Or.inr ⟨kind, onInterest_threw platform outcomes asks absent fun returns => ?_⟩
    simp [patternAnnounces, asks, absent, returns] at idle
  · refine Or.inl (onInterest_refused platform outcomes fun fetchPrefix kind asks absent => ?_)
    exact accepted ⟨fetchPrefix, kind, asks, absent⟩

/-- A pattern command that announces a name starts a pattern. -/
theorem patternCommand_starts {name : Name}
    (named : patternAnnounces platform repo outcomes interest cmdPrefix = some name) :
    ∃ fetchPrefix kind,
      name = platform.ndn.uri.ofUri repo.storage.pimpl.renamePrefix ++ fetchPrefix ∧
        SendsAtMost (PatternHandle.started platform outcomes repo kind fetchPrefix)
          (final (onInterest platform outcomes interest cmdPrefix) repo) := by
  unfold patternAnnounces at named
  split at named
  · rename_i fetchPrefix kind asks
    split at named
    · rename_i accepted
      cases named
      exact ⟨fetchPrefix, kind, rfl,
        onInterest_starts platform outcomes asks accepted.1 accepted.2⟩
    · cases named
  · cases named

/-- A pattern is started as if its prefix had been announced first. -/
theorem coverSide_started (outcomes : Outcomes) (slots : repo.insertionSlots ≠ 0)
    (kind : PatternKind) (fetchPrefix : Name) :
    coverSide (PatternHandle.started platform outcomes repo kind fetchPrefix) =
      coverSide (FetchPattern.fetched platform ((repo.announced outcomes
        (platform.ndn.uri.ofUri repo.storage.pimpl.renamePrefix ++ fetchPrefix)).addInstance kind)
          kind repo.instances.length fetchPrefix) := by
  refine (congrArg coverSide (if_neg slots)).trans ?_
  by_cases covered : Covered repo.config.dataPrefixes
      (platform.ndn.uri.ofUri repo.storage.pimpl.renamePrefix ++ fetchPrefix)
  · rw [announced_of_covered outcomes covered]
    exact (congrArg coverSide (if_pos covered)).trans rfl
  · rw [show repo.announced outcomes _ = _ from if_neg covered]
    exact (congrArg coverSide (if_neg covered)).trans rfl

end PatternCommand

/-! ### What an event registers -/

/-- The data prefixes, the prefixes passed to `listen`, and the prefixes listened for. -/
def registry (repo : FastRepoImpl) : List Name × List Name × List Name :=
  (repo.config.dataPrefixes, repo.passedToListen, repo.face.dataListeners)

/-- One entry is added when no data prefix covers the name, and none otherwise. -/
structure Registers (repo next : FastRepoImpl) (outcomes : Outcomes) (name : Name) : Prop where
  covered : Covered repo.config.dataPrefixes name → registry next = registry repo
  added : ¬Covered repo.config.dataPrefixes name →
    registry next = (repo.config.dataPrefixes ++ [name], repo.passedToListen ++ [name],
      repo.face.dataListeners ++ outcomes.registered name)

theorem registry_of_coverSide {first second : FastRepoImpl}
    (same : coverSide first = coverSide second) : registry first = registry second := by
  simp only [coverSide, Prod.mk.injEq] at same
  obtain ⟨_, _, _, prefixes, passed, listeners, _⟩ := same
  rw [registry, prefixes, passed, listeners, registry]

theorem registers_announced {repo next : FastRepoImpl} (middle : FastRepoImpl) {outcomes : Outcomes}
    {name : Name} (before : registry middle = registry repo)
    (after : registry next = registry (middle.announced outcomes name)) :
    Registers repo next outcomes name := by
  have same := before
  simp only [registry, Prod.mk.injEq] at before
  obtain ⟨prefixes, passed, listeners⟩ := before
  refine ⟨fun covered => ?_, fun uncovered => ?_⟩
  · rw [after, announced_of_covered outcomes (prefixes ▸ covered), same]
  · rw [after, ← prefixes, ← passed, ← listeners]
    rw [← prefixes] at uncovered
    exact congrArg registry (if_neg uncovered)

theorem ignoresObjects_registry : IgnoresObjects platform registry where
  send _ _ := rfl
  written _ _ _ _ := rfl
  recorded _ _ _ _ := rfl
  setInstance _ _ _ := rfl
  erasePattern _ _ := rfl
  addTimer _ _ := rfl
  addPatternInterest _ _ := rfl

/-- An event that announces nothing registers nothing. -/
theorem registry_of_silent {repo : FastRepoImpl} {occurrence : Occurrence}
    (silent : announces platform repo occurrence = none) :
    registry (repo.after platform occurrence) = registry repo := by
  obtain ⟨event, outcomes⟩ := occurrence
  cases other : event.canAnnounce with
  | false =>
    refine after_of_not_announcing ?_ (ignoresObjects_registry platform) ?_ repo other
    · exact ⟨fun _ _ => rfl, fun _ _ _ => rfl, fun _ _ => rfl, fun _ _ => rfl⟩
    · intro repo event
      cases event <;> rfl
  | true =>
    cases event with
    | insertData processId data =>
      exact registry_of_coverSide (coverSide_insertData_idle platform silent)
    | patternCommand cmdPrefix interest =>
      rcases patternCommand_idle platform silent with sends | ⟨kind, pattern, threw⟩
      · exact registry_of_coverSide (coverSide_of_sendsAtMost sends)
      · exact (congrArg registry threw).trans rfl
    | _ => cases other

/-- Registration: **an event registers the name it announces unless a data prefix covers it, however
many slots the announcement reaches, and an event that announces nothing registers nothing**. -/
theorem registers_after {repo : FastRepoImpl} (slots : repo.insertionSlots ≠ 0)
    (occurrence : Occurrence) :
    match announces platform repo occurrence with
    | some name => Registers repo (repo.after platform occurrence) occurrence.outcomes name
    | none => registry (repo.after platform occurrence) = registry repo := by
  cases named : announces platform repo occurrence with
  | none => exact registry_of_silent platform named
  | some name =>
    obtain ⟨event, outcomes⟩ := occurrence
    cases event with
    | insertData processId data =>
      exact registers_announced
        (repo.written platform outcomes.dbPut (.insert processId) data).1 rfl
        (registry_of_coverSide (coverSide_insertData platform slots named).2)
    | patternCommand cmdPrefix interest =>
      obtain ⟨fetchPrefix, kind, rfl, sends⟩ := patternCommand_starts platform named
      have side := (coverSide_of_sendsAtMost sends).trans
        (coverSide_started platform outcomes slots kind fetchPrefix)
      exact registers_announced repo rfl ((registry_of_coverSide side).trans rfl)
    | _ => cases named

/-! ### The invariant -/

section Invariant

variable (config : Config) (db : Db)

/-- The object is a counter pattern, and a data prefix covers what it fetches, once renamed. -/
def Registered (repo : FastRepoImpl) (instanceId : InstanceId) (pattern : CounterPattern) : Prop :=
  repo.instances[instanceId]? = some (.counter pattern) ∧
    Covered repo.config.dataPrefixes
      (platform.ndn.uri.ofUri config.renamePrefix ++ pattern.fetchPrefix)

/-- What the repo has written is covered, and so is whatever a pending timer or Interest will
write. -/
structure Covering (repo : FastRepoImpl) : Prop where
  slots : repo.insertionSlots = config.repoPrefixes.length
  renames : repo.storage.pimpl.renamePrefix = config.renamePrefix
  listened : repo.passedToListen = repo.config.dataPrefixes
  /-- A write was made under the stored name, and a data prefix covers it unless a recorder made
  it. -/
  puts : ∀ put ∈ repo.puts,
    put.name = storedName platform.ndn config.renamePrefix put.data ∧
      (put.writer.isRecorder = false → Covered repo.config.dataPrefixes put.name)
  /-- A key was there at the start or written since. -/
  keys : ∀ key, key ∈ repo.storage.pimpl.db →
    key ∈ db ∨ ∃ put ∈ repo.puts, key = platform.ndn.uri.toUri put.name
  timers : ∀ timer ∈ repo.face.timers,
    ∃ pattern, Registered platform config repo timer.pattern pattern
  interests : ∀ interest ∈ repo.face.patternInterests,
    ∃ pattern, Registered platform config repo interest.pattern pattern ∧
      pattern.fetchPrefix <+: interest.name

variable {platform config db} {repo next : FastRepoImpl}

theorem Covering.congr (covering : Covering platform config db repo)
    (same : coverSide next = coverSide repo) : Covering platform config db next := by
  simp only [coverSide, Prod.mk.injEq] at same
  obtain ⟨slots, storage, puts, prefixes, passed, listeners, instances, timers, interests⟩ := same
  refine ⟨slots.trans covering.slots, ?_, ?_, ?_, ?_, ?_, ?_⟩
  · rw [storage]
    exact covering.renames
  · rw [passed, prefixes]
    exact covering.listened
  · rw [puts, prefixes]
    exact covering.puts
  · rw [storage, puts]
    exact covering.keys
  · unfold Registered
    rw [timers, instances, prefixes]
    exact covering.timers
  · unfold Registered
    rw [interests, instances, prefixes]
    exact covering.interests

/-- An announcement makes no name uncovered. -/
theorem covered_announced_of {name path : Name} (outcomes : Outcomes)
    (covered : Covered repo.config.dataPrefixes path) :
    Covered (repo.announced outcomes name).config.dataPrefixes path := by
  rw [announced_dataPrefixes]
  exact covered_add covered name

theorem Covering.announced (covering : Covering platform config db repo) (outcomes : Outcomes)
    (name : Name) : Covering platform config db (repo.announced outcomes name) := by
  have rest := part_announced (fun repo => (repo.insertionSlots, repo.storage, repo.puts,
    repo.instances, repo.face.timers, repo.face.patternInterests)) (fun _ _ _ _ => rfl)
    repo outcomes name
  simp only [Prod.mk.injEq] at rest
  obtain ⟨slots, storage, puts, instances, timers, interests⟩ := rest
  have registered : ∀ instanceId pattern, Registered platform config repo instanceId pattern →
      Registered platform config (repo.announced outcomes name) instanceId pattern := by
    rintro instanceId pattern ⟨object, covered⟩
    exact ⟨instances ▸ object, covered_announced_of outcomes covered⟩
  refine ⟨slots.trans covering.slots, ?_, ?_, ?_, ?_, ?_, ?_⟩
  · rw [storage]
    exact covering.renames
  · unfold FastRepoImpl.announced
    split
    · exact covering.listened
    · exact congrArg (fun names => names ++ [name]) covering.listened
  · rw [puts]
    intro put member
    obtain ⟨named, covered⟩ := covering.puts put member
    exact ⟨named, fun own => covered_announced_of outcomes (covered own)⟩
  · rw [storage, puts]
    exact covering.keys
  · rw [timers]
    intro timer member
    obtain ⟨pattern, here⟩ := covering.timers timer member
    exact ⟨pattern, registered _ _ here⟩
  · rw [interests]
    intro interest member
    obtain ⟨pattern, here, extension⟩ := covering.interests interest member
    exact ⟨pattern, registered _ _ here, extension⟩

/-- A successful write under a covered name, or of a recorder. -/
theorem Covering.written (covering : Covering platform config db repo) (writer : Writer)
    (data : Data) (covered : writer.isRecorder = false → Covered repo.config.dataPrefixes
      (storedName platform.ndn config.renamePrefix data)) :
    Covering platform config db (repo.written platform true writer data).1 := by
  have name : (repo.written platform true writer data).2 =
      storedName platform.ndn config.renamePrefix data := by
    rw [written_name, covering.renames]
  have puts : (repo.written platform true writer data).1.puts =
      repo.puts ++ [⟨writer, data, storedName platform.ndn config.renamePrefix data⟩] := by
    rw [← name]
    rfl
  refine ⟨covering.slots, ?_, covering.listened, ?_, ?_, covering.timers, covering.interests⟩
  · exact (written_renamePrefix platform repo true writer data).trans covering.renames
  · rw [puts]
    intro put member
    rcases List.mem_append.mp member with before | new
    · exact covering.puts put before
    · rw [List.mem_singleton.mp new]
      exact ⟨rfl, covered⟩
  · rw [puts]
    intro key member
    have db : (repo.written platform true writer data).1.storage.pimpl.db =
        repo.storage.pimpl.db.insert (platform.ndn.uri.toUri
          (storedName platform.ndn repo.storage.pimpl.renamePrefix data))
          (platform.ndn.wire.wireEncode
            (storedData platform.ndn repo.storage.pimpl.renamePrefix data)) :=
      StorageEngine.put_db platform.ndn repo.storage data
    rw [db, covering.renames, Std.TreeMap.mem_insert, Std.compare_eq_iff_eq] at member
    rcases member with same | before
    · exact Or.inr ⟨⟨writer, data, storedName platform.ndn config.renamePrefix data⟩, by simp, same.symm⟩
    · refine (covering.keys key before).imp_right ?_
      rintro ⟨put, inside, same⟩
      exact ⟨put, List.mem_append_left _ inside, same⟩

/-- Objects may change, as long as counter patterns keep their fetch prefixes. -/
theorem Covering.objects (covering : Covering platform config db repo)
    (instances : List FetchPattern)
    (kept : ∀ (instanceId : InstanceId) (pattern : CounterPattern),
      repo.instances[instanceId]? = some (.counter pattern) →
        ∃ after : CounterPattern, instances[instanceId]? = some (.counter after) ∧
          after.fetchPrefix = pattern.fetchPrefix) :
    Covering platform config db { repo with instances := instances } := by
  have registered : ∀ instanceId pattern, Registered platform config repo instanceId pattern →
      ∃ after, Registered platform config { repo with instances := instances } instanceId after ∧
        after.fetchPrefix = pattern.fetchPrefix := by
    rintro instanceId pattern ⟨object, covered⟩
    obtain ⟨after, found, same⟩ := kept instanceId pattern object
    exact ⟨after, ⟨found, same ▸ covered⟩, same⟩
  refine ⟨covering.slots, covering.renames, covering.listened, covering.puts, covering.keys,
    fun timer member => ?_, fun interest member => ?_⟩
  · obtain ⟨pattern, here⟩ := covering.timers timer member
    obtain ⟨after, there, _⟩ := registered _ _ here
    exact ⟨after, there⟩
  · obtain ⟨pattern, here, extension⟩ := covering.interests interest member
    obtain ⟨after, there, same⟩ := registered _ _ here
    exact ⟨after, there, same ▸ extension⟩

/-- An object may be changed to one with the same fetch prefix. -/
theorem Covering.setInstance (covering : Covering platform config db repo)
    {instanceId : InstanceId} {old : FetchPattern} (found : repo.instances[instanceId]? = some old)
    (new : FetchPattern) (same : ∀ pattern, old = .counter pattern →
      ∃ after : CounterPattern, new = .counter after ∧ after.fetchPrefix = pattern.fetchPrefix) :
    Covering platform config db (repo.setInstance instanceId new) := by
  refine covering.objects (repo.instances.set instanceId new) fun other pattern object => ?_
  rw [List.getElem?_set]
  split
  · rename_i equal
    subst equal
    rw [found] at object
    obtain ⟨bound, _⟩ := List.getElem?_eq_some_iff.mp found
    obtain ⟨after, rfl, fetches⟩ := same pattern (Option.some.inj object)
    rw [if_pos bound]
    exact ⟨after, rfl, fetches⟩
  · exact ⟨pattern, object, rfl⟩

/-- A new object may be in any state. -/
theorem Covering.newInstance (covering : Covering platform config db repo) (kind : PatternKind)
    (pattern : FetchPattern) :
    Covering platform config db
      ((repo.addInstance kind).setInstance repo.instances.length pattern) := by
  refine covering.objects ((repo.instances ++ [FetchPattern.ofKind kind]).set repo.instances.length
    pattern) fun other counter object => ⟨counter, ?_, rfl⟩
  obtain ⟨bound, _⟩ := List.getElem?_eq_some_iff.mp object
  rw [List.getElem?_set_ne (Nat.ne_of_gt bound), List.getElem?_append_left bound]
  exact object

theorem Covering.addTimer (covering : Covering platform config db repo) (timer : Timer)
    {pattern : CounterPattern} (registered : Registered platform config repo timer.pattern pattern) :
    Covering platform config db (repo.addTimer timer) := by
  refine ⟨covering.slots, covering.renames, covering.listened, covering.puts, covering.keys,
    fun other member => ?_, covering.interests⟩
  rcases List.mem_append.mp member with before | new
  · exact covering.timers other before
  · rw [List.mem_singleton.mp new]
    exact ⟨pattern, registered⟩

theorem Covering.addPatternInterest (covering : Covering platform config db repo)
    {interest : PatternInterest} {pattern : CounterPattern}
    (registered : Registered platform config repo interest.pattern pattern)
    (extension : pattern.fetchPrefix <+: interest.name) :
    Covering platform config db (repo.addPatternInterest interest) := by
  refine ⟨covering.slots, covering.renames, covering.listened, covering.puts, covering.keys,
    covering.timers, fun other member => ?_⟩
  rcases List.mem_append.mp member with before | new
  · exact covering.interests other before
  · rw [List.mem_singleton.mp new]
    exact ⟨pattern, registered, extension⟩

theorem Covering.taken (covering : Covering platform config db repo) (event : Event) :
    Covering platform config db (repo.taken event) := by
  cases event with
  | timer timer =>
    exact ⟨covering.slots, covering.renames, covering.listened, covering.puts, covering.keys,
      fun other member => covering.timers other (List.mem_of_mem_erase member),
      covering.interests⟩
  | counterData interest data =>
    exact ⟨covering.slots, covering.renames, covering.listened, covering.puts, covering.keys,
      covering.timers,
      fun other member => covering.interests other (List.mem_of_mem_erase member)⟩
  | counterTimeout interest =>
    exact ⟨covering.slots, covering.renames, covering.listened, covering.puts, covering.keys,
      covering.timers,
      fun other member => covering.interests other (List.mem_of_mem_erase member)⟩
  | _ => exact covering

end Invariant

/-! ### One event -/

section Step

variable {platform} {config : Config} {db : Db} {repo : FastRepoImpl}

/-- A name that extends the fetch prefix of a counter pattern is stored under a covered name. -/
theorem covered_storedName {instanceId : InstanceId} {pattern : CounterPattern}
    (registered : Registered platform config repo instanceId pattern) {data : Data}
    (extension : pattern.fetchPrefix <+: data.name) :
    Covered repo.config.dataPrefixes (storedName platform.ndn config.renamePrefix data) := by
  obtain ⟨_, covered⟩ := registered
  refine covered.of_extends ?_
  unfold storedName
  split
  · exact (List.prefix_append_right_inj _).mpr extension
  · rename_i none
    rw [not_not.mp none, platform.ndn.uri.ofUri_nil]
    exact extension

/-- A write and an announcement do not depend on their order. -/
theorem coverSide_written_announced (repo : FastRepoImpl) (ok : Bool) (writer : Writer) (data : Data)
    (outcomes : Outcomes) (name : Name) :
    coverSide ((repo.written platform ok writer data).1.announced outcomes name) =
      coverSide ((repo.announced outcomes name).written platform ok writer data).1 := by
  by_cases covered : Covered repo.config.dataPrefixes name
  · rw [announced_of_covered outcomes covered]
    exact congrArg coverSide (if_pos covered)
  · rw [show repo.announced outcomes name = _ from if_neg covered]
    exact (congrArg coverSide (if_neg covered)).trans rfl

variable (covering : Covering platform config db repo) (outcomes : Outcomes)
include covering

theorem covering_insertData {processId : UInt64} {data : Data}
    (listens : config.repoPrefixes ≠ []) (succeeds : outcomes.dbPut = true) :
    Covering platform config db
      (final (WriteHandle.onDataValidated platform outcomes data processId) repo) := by
  have slots : repo.insertionSlots ≠ 0 := by
    rw [covering.slots]
    simpa using listens
  cases named : insertAnnounces platform repo outcomes processId data with
  | none => exact covering.congr (coverSide_insertData_idle platform named)
  | some name =>
    obtain ⟨same, side⟩ := coverSide_insertData platform slots named
    rw [succeeds, written_name, covering.renames] at same
    rw [succeeds] at side
    refine Covering.congr ((covering.announced outcomes name).written (.insert processId) data
      fun _ => ?_) (side.trans (coverSide_written_announced repo true _ data outcomes name))
    rw [← same]
    exact covered_announced repo outcomes name

omit outcomes in
theorem Covering.fetched (kind : PatternKind) {fetchPrefix : Name}
    (covered : Covered repo.config.dataPrefixes
      (platform.ndn.uri.ofUri config.renamePrefix ++ fetchPrefix)) :
    Covering platform config db (FetchPattern.fetched platform (repo.addInstance kind) kind
      repo.instances.length fetchPrefix) := by
  have made := covering.newInstance kind (FetchPattern.fetching platform kind fetchPrefix)
  cases kind with
  | counter =>
    have object : (((repo.instances ++ [FetchPattern.ofKind .counter]).set repo.instances.length
        (.counter ⟨true, 0, fetchPrefix⟩)))[repo.instances.length]? =
          some (.counter ⟨true, 0, fetchPrefix⟩) := by
      simp
    exact made.addTimer ⟨1, repo.instances.length⟩ ⟨object, covered⟩
  | ndnrtc =>
    refine made.congr ?_
    simp [coverSide, FetchPattern.fetched, FetchPattern.firstTimers, FastRepoImpl.setInstance]
  | gobj =>
    refine made.congr ?_
    simp [coverSide, FetchPattern.fetched, FetchPattern.firstTimers, FastRepoImpl.setInstance]

theorem covering_patternCommand {interest : Interest} {cmdPrefix : Name}
    (listens : config.repoPrefixes ≠ []) :
    Covering platform config db (final (onInterest platform outcomes interest cmdPrefix) repo) := by
  have slots : repo.insertionSlots ≠ 0 := by
    rw [covering.slots]
    simpa using listens
  cases named : patternAnnounces platform repo outcomes interest cmdPrefix with
  | none =>
    rcases patternCommand_idle platform named with sends | ⟨kind, pattern, threw⟩
    · exact covering.congr (coverSide_of_sendsAtMost sends)
    · rw [threw]
      exact covering.newInstance kind pattern
  | some name =>
    obtain ⟨fetchPrefix, kind, rfl, sends⟩ := patternCommand_starts platform named
    rw [covering.renames] at *
    have length : (repo.announced outcomes (platform.ndn.uri.ofUri config.renamePrefix ++
        fetchPrefix)).instances.length = repo.instances.length := by
      rw [part_announced instances (fun _ _ _ _ => rfl)]
    have whole := (covering.announced outcomes (platform.ndn.uri.ofUri config.renamePrefix ++
      fetchPrefix)).fetched kind (covered_announced repo outcomes _)
    rw [length] at whole
    refine whole.congr ((coverSide_of_sendsAtMost sends).trans ?_)
    have started := coverSide_started platform outcomes slots kind fetchPrefix
    rw [covering.renames] at started
    exact started

theorem covering_timer {timer : Timer} (pending : timer ∈ repo.face.timers) :
    Covering platform config db
      (final (CounterPattern.doFetch outcomes timer.pattern) (repo.taken (.timer timer))) := by
  have base := covering.taken (.timer timer)
  obtain ⟨pattern, registered⟩ := covering.timers timer pending
  rcases CounterPattern.doFetch_cases outcomes timer.pattern (repo.taken (.timer timer)) with
    nothing | ⟨other, found, expressed⟩
  · rw [nothing]
    exact base
  · rw [expressed]
    have same : other = pattern := by
      have twice := found.symm.trans registered.1
      simpa using twice
    subst same
    exact base.addPatternInterest registered (List.prefix_append _ _)

theorem covering_counterData {interest : PatternInterest} {data : Data}
    (pending : interest ∈ repo.face.patternInterests) (extension : interest.name <+: data.name)
    (succeeds : outcomes.dbPut = true) :
    Covering platform config db (final (CounterPattern.onData platform outcomes interest.pattern data)
      (repo.taken (.counterData interest data))) := by
  have base := covering.taken (.counterData interest data)
  obtain ⟨pattern, registered, starts⟩ := covering.interests interest pending
  have stored := base.written (.pattern interest.pattern) data
    fun _ => covered_storedName registered (starts.trans extension)
  rcases CounterPattern.onData_cases platform outcomes interest.pattern data
    (repo.taken (.counterData interest data)) with
    nothing | ⟨other, after, found, same, next⟩
  · rw [nothing]
    exact base
  · rw [succeeds] at next
    have known : other = pattern := by
      have twice := found.symm.trans registered.1
      simpa using twice
    subst known
    have counted := stored.setInstance registered.1 (.counter after) (by
      rintro pattern counter
      cases counter
      exact ⟨after, rfl, same⟩)
    rcases next with next | next
    · rw [next]
      exact counted
    · rw [next]
      obtain ⟨bound, _⟩ := List.getElem?_eq_some_iff.mp registered.1
      have object : (repo.instances.set interest.pattern (.counter after))[interest.pattern]? =
          some (.counter after) := List.getElem?_set_self bound
      exact counted.addTimer ⟨2000, interest.pattern⟩ ⟨object, same ▸ registered.2⟩

theorem covering_recorderData {instanceId : InstanceId} {data : Data}
    (succeeds : outcomes.dbPut = true) : Covering platform config db
      (final (NdnrtcPattern.storeFun platform outcomes instanceId data) repo) := by
  rw [NdnrtcPattern.final_storeFun, succeeds]
  split
  · exact covering.written (.recorder instanceId) data nofun
  · exact covering

omit outcomes in
theorem covering_target (occurrence : Occurrence) {fetchPrefix : Name}
    (target : cancelTarget platform occurrence.event = some fetchPrefix) :
    Covering platform config db (repo.after platform occurrence) := by
  cases found : repo.patterns[fetchPrefix]? with
  | none =>
    exact covering.congr (coverSide_of_sendsAtMost
      (sendsAtMost_of_target_absent platform target found))
  | some instanceId =>
    rcases after_of_target platform target found with sends | ⟨same, _⟩
    · refine Covering.congr ?_ (coverSide_of_sendsAtMost sends)
      unfold PatternHandle.ended FetchPattern.cancelledAt
      cases object : repo.instances[instanceId]? with
      | none => exact covering.congr rfl
      | some pattern =>
        have cancelled := covering.setInstance object pattern.cancelled (by
          rintro counter rfl
          exact ⟨{ counter with running := false }, rfl, rfl⟩)
        exact cancelled.congr rfl
    · rw [same]
      exact covering

omit outcomes in
/-- One event: **what is written stays covered**. -/
theorem covering_after (listens : config.repoPrefixes ≠ []) {occurrence : Occurrence}
    (enabled : repo.Enabled occurrence.event) (succeeds : occurrence.outcomes.dbPut = true) :
    Covering platform config db (repo.after platform occurrence) := by
  obtain ⟨event, outcomes⟩ := occurrence
  cases event with
  | insertCommand cmdPrefix interest processId =>
    exact covering.congr (frames_onValidated ignoresRecords_coverSide outcomes interest cmdPrefix
      processId repo)
  | insertData processId data => exact covering_insertData covering outcomes listens succeeds
  | insertTimeout processId => exact covering.congr rfl
  | insertNack processId => exact covering.congr rfl
  | patternCommand cmdPrefix interest => exact covering_patternCommand covering outcomes listens
  | cancelCommand cmdPrefix interest =>
    cases target : cancelsFor platform interest cmdPrefix with
    | none =>
      refine covering.congr (coverSide_of_sendsAtMost ?_)
      show SendsAtMost repo (final (onCancelRequest platform outcomes interest cmdPrefix) repo)
      rw [onCancelRequest_rejected platform outcomes target]
      exact sendsAtMost_negativeReply platform outcomes interest 403 repo
    | some fetchPrefix =>
      exact covering_target covering ⟨.cancelCommand cmdPrefix interest, outcomes⟩ target
  | removePattern fetchPrefix =>
    exact covering_target covering ⟨.removePattern fetchPrefix, outcomes⟩ rfl
  | timer timer => exact covering_timer covering outcomes enabled
  | counterData interest data =>
    exact covering_counterData covering outcomes enabled.1 enabled.2 succeeds
  | counterTimeout interest => exact covering.taken (.counterTimeout interest)
  | recorderData instanceId data => exact covering_recorderData covering outcomes succeeds
  | readInterest interest =>
    exact covering.congr (frames_answer (fun _ _ => rfl) outcomes interest repo)

end Step

/-! ### Runs -/

section Runs

variable (config : Config) (db : Db)

/-- At the start nothing has been written, and nothing is pending. -/
theorem covering_started (writable : config.readOnly = false) :
    Covering platform config db (started platform config db) := by
  have fresh := part_started platform (fun repo => (repo.storage.pimpl.db,
    repo.storage.pimpl.renamePrefix, repo.puts, repo.face.timers, repo.face.patternInterests))
    (fun _ _ => rfl) (fun _ => rfl) config db
  simp only [Prod.mk.injEq] at fresh
  obtain ⟨keys, renames, puts, timers, interests⟩ := fresh
  have slots : (started platform config db).insertionSlots = config.repoPrefixes.length := by
    obtain ⟨_, _, _, _, connected⟩ := foldl_listenUnder (constructed config db) config.repoPrefixes
    unfold FastRepoImpl.started
    simp only [writable, Bool.false_eq_true, if_false]
    exact connected.trans (Nat.zero_add _)
  refine ⟨slots, renames, (started_dataPrefixes platform config db).2.1, ?_, ?_, ?_, ?_⟩
  · rw [puts]
    exact fun _ member => absurd member List.not_mem_nil
  · rw [keys]
    exact fun _ member => Or.inl member
  · rw [timers]
    exact fun _ member => absurd member List.not_mem_nil
  · rw [interests]
    exact fun _ member => absurd member List.not_mem_nil

/-- What is covered in a run that reaches a state. -/
structure Coverage (occurrences : List Occurrence) (repo : FastRepoImpl) : Prop where
  /-- A write was made under the stored name, and some data prefix that was passed to `listen` is a
  prefix of it, unless a recorder made the write. -/
  puts : ∀ put ∈ repo.puts, put.name = storedName platform.ndn config.renamePrefix put.data ∧
    (put.writer.isRecorder = false → ∃ dataPrefix ∈ repo.config.dataPrefixes,
      dataPrefix <+: put.name ∧ dataPrefix ∈ repo.passedToListen)
  /-- A key that was not there at the start is the key of such a write. -/
  keys : ∀ key, key ∈ repo.storage.pimpl.db →
    key ∈ db ∨ ∃ put ∈ repo.puts, key = platform.ndn.uri.toUri put.name
  /-- An announcement is delivered once for each command prefix. -/
  slots : ∀ s, Runs.Passes (step platform) (started platform config db) occurrences s →
    s.insertionSlots = config.repoPrefixes.length
  /-- An event adds one entry exactly when it announces a name that no entry is a prefix of. -/
  registers : ∀ s occurrence, Runs.Takes (step platform) (started platform config db) occurrences
      s occurrence →
    match announces platform s occurrence with
    | some name => Registers s (s.after platform occurrence) occurrence.outcomes name
    | none => registry (s.after platform occurrence) = registry s

/-- Runtime coverage: **in every run from the start in which the writes of the database succeed,
every key the insert command or a counter pattern wrote is covered by a data prefix that was passed
to `listen`**, whatever else the libraries do. -/
theorem coverage_run (writable : config.readOnly = false) (listens : config.repoPrefixes ≠ [])
    {occurrences : List Occurrence}
    (succeeds : ∀ occurrence ∈ occurrences, occurrence.outcomes.dbPut = true) {repo : FastRepoImpl}
    (reached : (started platform config db).run platform occurrences = some repo) :
    Coverage platform config db occurrences repo := by
  have covering : ∀ (before : List Occurrence) (s : FastRepoImpl), before <+: occurrences →
      Runs.run (step platform) (started platform config db) before = some s →
        Covering platform config db s := by
    intro before s within passed
    refine Runs.run_keeps (I := Covering platform config db)
      (C := fun occurrence => occurrence.outcomes.dbPut = true)
      (covering_started platform config db writable) ?_
      (fun occurrence member => succeeds occurrence (within.subset member)) passed
    intro s occurrence next writes covering step
    obtain ⟨enabled, rfl⟩ := (step_eq_some platform).mp step
    exact covering_after covering listens enabled writes
  have last := covering occurrences repo List.prefix_rfl reached
  refine ⟨fun put member => ?_, last.keys, fun s ⟨before, within, passed⟩ => ?_,
    fun s occurrence taken => ?_⟩
  · obtain ⟨named, covered⟩ := last.puts put member
    refine ⟨named, fun own => ?_⟩
    obtain ⟨dataPrefix, registered, extension⟩ := covered own
    exact ⟨dataPrefix, registered, extension, last.listened ▸ registered⟩
  · exact (covering before s within passed).slots
  · obtain ⟨before, within, passed⟩ := taken.passes
    refine registers_after platform ?_ occurrence
    rw [(covering before s within passed).slots]
    simpa using listens

end Runs

/-- Under two command prefixes and a rename prefix: a packet is inserted, and a counter pattern
fetches one, loses its next Interest and is then cancelled, with nothing pending. -/
def insertAndFetch : List Occurrence :=
  [⟨.insertCommand (nameOf ["r", "insert"])
      (commandInterest (nameOf ["r", "insert"]) ⟨[ascii "a"]⟩) 1, {}⟩,
    ⟨.patternCommand (nameOf ["q", "pattern"]) (commandInterest (nameOf ["q", "pattern"])
      (patternParameter (ascii "counter") [ascii "p"])), {}⟩,
    ⟨.insertData 1 { name := nameOf ["a"] }, {}⟩,
    ⟨.timer ⟨1, 0⟩, {}⟩,
    ⟨.counterData ⟨nameOf ["p", "0"], 4000, 0⟩ { name := nameOf ["p", "0"] }, {}⟩,
    ⟨.timer ⟨2000, 0⟩, {}⟩,
    ⟨.counterTimeout ⟨nameOf ["p", "1"], 4000, 0⟩, {}⟩,
    ⟨.cancelCommand (nameOf ["q", "cancel"])
      (commandInterest (nameOf ["q", "cancel"]) ⟨[ascii "p"]⟩), {}⟩]

theorem coverage_insertAndFetch :
    ∃ repo, Coverage (tlvPlatform false false)
        { repoPrefixes := [nameOf ["r"], nameOf ["q"]], renamePrefix := ascii "/x" } ∅
        insertAndFetch repo ∧
      repo.puts.map Put.name = [nameOf ["x", "a"], nameOf ["x", "p", "0"]] ∧
      repo.config.dataPrefixes = [nameOf ["x", "p"], nameOf ["x", "a"]] := by
  have runs : ((started (tlvPlatform false false)
      { repoPrefixes := [nameOf ["r"], nameOf ["q"]], renamePrefix := ascii "/x" } ∅).run
        (tlvPlatform false false) insertAndFetch).map
          (fun repo => (repo.puts.map Put.name, repo.config.dataPrefixes)) =
      some ([nameOf ["x", "a"], nameOf ["x", "p", "0"]], [nameOf ["x", "p"], nameOf ["x", "a"]]) := by
    decide
  obtain ⟨repo, reached, same⟩ := Option.map_eq_some_iff.mp runs
  obtain ⟨names, prefixes⟩ := Prod.mk.inj same
  exact ⟨repo, coverage_run (tlvPlatform false false) _ ∅ rfl (by decide) (by decide) reached,
    names, prefixes⟩

end RuntimeCoverage

end FastRepo
