/-
Failed writes.

A write of the database that fails is answered by the empty name, and the insert command announces
the name its write returned without a look at it. `announcesStored_iff` says when the insert path of
a run announces stored packets only: when no callback has its write fail, reaches a slot, and finds
the empty name unregistered.
-/

import FastRepo.Repo.StoreState

namespace FastRepo

open FastRepoImpl PrefixCover RuntimeCoverage StoreState

namespace FailedWrites

variable (platform : Platform)

/-! ### What a callback announces -/

/-- The callback is told of a write that failed, and no check on the way to the registry stops the
empty name: the process has inserted nothing, the write does not throw, there is a slot, and the
empty name is not a data prefix. -/
def FailsUnchecked (repo : FastRepoImpl) (occurrence : Occurrence) : Prop :=
  ∃ processId data process, occurrence.event = .insertData processId data ∧
    occurrence.outcomes.dbPut = false ∧ occurrence.outcomes.throws .storagePut = none ∧
    repo.processes[processId]? = some process ∧ process.response.insertNum = 0 ∧
    repo.insertionSlots ≠ 0 ∧ [] ∉ repo.config.dataPrefixes

theorem covered_nil_iff (dataPrefixes : List Name) : Covered dataPrefixes [] ↔ [] ∈ dataPrefixes := by
  unfold Covered
  constructor
  · intro covered
    obtain ⟨p, member, extension⟩ := covered
    rwa [List.prefix_nil.mp extension] at member
  · intro member
    exact ⟨[], member, List.prefix_rfl⟩

/-- A callback announces a name when its process has inserted nothing and its write returns. -/
theorem insertAnnounces_eq_some {repo : FastRepoImpl} {outcomes : Outcomes} {processId : UInt64}
    {data : Data} {name : Name} :
    insertAnnounces platform repo outcomes processId data = some name ↔
      (∃ process, repo.processes[processId]? = some process ∧ process.response.insertNum = 0) ∧
        outcomes.throws .storagePut = none ∧
        (repo.written platform outcomes.dbPut (.insert processId) data).2 = name := by
  unfold insertAnnounces
  cases record : repo.processes[processId]? with
  | none => simp
  | some process =>
    by_cases accepted : process.response.insertNum = 0 ∧ outcomes.throws .storagePut = none
    · simp [accepted]
    · simp only [if_neg accepted, reduceCtorEq, false_iff, Option.some.injEq, exists_eq_left']
      exact fun announced => accepted ⟨announced.1, announced.2.1⟩

section Callback

variable {repo : FastRepoImpl} {outcomes : Outcomes} {processId : UInt64} {data : Data}

omit platform in
theorem registry_announced (repo : FastRepoImpl) (outcomes : Outcomes) (name : Name) :
    registry (repo.announced outcomes name) =
      if Covered repo.config.dataPrefixes name then registry repo
      else (repo.config.dataPrefixes ++ [name], repo.passedToListen ++ [name],
        repo.face.dataListeners ++ outcomes.registered name) := by
  unfold announced
  split <;> rfl

/-- A callback that announces a name registers it unless there is no slot or the name is covered. -/
theorem registry_insertData {name : Name}
    (named : insertAnnounces platform repo outcomes processId data = some name) :
    registry (repo.after platform ⟨.insertData processId data, outcomes⟩) =
      if repo.insertionSlots = 0 ∨ Covered repo.config.dataPrefixes name then registry repo
      else (repo.config.dataPrefixes ++ [name], repo.passedToListen ++ [name],
        repo.face.dataListeners ++ outcomes.registered name) := by
  refine (registry_of_coverSide (coverSide_insertData_signal platform named).2).trans ?_
  by_cases slots : repo.insertionSlots = 0
  · rw [if_pos slots, if_pos (Or.inl slots)]
    rfl
  · rw [if_neg slots, registry_announced]
    simp only [slots, false_or]
    rfl

/-- A failed write registers nothing exactly when a check stops the empty name. -/
theorem registry_of_failed (failed : outcomes.dbPut = false) :
    registry (repo.after platform ⟨.insertData processId data, outcomes⟩) = registry repo ↔
      ¬FailsUnchecked repo ⟨.insertData processId data, outcomes⟩ := by
  cases named : insertAnnounces platform repo outcomes processId data with
  | none =>
    refine iff_of_true (registry_of_coverSide (coverSide_insertData_idle platform named))
      fun unchecked => ?_
    obtain ⟨_, _, process, same, _, returns, record, nothing, _⟩ := unchecked
    cases same
    have announced : insertAnnounces platform repo outcomes processId data =
        some (repo.written platform outcomes.dbPut (.insert processId) data).2 :=
      (insertAnnounces_eq_some platform).mpr ⟨⟨process, record, nothing⟩, returns, rfl⟩
    rw [named] at announced
    cases announced
  | some name =>
    obtain ⟨⟨process, record, nothing⟩, returns, written⟩ :=
      (insertAnnounces_eq_some platform).mp named
    rw [failed, (written_failed platform repo _ data).1] at written
    subst written
    rw [registry_insertData platform named]
    by_cases stopped : repo.insertionSlots = 0 ∨ Covered repo.config.dataPrefixes []
    · rw [if_pos stopped]
      refine iff_of_true rfl fun unchecked => ?_
      obtain ⟨_, _, _, _, _, _, _, _, slots, unknown⟩ := unchecked
      exact stopped.elim slots fun covered => unknown ((covered_nil_iff _).mp covered)
    · rw [if_neg stopped]
      obtain ⟨slots, uncovered⟩ := not_or.mp stopped
      refine iff_of_false (fun same => ?_) fun checked => checked
        ⟨processId, data, process, rfl, failed, returns, record, nothing, slots,
          mt (covered_nil_iff _).mpr uncovered⟩
      have longer := congrArg (fun names => names.1.length) same
      simp [registry] at longer

/-- What a callback registers is in the store when its write succeeds. -/
theorem stored_of_registered (succeeds : outcomes.dbPut = true) {n : Name}
    (registered :
      n ∈ (repo.after platform ⟨.insertData processId data, outcomes⟩).config.dataPrefixes)
    (new : n ∉ repo.config.dataPrefixes) :
    Stored platform (repo.after platform ⟨.insertData processId data, outcomes⟩) n := by
  cases named : insertAnnounces platform repo outcomes processId data with
  | none =>
    have idle := registry_of_coverSide (coverSide_insertData_idle platform named)
    rw [show (repo.after platform ⟨.insertData processId data, outcomes⟩).config.dataPrefixes =
      repo.config.dataPrefixes from congrArg Prod.fst idle] at registered
    exact absurd registered new
  | some name =>
    obtain ⟨_, _, written⟩ := (insertAnnounces_eq_some platform).mp named
    have entries : n ∈ (registry (repo.after platform
        ⟨.insertData processId data, outcomes⟩)).1 := registered
    rw [registry_insertData platform named] at entries
    have same : n = name := by
      split at entries
      · exact absurd entries new
      · simpa [new] using entries
    rw [succeeds] at written
    subst same written
    refine (stored_written_name platform repo (.insert processId) data).congr ?_
    have writes := storeSide_insertData platform named
    rw [succeeds] at writes
    exact writes

end Callback

/-! ### Runs -/

section Runs

variable (config : Config) (db : Db)

/-- The insert path of a run announces stored packets only. -/
structure AnnouncesStored (occurrences : List Occurrence) (last : FastRepoImpl) : Prop where
  /-- A callback whose write fails registers nothing. -/
  failed : ∀ s processId data outcomes,
    Runs.Takes (step platform) (started platform config db) occurrences s
      ⟨.insertData processId data, outcomes⟩ →
    outcomes.dbPut = false →
      registry (s.after platform ⟨.insertData processId data, outcomes⟩) = registry s
  /-- A prefix that a callback adds is the name of a packet that stays in the store. -/
  stored : ∀ s processId data outcomes,
    Runs.Takes (step platform) (started platform config db) occurrences s
      ⟨.insertData processId data, outcomes⟩ →
    ∀ n ∈ (s.after platform ⟨.insertData processId data, outcomes⟩).config.dataPrefixes,
      n ∉ s.config.dataPrefixes → Stored platform last n

/-- Failed writes: **in every run from the start the insert path announces stored packets only,
exactly when no step is a callback whose write fails and whose empty name passes every check**. -/
theorem announcesStored_iff {occurrences : List Occurrence} {last : FastRepoImpl}
    (reached : (started platform config db).run platform occurrences = some last) :
    AnnouncesStored platform config db occurrences last ↔
      ∀ s occurrence, Runs.Takes (step platform) (started platform config db) occurrences
        s occurrence → ¬FailsUnchecked s occurrence := by
  constructor
  · intro announces s occurrence taken unchecked
    obtain ⟨event, outcomes⟩ := occurrence
    obtain ⟨processId, data, _, rfl, fails, _⟩ := id unchecked
    exact (registry_of_failed platform fails).mp
      (announces.failed s processId data outcomes taken fails) unchecked
  · intro checked
    refine ⟨fun s processId data outcomes taken fails => ?_,
      fun s processId data outcomes taken n added new => ?_⟩
    · exact (registry_of_failed platform fails).mpr (checked s _ taken)
    · obtain ⟨next, _, rest, _, _, step, onwards⟩ := taken.rest reached
      obtain ⟨_, rfl⟩ := (step_eq_some platform).mp step
      refine stored_run platform ?_ onwards
      cases writes : outcomes.dbPut with
      | true => exact stored_of_registered platform writes added new
      | false =>
        have same := (registry_of_failed platform writes).mpr (checked s _ taken)
        have entries : n ∈ (registry (s.after platform
            ⟨.insertData processId data, outcomes⟩)).1 := added
        rw [same] at entries
        exact absurd entries new

end Runs

/-- A command asks to insert `/a`, and the packet arrives. -/
def insertCommand : Occurrence :=
  ⟨.insertCommand (nameOf ["r", "insert"])
    (commandInterest (nameOf ["r", "insert"]) ⟨[ascii "a"]⟩) 1, {}⟩

def insertArrival (ok : Bool) : Occurrence :=
  ⟨.insertData 1 { name := nameOf ["a"] }, { dbPut := ok }⟩

/-- When the write fails, the empty name is registered. -/
theorem not_announcesStored_failed :
    ∃ last, (started (tlvPlatform false false) { repoPrefixes := [nameOf ["r"]] } ∅).run
        (tlvPlatform false false) [insertCommand, insertArrival false] = some last ∧
      last.config.dataPrefixes = [[]] ∧
      ¬AnnouncesStored (tlvPlatform false false) { repoPrefixes := [nameOf ["r"]] } ∅
        [insertCommand, insertArrival false] last := by
  have before : ((started (tlvPlatform false false) { repoPrefixes := [nameOf ["r"]] } ∅).run
      (tlvPlatform false false) [insertCommand]).map (fun repo => (repo.config.dataPrefixes,
        (repo.after (tlvPlatform false false) (insertArrival false)).config.dataPrefixes)) =
      some ([], [[]]) := by decide
  have after : ((started (tlvPlatform false false) { repoPrefixes := [nameOf ["r"]] } ∅).run
      (tlvPlatform false false) [insertCommand, insertArrival false]).map
        (fun repo => repo.config.dataPrefixes) = some [[]] := by decide
  obtain ⟨waiting, passed, both⟩ := Option.map_eq_some_iff.mp before
  obtain ⟨last, reached, prefixes⟩ := Option.map_eq_some_iff.mp after
  obtain ⟨none, empty⟩ := Prod.mk.inj both
  refine ⟨last, reached, prefixes, fun announces => ?_⟩
  have same : registry (waiting.after (tlvPlatform false false) (insertArrival false)) =
      registry waiting := announces.failed waiting 1 { name := nameOf ["a"] } { dbPut := false }
        ⟨[insertCommand], List.prefix_rfl, passed⟩ rfl
  have prefixes := congrArg Prod.fst same
  simp only [registry] at prefixes
  rw [none, empty] at prefixes
  cases prefixes

/-- When the write succeeds, the name of the packet is registered. -/
theorem announcesStored_succeeded :
    ∃ last, (started (tlvPlatform false false) { repoPrefixes := [nameOf ["r"]] } ∅).run
        (tlvPlatform false false) [insertCommand, insertArrival true] = some last ∧
      last.config.dataPrefixes = [nameOf ["a"]] ∧
      AnnouncesStored (tlvPlatform false false) { repoPrefixes := [nameOf ["r"]] } ∅
        [insertCommand, insertArrival true] last := by
  have after : ((started (tlvPlatform false false) { repoPrefixes := [nameOf ["r"]] } ∅).run
      (tlvPlatform false false) [insertCommand, insertArrival true]).map
        (fun repo => repo.config.dataPrefixes) = some [nameOf ["a"]] := by decide
  obtain ⟨last, reached, prefixes⟩ := Option.map_eq_some_iff.mp after
  refine ⟨last, reached, prefixes, (announcesStored_iff (tlvPlatform false false)
    { repoPrefixes := [nameOf ["r"]] } ∅ reached).mpr ?_⟩
  intro s occurrence taken unchecked
  obtain ⟨before, within, _⟩ := taken
  obtain ⟨_, _, _, _, fails, _⟩ := unchecked
  have succeeds : ∀ other ∈ [insertCommand, insertArrival true], other.outcomes.dbPut = true := by
    decide
  rw [succeeds occurrence (within.subset (by simp))] at fails
  cases fails

end FailedWrites

end FastRepo
