/-
The status report of a running repo.

The report sources are registered at the start and polled in the state the repo is in. The report of
the pattern handle is the one that can fail in a run: `isolation` says that publishing keeps the
sources apart exactly when every active pattern is an ndnrtc pattern with a recorder. A counter
pattern that is fetching takes the whole report down (`parseError_counterActive`).
-/

import FastRepo.Handles.StatusReports
import FastRepo.Lib.JsonText
import FastRepo.Repo.CallbackLifetime

namespace FastRepo

open FastRepoImpl StatusHandle CallbackLifetime

namespace StatusIsolation

variable {ν : Type} (platform : Platform)

/-! ### The sources of a run -/

/-- The command prefixes a repo listens under. -/
def listened (config : Config) : List Name := if config.readOnly then [] else config.repoPrefixes

/-- What the reports depend on that a run leaves alone. -/
def statusSide (repo : FastRepoImpl) : List ReportSource × Bytes :=
  (repo.statusHandle.statusReportSources, repo.storage.pimpl.renamePrefix)

/-- What no event changes: the status handle, and the rename prefix. -/
def fixedSide (repo : FastRepoImpl) : StatusHandle × Bytes :=
  (repo.statusHandle, repo.storage.pimpl.renamePrefix)

theorem fixedSide_announced (repo : FastRepoImpl) (outcomes : Outcomes) (name : Name) :
    fixedSide (repo.announced outcomes name) = fixedSide repo :=
  part_announced fixedSide (fun _ _ _ _ => rfl) repo outcomes name

theorem fixedSide_written (repo : FastRepoImpl) (ok : Bool) (writer : Writer) (data : Data) :
    fixedSide (repo.written platform ok writer data).1 = fixedSide repo :=
  congrArg (Prod.mk repo.statusHandle) (written_renamePrefix platform repo ok writer data)

theorem ignoresInserts_fixedSide : IgnoresInserts platform fixedSide where
  send _ _ := rfl
  updateResponse _ _ _ := rfl
  eraseProcess _ _ := rfl
  addInsertInterest _ _ := rfl
  announced := fixedSide_announced
  written repo ok processId data := fixedSide_written platform repo ok (.insert processId) data

theorem ignoresPatterns_fixedSide : IgnoresPatterns platform fixedSide where
  send _ _ := rfl
  written repo ok instanceId data := fixedSide_written platform repo ok (.pattern instanceId) data
  recorded repo ok instanceId data := fixedSide_written platform repo ok (.recorder instanceId) data
  setInstance _ _ _ := rfl
  erasePattern _ _ := rfl
  addTimer _ _ := rfl
  addPatternInterest _ _ := rfl
  announced := fixedSide_announced
  addInstance _ _ := rfl
  addPattern _ _ _ := rfl

theorem fixedSide_after (repo : FastRepoImpl) (occurrence : Occurrence) :
    fixedSide (repo.after platform occurrence) = fixedSide repo := by
  cases insert : occurrence.event.isInsert with
  | true => exact after_of_insert (ignoresInserts_fixedSide platform) repo insert
  | false =>
    refine after_of_not_insert (ignoresPatterns_fixedSide platform) (fun repo event => ?_) repo
      insert
    cases event <;> rfl

/-- In a run the status handle and the rename prefix stay what they are. -/
theorem fixedSide_run {start repo : FastRepoImpl} {occurrences : List Occurrence}
    (reached : start.run platform occurrences = some repo) : fixedSide repo = fixedSide start :=
  run_invariant platform (I := fun repo => fixedSide repo = fixedSide start) rfl
    (fun repo occurrence same => (fixedSide_after platform repo occurrence).trans same) reached

theorem foldl_listenUnder_statusSide (repo : FastRepoImpl) (cmdPrefixes : List Name) :
    statusSide (cmdPrefixes.foldl listenUnder repo) =
      (repo.statusHandle.statusReportSources ++
        cmdPrefixes.flatMap fun _ => [.repo, .patternHandle],
        repo.storage.pimpl.renamePrefix) := by
  induction cmdPrefixes generalizing repo with
  | nil => rw [List.foldl_nil, List.flatMap_nil, List.append_nil, statusSide]
  | cons cmdPrefix cmdPrefixes ih =>
    rw [List.foldl_cons, ih, List.flatMap_cons, ← List.append_assoc]
    rfl

theorem statusSide_started (config : Config) (db : Db) :
    statusSide (started platform config db) =
      ((listened config).flatMap fun _ => [.repo, .patternHandle], config.renamePrefix) := by
  have scan : ∀ repo, statusSide (initializeStorage platform repo) = statusSide repo :=
    fun _ => rfl
  unfold started listened
  rw [scan]
  split
  · rfl
  · exact foldl_listenUnder_statusSide (constructed config db) config.repoPrefixes

/-- Sources: **in every run the sources are the two of each command prefix, and the rename prefix is
the configured one**. -/
theorem statusSide_run (config : Config) (db : Db) {occurrences : List Occurrence}
    {repo : FastRepoImpl}
    (reached : (started platform config db).run platform occurrences = some repo) :
    statusSide repo =
      ((listened config).flatMap fun _ => [.repo, .patternHandle], config.renamePrefix) := by
  have fixed := fixedSide_run platform reached
  rw [← statusSide_started platform config db]
  exact congrArg (fun side => (side.1.statusReportSources, side.2)) fixed

/-! ### What is polled -/

variable (codec : JsonCodec ν) (recorderStats : InstanceId → StreamRecorderStats)

variable {platform codec recorderStats} in
theorem mem_polls {repo : FastRepoImpl} {cmdPrefixes : List Name}
    (sources : repo.statusHandle.statusReportSources =
      cmdPrefixes.flatMap fun _ => [.repo, .patternHandle])
    {result : Except Exn (Bytes × Bytes)} :
    result ∈ polls platform codec recorderStats repo ↔ cmdPrefixes ≠ [] ∧
      (repo.getStatusReport platform codec = result ∨
        PatternHandle.getStatusReport platform codec recorderStats repo = result) := by
  rw [polls, sources, List.mem_map]
  constructor
  · rintro ⟨source, registered, same⟩
    obtain ⟨cmdPrefix, member, _⟩ := List.mem_flatMap.mp registered
    refine ⟨List.ne_nil_of_mem member, ?_⟩
    cases source with
    | repo => exact Or.inl same
    | patternHandle => exact Or.inr same
  · rintro ⟨nonempty, same⟩
    obtain ⟨cmdPrefix, member⟩ := List.exists_mem_of_ne_nil cmdPrefixes nonempty
    rcases same with same | same
    · exact ⟨.repo, List.mem_flatMap.mpr ⟨cmdPrefix, member, by simp⟩, same⟩
    · exact ⟨.patternHandle, List.mem_flatMap.mpr ⟨cmdPrefix, member, by simp⟩, same⟩

/-- The polls are contained exactly when there is a source, the rename prefix is UTF-8 and every
active pattern is recording. -/
theorem contained_polls_iff {repo : FastRepoImpl} {cmdPrefixes : List Name} {renamePrefix : Bytes}
    (side : statusSide repo = (cmdPrefixes.flatMap fun _ => [.repo, .patternHandle], renamePrefix)) :
    Contained codec (polls platform codec recorderStats repo) ↔
      cmdPrefixes ≠ [] ∧ codec.utf8 renamePrefix = true ∧ AllRecording repo := by
  obtain ⟨sources, rename⟩ := Prod.mk.inj side
  subst rename
  constructor
  · intro contained
    obtain ⟨key, text, member⟩ := contained.succeeds
    obtain ⟨nonempty, _⟩ := (mem_polls sources).mp member
    refine ⟨nonempty, ?_, ?_⟩
    · by_contra notUtf8
      have throws : repo.getStatusReport platform codec = _ :=
        repo_throws (Bool.eq_false_iff.mpr notUtf8)
      cases contained.thrown .typeError ((mem_polls sources).mpr ⟨nonempty, Or.inl throws⟩)
    · by_contra notRecording
      obtain ⟨exn, throws, escapes⟩ :=
        patternHandle_throws platform codec recorderStats notRecording
      have caught := contained.thrown exn ((mem_polls sources).mpr ⟨nonempty, Or.inr throws⟩)
      rw [escapes] at caught
      cases caught
  · rintro ⟨nonempty, utf8, recording⟩
    obtain ⟨repoText, repoReports, repoJson⟩ := repo_reports platform utf8
    obtain ⟨patternText, patternReports, patternJson⟩ :=
      patternHandle_reports platform codec recorderStats recording
    have polled : ∀ result, result ∈ polls platform codec recorderStats repo →
        result = .ok (ascii "repo", repoText) ∨
          result = .ok (ascii "pattern-handle", patternText) := by
      intro result member
      rcases ((mem_polls sources).mp member).2 with same | same
      · exact Or.inl (same.symm.trans repoReports)
      · exact Or.inr (same.symm.trans patternReports)
    have returned : ∀ key text, .ok (key, text) ∈ polls platform codec recorderStats repo →
        key = ascii "repo" ∧ text = repoText ∨
          key = ascii "pattern-handle" ∧ text = patternText := by
      intro key text member
      rcases polled _ member with same | same
      · exact Or.inl (Prod.mk.inj (Except.ok.inj same))
      · exact Or.inr (Prod.mk.inj (Except.ok.inj same))
    refine ⟨fun exn member => ?_, fun key text member => ?_, ⟨_, _, (mem_polls sources).mpr
      ⟨nonempty, Or.inl repoReports⟩⟩, fun key first second one two => ?_, fun key text member => ?_⟩
    · rcases polled _ member with same | same <;> cases same
    · rcases returned key text member with ⟨_, rfl⟩ | ⟨_, rfl⟩
      · exact repoJson
      · exact patternJson
    · rcases returned key first one with ⟨rfl, rfl⟩ | ⟨rfl, rfl⟩ <;>
        rcases returned _ second two with ⟨same, rfl⟩ | ⟨same, rfl⟩ <;>
          first | rfl | exact absurd same (by decide)
    · rcases returned key text member with ⟨rfl, _⟩ | ⟨rfl, _⟩ <;> exact utf8_ascii (by decide)

/-! ### Isolation -/

theorem listened_ne_nil_iff (config : Config) :
    listened config ≠ [] ↔ config.readOnly = false ∧ config.repoPrefixes ≠ [] := by
  unfold listened
  cases config.readOnly <;> simp

/-- Isolation: **whatever the sources return or throw, their reports are published apart exactly
when the polls are contained; and in every state a run reaches, this is so exactly when the repo
listens for commands, its rename prefix is UTF-8 and every active pattern is an ndnrtc pattern with
a recorder**. -/
theorem isolation :
    (∀ polls : List (Except Exn (Bytes × Bytes)),
      Isolated codec polls ↔ Contained codec polls) ∧
    ∀ (config : Config) (db : Db) (occurrences : List Occurrence) (repo : FastRepoImpl),
      (started platform config db).run platform occurrences = some repo →
        (Isolated codec (polls platform codec recorderStats repo) ↔
          (config.readOnly = false ∧ config.repoPrefixes ≠ []) ∧
            codec.utf8 config.renamePrefix = true ∧ AllRecording repo) := by
  refine ⟨isolated_iff_contained, fun config db occurrences repo reached => ?_⟩
  rw [isolated_iff_contained, contained_polls_iff platform codec recorderStats
    (statusSide_run platform config db reached), listened_ne_nil_iff]

/-- A repo with the command prefix `/r` starts a counter pattern for `/p`: polled while the pattern
fetches, the status handle exits by an exception that it does not catch. -/
theorem not_isolated_counterActive :
    ∃ repo, smallRepo.run (tlvPlatform false false) [startCounter] = some repo ∧
      (∃ exn, publishStatus jsonText (polls (tlvPlatform false false) jsonText (fun _ => {}) repo) =
        .error exn ∧ exn.isRuntimeError = false) ∧
      ¬Isolated jsonText (polls (tlvPlatform false false) jsonText (fun _ => {}) repo) := by
  have active : (smallRepo.run (tlvPlatform false false) [startCounter]).map
      (fun repo => (repo.patterns[nameOf ["p"]]?, repo.instances)) =
        some (some 0, [.counter ⟨true, 0, nameOf ["p"]⟩]) := by decide
  obtain ⟨repo, reached, same⟩ := Option.map_eq_some_iff.mp active
  obtain ⟨found, instances⟩ := Prod.mk.inj same
  have notRecording : ¬AllRecording repo := by
    intro recording
    obtain ⟨stream, recorder⟩ := recording _ 0 found
    rw [instances] at recorder
    cases recorder
  obtain ⟨exn, threw, escapes⟩ :=
    patternHandle_throws (tlvPlatform false false) jsonText (fun _ => {}) notRecording
  obtain ⟨sources, _⟩ := Prod.mk.inj (statusSide_run (tlvPlatform false false) _ ∅ reached)
  have polled := (mem_polls sources).mpr ⟨List.cons_ne_nil _ _, Or.inr threw⟩
  obtain ⟨thrown, ends, uncaught⟩ := publishStatus_throws polled escapes
  refine ⟨repo, reached, ⟨thrown, ends, uncaught⟩, ?_⟩
  rintro ⟨text, _, published, _⟩
  rw [ends] at published
  cases published

/-- The command that starts an ndnrtc pattern for the stream `/p/ndnrtc`. -/
def startNdnrtc : Occurrence :=
  ⟨.patternCommand (nameOf ["r", "pattern"]) (commandInterest (nameOf ["r", "pattern"])
    (patternParameter (ascii "ndnrtc3") [ascii "p", ascii "ndnrtc"])), {}⟩

/-- Polled while an ndnrtc pattern records, the status handle publishes both reports. -/
theorem isolated_ndnrtcActive :
    ∃ repo, (started (tlvPlatform true false) { repoPrefixes := [nameOf ["r"]] } ∅).run
        (tlvPlatform true false) [startNdnrtc] = some repo ∧
      repo.patterns[nameOf ["p", "ndnrtc"]]? = some 0 ∧
      Isolated jsonText (polls (tlvPlatform true false) jsonText (fun _ => {}) repo) := by
  have active : ((started (tlvPlatform true false) { repoPrefixes := [nameOf ["r"]] } ∅).run
      (tlvPlatform true false) [startNdnrtc]).map
        (fun repo => (repo.patterns.toList, repo.instances)) =
      some ([(nameOf ["p", "ndnrtc"], 0)], [.ndnrtc (some (nameOf ["p", "ndnrtc"]))]) := by decide
  obtain ⟨repo, reached, same⟩ := Option.map_eq_some_iff.mp active
  obtain ⟨entries, instances⟩ := Prod.mk.inj same
  have recording : AllRecording repo := by
    intro fetchPrefix instanceId found
    have member := Std.TreeMap.mem_toList_iff_getElem?_eq_some.mpr found
    rw [entries] at member
    obtain ⟨rfl, rfl⟩ := Prod.mk.inj (List.mem_singleton.mp member)
    exact ⟨nameOf ["p", "ndnrtc"], by rw [instances]; rfl⟩
  refine ⟨repo, reached, ?_, ((isolation (tlvPlatform true false) jsonText fun _ => {}).2 _ ∅ _ repo
    reached).mpr ⟨⟨rfl, List.cons_ne_nil _ _⟩, by decide, recording⟩⟩
  refine Std.TreeMap.mem_toList_iff_getElem?_eq_some.mp ?_
  rw [entries]
  exact List.mem_singleton_self _

end StatusIsolation

end FastRepo
