/-
The status reports.

There are three layers: a pattern object reports to the pattern handle, which parses the report and
puts it in its own, and the pattern handle and the repo report to the status handle.

* `report_isJson_iff`: the report of a pattern object is JSON only if it is an ndnrtc pattern with a
  recorder. The text of a counter pattern is not JSON.
* `patternHandle_reports`, `patternHandle_throws`, `repo_reports`, `repo_throws`: when the two
  sources succeed; when they throw, it is nothing the status handle catches.
-/

import FastRepo.Handles.FetchPattern
import FastRepo.Handles.StatusHandle

namespace FastRepo

open StatusHandle

variable {ν : Type} (platform : Platform) (codec : JsonCodec ν)

/-! ### The patterns -/

/-- `StreamRecorder::Stats`, the counters a pattern reports. -/
structure StreamRecorderStats where
  manifestsStored : Int := 0
  streamMetaStored : Int := 0
  threadMetaStored : Int := 0
  latestKeyRequested : Int := 0
  latestKeyFetched : Int := 0
  keyStored : Int := 0
  keyFailed : Int := 0
  latestDeltaRequested : Int := 0
  latestDeltaFetched : Int := 0
  deltaStored : Int := 0
  deltaFailed : Int := 0
  pendingFrames : Int := 0

/-- `CounterPattern::getStatusReport`. -/
def CounterPattern.getStatusReport (pattern : CounterPattern) : Bytes :=
  ascii "\x7b'counter':" ++ Decimal.decimal pattern.counter ++ ascii ";\x7d"

/-- The object that is made by assigning the given keys one after the other. -/
def assigned (entries : List (String × Json ν)) : Std.TreeMap Bytes (Json ν) :=
  Gather.insertAll (entries.map fun entry => (ascii entry.1, entry.2))

/-- The `json` value of an integer. -/
def jsonInt (n : Int) : Json ν := .number (codec.ofInt n)

/-- The `json` object of the given integers. -/
def jsonInts (entries : List (String × Int)) : Json ν :=
  .ofMap (assigned (entries.map fun entry => (entry.1, jsonInt codec entry.2)))

/-- `NdnrtcPattern::getStatusReport` with a recorder that has the given statistics. -/
def NdnrtcPattern.getStatusReport (streamStats : StreamRecorderStats) : Except Exn Bytes :=
  dumpStatus codec (assigned
    [("manifests", jsonInt codec streamStats.manifestsStored),
      ("meta", jsonInts codec
        [("stream", streamStats.streamMetaStored), ("thread", streamStats.threadMetaStored)]),
      ("key", jsonInts codec
        [("requested_no", streamStats.latestKeyRequested),
          ("received_no", streamStats.latestKeyFetched), ("fetched", streamStats.keyStored),
          ("failed", streamStats.keyFailed)]),
      ("delta", jsonInts codec
        [("requested_no", streamStats.latestDeltaRequested),
          ("received_no", streamStats.latestDeltaFetched), ("fetched", streamStats.deltaStored),
          ("failed", streamStats.deltaFailed)]),
      ("frames_pending", jsonInt codec streamStats.pendingFrames)])

/-- `IFetchPattern::getStatusReport`. An ndnrtc pattern asks its recorder without checking that it
has one. -/
def FetchPattern.getStatusReport (streamStats : StreamRecorderStats) :
    FetchPattern → Except Exn Bytes
  | .counter pattern => .ok pattern.getStatusReport
  | .ndnrtc none => .error .nullPointer
  | .ndnrtc (some _) => NdnrtcPattern.getStatusReport codec streamStats
  | .gobj => .ok (ascii "n/a")

/-! ### The two sources -/

/-- An array made by `push_back`: without items there is no entry. -/
def arrayEntry (key : String) (items : List (Json ν)) : List (String × Json ν) :=
  if items.isEmpty then [] else [(key, .array items)]

/-- The array of the URIs of some names. -/
def uriItems (names : List Name) : List (Json ν) :=
  names.map fun name => .string (platform.ndn.uri.toUri name)

/-- The report of the pattern object of an entry. Every entry has an object. -/
def entryReport (recorderStats : InstanceId → StreamRecorderStats) (repo : FastRepoImpl)
    (instanceId : InstanceId) : Except Exn Bytes :=
  match repo.instances[instanceId]? with
  | some pattern => pattern.getStatusReport codec (recorderStats instanceId)
  | none => .error .nullPointer

/-- The reports of the active patterns, each with the URI of its fetch prefix. -/
def entryReports (recorderStats : InstanceId → StreamRecorderStats) (repo : FastRepoImpl) :
    List (Except Exn (Bytes × Bytes)) :=
  repo.patterns.toList.map fun entry =>
    (entryReport codec recorderStats repo entry.2).map fun text =>
      (platform.ndn.uri.toUri entry.1, text)

/-- What `status["active"]` is given: nothing is caught. -/
def activeReports (recorderStats : InstanceId → StreamRecorderStats) (repo : FastRepoImpl) :
    Except Exn (Std.TreeMap Bytes (Json ν)) :=
  Gather.gatherAll (fun _ => false)
    ((entryReports platform codec recorderStats repo).map (readReport codec))

/-- What `PatternHandle::getStatusReport` assigns. -/
def PatternHandle.statusEntries (active : Std.TreeMap Bytes (Json ν)) : List (String × Json ν) :=
  arrayEntry "supported" (uriItems platform (PatternFactory.getSupportedPatterns platform)) ++
    if active.isEmpty then [] else [("active", .ofMap active)]

/-- `PatternHandle::getStatusReport`. -/
def PatternHandle.getStatusReport (recorderStats : InstanceId → StreamRecorderStats)
    (repo : FastRepoImpl) : Except Exn (Bytes × Bytes) :=
  match activeReports platform codec recorderStats repo with
  | .error exn => .error exn
  | .ok active =>
    (dumpStatus codec (assigned (statusEntries platform active))).map fun text =>
      (ascii "pattern-handle", text)

/-- What `FastRepoImpl::getStatusReport` assigns to `status["storage"]`. -/
def FastRepoImpl.storageEntries (repo : FastRepoImpl) : List (String × Json ν) :=
  [("access", .string (ascii (if repo.config.readOnly then "read-only" else "read-write"))),
    ("nKeys", jsonInt codec repo.storage.pimpl.stats.nKeys),
    ("size", jsonInt codec repo.storage.pimpl.stats.valueSizeBytes),
    ("rename", .string repo.storage.pimpl.renamePrefix)]

/-- What `FastRepoImpl::getStatusReport` assigns. -/
def FastRepoImpl.statusEntries (repo : FastRepoImpl) : List (String × Json ν) :=
  arrayEntry "control" (uriItems platform repo.config.repoPrefixes) ++
    (arrayEntry "data" (uriItems platform repo.config.dataPrefixes) ++
      [("storage", .ofMap (assigned (repo.storageEntries codec)))])

/-- `FastRepoImpl::getStatusReport`. -/
def FastRepoImpl.getStatusReport (repo : FastRepoImpl) : Except Exn (Bytes × Bytes) :=
  (dumpStatus codec (assigned (repo.statusEntries platform codec))).map fun text =>
    (ascii "repo", text)

/-- What a source returns or throws when it is polled. -/
def poll (recorderStats : InstanceId → StreamRecorderStats) (repo : FastRepoImpl) :
    ReportSource → Except Exn (Bytes × Bytes)
  | .repo => repo.getStatusReport platform codec
  | .patternHandle => PatternHandle.getStatusReport platform codec recorderStats repo

/-- What the registered sources return or throw. -/
def polls (recorderStats : InstanceId → StreamRecorderStats) (repo : FastRepoImpl) :
    List (Except Exn (Bytes × Bytes)) :=
  repo.statusHandle.statusReportSources.map (poll platform codec recorderStats repo)

/-! ### Clean objects -/

section Clean

variable {platform codec}

/-- The key is ASCII. -/
def asciiKey (key : String) : Bool := (ascii key).all fun byte => byte < 0x80

theorem utf8_ascii {key : String} (isAscii : asciiKey key = true) :
    codec.utf8 (ascii key) = true :=
  codec.utf8_of_ascii _ (by simpa [asciiKey] using isAscii)

theorem clean_assigned {entries : List (String × Json ν)}
    (each : ∀ entry ∈ entries, asciiKey entry.1 = true ∧ codec.Clean entry.2) :
    codec.CleanMap (assigned entries) :=
  cleanMap_insertAll (List.forall_mem_map.mpr fun entry member =>
    ⟨utf8_ascii (each entry member).1, (each entry member).2⟩)

theorem clean_jsonInts {entries : List (String × Int)}
    (keys : ∀ entry ∈ entries, asciiKey entry.1 = true) : codec.Clean (jsonInts codec entries) :=
  codec.clean_ofMap (clean_assigned (List.forall_mem_map.mpr fun entry member =>
    ⟨keys entry member, codec.clean_number _⟩))

theorem clean_arrayEntry {key : String} {items : List (Json ν)} (isAscii : asciiKey key = true)
    (clean : codec.Clean (.array items)) :
    ∀ entry ∈ arrayEntry key items, asciiKey entry.1 = true ∧ codec.Clean entry.2 := by
  intro entry member
  unfold arrayEntry at member
  split at member
  · cases member
  · rw [List.mem_singleton.mp member]
    exact ⟨isAscii, clean⟩

theorem clean_uriItems (names : List Name) :
    codec.Clean (.array (uriItems platform names)) :=
  codec.clean_array (List.forall_mem_map.mpr fun name _ =>
    codec.clean_string (codec.utf8_of_ascii _ (platform.ndn.uri.ascii_toUri name)))

/-- Clean entries are dumped as JSON. -/
theorem exists_json {entries : Std.TreeMap Bytes (Json ν)} (clean : codec.CleanMap entries) :
    ∃ text, dumpStatus codec entries = .ok text ∧ (codec.parse text).isSome = true := by
  obtain ⟨text, dumped, read⟩ := exists_dumpStatus clean
  exact ⟨text, dumped, Option.isSome_of_eq_some read⟩

end Clean

/-! ### What the patterns report -/

section Patterns

variable {codec}

/-- A counter pattern opens its text with a single quote behind the brace: that is not JSON. -/
theorem parse_counterReport (pattern : CounterPattern) :
    codec.parse pattern.getStatusReport = none :=
  codec.object_start 0x27 _ (by decide) (by decide) rfl

/-- The text of a generalized object pattern is not JSON either. -/
theorem parse_gobjReport : codec.parse (ascii "n/a") = none :=
  codec.null_start 0x2F _ (by decide)

variable (codec) in
theorem ndnrtc_reports (streamStats : StreamRecorderStats) :
    ∃ text, NdnrtcPattern.getStatusReport codec streamStats = .ok text ∧
      (codec.parse text).isSome = true := by
  refine exists_json (clean_assigned ?_)
  simp only [List.forall_mem_cons]
  refine ⟨⟨by decide, codec.clean_number _⟩, ⟨by decide, clean_jsonInts ?_⟩,
    ⟨by decide, clean_jsonInts ?_⟩, ⟨by decide, clean_jsonInts ?_⟩,
    ⟨by decide, codec.clean_number _⟩, fun _ member => absurd member List.not_mem_nil⟩
  all_goals
    simp only [List.forall_mem_cons]
    decide

/-- Pattern reports: **only an ndnrtc pattern with a recorder reports JSON**. -/
theorem report_isJson_iff (streamStats : StreamRecorderStats) (pattern : FetchPattern) :
    (∃ text, pattern.getStatusReport codec streamStats = .ok text ∧
      (codec.parse text).isSome = true) ↔ ∃ stream, pattern = .ndnrtc (some stream) := by
  constructor
  · rintro ⟨text, reports, isJson⟩
    cases pattern with
    | counter pattern =>
      cases reports
      rw [parse_counterReport] at isJson
      cases isJson
    | ndnrtc streamRecorder =>
      cases streamRecorder with
      | none => cases reports
      | some stream => exact ⟨stream, rfl⟩
    | gobj =>
      cases reports
      rw [parse_gobjReport] at isJson
      cases isJson
  · rintro ⟨stream, rfl⟩
    exact ndnrtc_reports codec streamStats

/-- What a pattern object throws when it is asked for its report is no runtime error. -/
theorem not_runtimeError_of_report {streamStats : StreamRecorderStats} {pattern : FetchPattern}
    {exn : Exn} (threw : pattern.getStatusReport codec streamStats = .error exn) :
    exn.isRuntimeError = false := by
  cases pattern with
  | ndnrtc streamRecorder =>
    cases streamRecorder with
    | none =>
      cases threw
      rfl
    | some stream =>
      obtain ⟨text, reports, _⟩ := ndnrtc_reports codec streamStats
      rw [FetchPattern.getStatusReport, reports] at threw
      cases threw
  | _ => cases threw

end Patterns

/-! ### What the pattern handle reports -/

/-- Every active pattern is an ndnrtc pattern with a recorder. -/
def AllRecording (repo : FastRepoImpl) : Prop :=
  ∀ (fetchPrefix : Name) (instanceId : InstanceId), repo.patterns[fetchPrefix]? = some instanceId →
    ∃ stream, repo.instances[instanceId]? = some (.ndnrtc (some stream))

section PatternHandle

variable {platform codec} {recorderStats : InstanceId → StreamRecorderStats} {repo : FastRepoImpl}

theorem mem_entryReports {result : Except Exn (Bytes × Bytes)} :
    result ∈ entryReports platform codec recorderStats repo ↔
      ∃ (fetchPrefix : Name) (instanceId : InstanceId),
        repo.patterns[fetchPrefix]? = some instanceId ∧
          (entryReport codec recorderStats repo instanceId).map
            (fun text => (platform.ndn.uri.toUri fetchPrefix, text)) = result := by
  rw [entryReports, List.mem_map]
  constructor
  · rintro ⟨⟨fetchPrefix, instanceId⟩, member, same⟩
    exact ⟨fetchPrefix, instanceId, Std.TreeMap.mem_toList_iff_getElem?_eq_some.mp member, same⟩
  · rintro ⟨fetchPrefix, instanceId, found, same⟩
    exact ⟨(fetchPrefix, instanceId), Std.TreeMap.mem_toList_iff_getElem?_eq_some.mpr found, same⟩

/-- The report of an entry is JSON exactly when its pattern is recording. -/
theorem entryReport_isJson_iff (instanceId : InstanceId) :
    (∃ text, entryReport codec recorderStats repo instanceId = .ok text ∧
      (codec.parse text).isSome = true) ↔
        ∃ stream, repo.instances[instanceId]? = some (.ndnrtc (some stream)) := by
  unfold entryReport
  cases repo.instances[instanceId]? with
  | none => simp
  | some pattern => simp [report_isJson_iff]

theorem not_runtimeError_of_entryReport {instanceId : InstanceId} {exn : Exn}
    (threw : entryReport codec recorderStats repo instanceId = .error exn) :
    exn.isRuntimeError = false := by
  unfold entryReport at threw
  split at threw
  · exact not_runtimeError_of_report threw
  · cases threw
    rfl

variable (platform codec recorderStats) in
theorem activeReports_of_recording (recording : AllRecording repo) :
    ∃ active, activeReports platform codec recorderStats repo = .ok active ∧
      codec.CleanMap active := by
  have caught : ∀ exn, .error exn ∈
      (entryReports platform codec recorderStats repo).map (readReport codec) → false = true := by
    refine (failures_caught_iff rfl).mpr ⟨fun exn failed => ?_, fun key text reported => ?_⟩
    · obtain ⟨fetchPrefix, instanceId, found, same⟩ := mem_entryReports.mp failed
      obtain ⟨text, reports, _⟩ := (entryReport_isJson_iff instanceId).mpr
        (recording fetchPrefix instanceId found)
      rw [reports] at same
      cases same
    · obtain ⟨fetchPrefix, instanceId, found, same⟩ := mem_entryReports.mp reported
      obtain ⟨other, reports, isJson⟩ := (entryReport_isJson_iff instanceId).mpr
        (recording fetchPrefix instanceId found)
      rw [reports] at same
      cases same
      exact isJson
  refine ⟨_, Gather.gatherAll_eq_ok.mpr ⟨caught, rfl⟩, cleanMap_insertAll fun entry member => ?_⟩
  obtain ⟨text, reported, parsed⟩ := mem_reportsOf.mp member
  refine ⟨?_, codec.clean_parsed parsed⟩
  obtain ⟨fetchPrefix, instanceId, _, same⟩ := mem_entryReports.mp reported
  cases reports : entryReport codec recorderStats repo instanceId with
  | error exn =>
    rw [reports] at same
    cases same
  | ok text =>
    rw [reports] at same
    rw [← (Prod.mk.inj (Except.ok.inj same)).1]
    exact codec.utf8_of_ascii _ (platform.ndn.uri.ascii_toUri fetchPrefix)

theorem activeReports_of_not_recording (notRecording : ¬AllRecording repo) :
    ∃ exn, activeReports platform codec recorderStats repo = .error exn ∧
      exn.isRuntimeError = false := by
  cases gathered : activeReports platform codec recorderStats repo with
  | ok active =>
    obtain ⟨caught, _⟩ := Gather.gatherAll_eq_ok.mp gathered
    obtain ⟨thrown, isJson⟩ := (failures_caught_iff rfl).mp caught
    refine absurd (fun fetchPrefix instanceId found => ?_) notRecording
    cases reports : entryReport codec recorderStats repo instanceId with
    | error exn =>
      cases thrown exn (mem_entryReports.mpr ⟨fetchPrefix, instanceId, found, by rw [reports]; rfl⟩)
    | ok text =>
      refine (entryReport_isJson_iff instanceId).mp ⟨text, reports, ?_⟩
      exact isJson _ text
        (mem_entryReports.mpr ⟨fetchPrefix, instanceId, found, by rw [reports]; rfl⟩)
  | error exn =>
    refine ⟨exn, rfl, ?_⟩
    obtain ⟨failed, _⟩ := Gather.mem_of_gatherAll_error gathered
    rcases mem_failedReports failed with threw | ⟨rfl, _⟩
    · obtain ⟨fetchPrefix, instanceId, _, same⟩ := mem_entryReports.mp threw
      cases reports : entryReport codec recorderStats repo instanceId with
      | error other =>
        rw [reports] at same
        cases same
        exact not_runtimeError_of_entryReport reports
      | ok text =>
        rw [reports] at same
        cases same
    · rfl

variable (platform codec recorderStats) in
/-- The pattern handle reports while every active pattern is recording. -/
theorem patternHandle_reports (recording : AllRecording repo) :
    ∃ text, PatternHandle.getStatusReport platform codec recorderStats repo =
        .ok (ascii "pattern-handle", text) ∧ (codec.parse text).isSome = true := by
  obtain ⟨active, gathered, clean⟩ :=
    activeReports_of_recording platform codec recorderStats recording
  have each : ∀ entry ∈ PatternHandle.statusEntries platform active,
      asciiKey entry.1 = true ∧ codec.Clean entry.2 := by
    refine List.forall_mem_append.mpr
      ⟨clean_arrayEntry (by decide) (clean_uriItems _), fun entry member => ?_⟩
    split at member
    · cases member
    · rw [List.mem_singleton.mp member]
      exact ⟨show asciiKey "active" = true by decide, codec.clean_ofMap clean⟩
  obtain ⟨text, dumped, isJson⟩ := exists_json (clean_assigned each)
  refine ⟨text, ?_, isJson⟩
  simp only [PatternHandle.getStatusReport, gathered, dumped]
  rfl

variable (platform codec recorderStats) in
/-- Otherwise it throws, and nothing that the status handle catches. -/
theorem patternHandle_throws (notRecording : ¬AllRecording repo) :
    ∃ exn, PatternHandle.getStatusReport platform codec recorderStats repo = .error exn ∧
      exn.isRuntimeError = false := by
  obtain ⟨exn, gathered, escapes⟩ := activeReports_of_not_recording notRecording
  refine ⟨exn, ?_, escapes⟩
  rw [PatternHandle.getStatusReport, gathered]

end PatternHandle

/-! ### What the repo reports -/

section Repo

variable {platform codec} {repo : FastRepoImpl}

variable (platform) in
theorem repo_reports (utf8 : codec.utf8 repo.storage.pimpl.renamePrefix = true) :
    ∃ text, repo.getStatusReport platform codec = .ok (ascii "repo", text) ∧
      (codec.parse text).isSome = true := by
  have storage : ∀ entry ∈ repo.storageEntries codec,
      asciiKey entry.1 = true ∧ codec.Clean entry.2 := by
    simp only [FastRepoImpl.storageEntries, List.forall_mem_cons]
    refine ⟨⟨by decide, codec.clean_string (utf8_ascii ?_)⟩, ⟨by decide, codec.clean_number _⟩,
      ⟨by decide, codec.clean_number _⟩, ⟨by decide, codec.clean_string utf8⟩,
      fun _ member => absurd member List.not_mem_nil⟩
    split <;> decide
  have each : ∀ entry ∈ repo.statusEntries platform codec,
      asciiKey entry.1 = true ∧ codec.Clean entry.2 := by
    refine List.forall_mem_append.mpr ⟨clean_arrayEntry (by decide) (clean_uriItems _),
      List.forall_mem_append.mpr ⟨clean_arrayEntry (by decide) (clean_uriItems _),
        fun entry member => ?_⟩⟩
    rw [List.mem_singleton.mp member]
    exact ⟨show asciiKey "storage" = true by decide, codec.clean_ofMap (clean_assigned storage)⟩
  obtain ⟨text, dumped, isJson⟩ := exists_json (clean_assigned each)
  refine ⟨text, ?_, isJson⟩
  rw [FastRepoImpl.getStatusReport, dumped]
  rfl

/-- The entry that is assigned last is there. -/
theorem assigned_concat (entries : List (String × Json ν)) (key : String) (value : Json ν) :
    (assigned (entries ++ [(key, value)]))[ascii key]? = some value := by
  rw [assigned, List.map_append]
  exact Gather.getElem?_insertAll_concat _ (ascii key, value)

/-- A rename prefix that is not UTF-8 makes the dump throw. -/
theorem repo_throws (notUtf8 : codec.utf8 repo.storage.pimpl.renamePrefix = false) :
    repo.getStatusReport platform codec = .error .typeError := by
  cases dumped : dumpStatus codec (assigned (repo.statusEntries platform codec)) with
  | error exn =>
    rw [FastRepoImpl.getStatusReport, dumped, error_of_dumpStatus dumped]
    rfl
  | ok text =>
    have storage : (assigned (repo.statusEntries platform codec))[ascii "storage"]? =
        some (.ofMap (assigned (repo.storageEntries codec))) := by
      rw [FastRepoImpl.statusEntries, ← List.append_assoc]
      exact assigned_concat _ "storage" _
    have rename : (assigned (repo.storageEntries codec))[ascii "rename"]? =
        some (.string repo.storage.pimpl.renamePrefix) := assigned_concat [_, _, _] "rename" _
    have strings := (strings_of_dumpStatus dumped storage).2
    have utf8 : codec.utf8 repo.storage.pimpl.renamePrefix = true :=
      ((Json.stringsAre_ofMap codec.utf8 _).mp strings _ _ rename).2
    rw [notUtf8] at utf8
    cases utf8

end Repo

end FastRepo
