/-
What the published status says of the repo.

A client parses the status text and looks into it by keys: `namesAt` reads an array of URIs as
names. An array the repo never pushed to is absent, and reads as no names.

* `truthful_run`: whenever the status is published, what a client reads in it is what the repo is
  doing: the command prefixes it listens under, its data prefixes, the counters and the rename
  prefix of its storage, and the patterns that have an entry. The data prefixes are those it listens
  for when the registrations return.
-/

import FastRepo.Repo.Registrations
import FastRepo.Repo.StatusIsolation

namespace FastRepo

open Exits FastRepoImpl StatusHandle StatusIsolation

namespace StatusTruth

variable {ν : Type} (platform : Platform) (codec : JsonCodec ν)

/-! ### Reading a status -/

/-- The names an array of URIs stands for. -/
def namesOf (items : List (Json ν)) : List Name :=
  items.filterMap fun item => match item with
    | .string text => some (platform.ndn.uri.ofUri text)
    | _ => none

/-- The names at a path of a status. -/
def namesAt (status : Json ν) (path : List String) : List Name :=
  match status.find (path.map ascii) with
  | some (.array items) => namesOf platform items
  | _ => []

/-- What a status says of a repo is true of it. -/
structure Truthful (config : Config) (repo : FastRepoImpl) (status : Json ν) : Prop where
  control : namesAt platform status ["repo", "control"] = config.repoPrefixes
  data : namesAt platform status ["repo", "data"] = repo.config.dataPrefixes
  access : status.find [ascii "repo", ascii "storage", ascii "access"] =
    some (.string (ascii "read-write"))
  nKeys : status.find [ascii "repo", ascii "storage", ascii "nKeys"] =
    some (jsonInt codec repo.storage.pimpl.stats.nKeys)
  size : status.find [ascii "repo", ascii "storage", ascii "size"] =
    some (jsonInt codec repo.storage.pimpl.stats.valueSizeBytes)
  rename : status.find [ascii "repo", ascii "storage", ascii "rename"] =
    some (.string config.renamePrefix)
  supported : namesAt platform status ["pattern-handle", "supported"] =
    PatternFactory.getSupportedPatterns platform
  active : ∀ fetchPrefix, (status.find [ascii "pattern-handle", ascii "active",
    platform.ndn.uri.toUri fetchPrefix]).isSome = true ↔ repo.patterns.contains fetchPrefix = true

section Reading

variable {platform codec}

theorem namesOf_uriItems (names : List Name) :
    namesOf platform (uriItems (ν := ν) platform names) = names := by
  unfold namesOf uriItems
  rw [List.filterMap_map]
  simp

/-- The entry of an array, with what is behind it under another key. -/
theorem lookup_arrayEntry (key : String) (items : List (Json ν)) (rest : List (Bytes × Json ν))
    (absent : rest.lookup (ascii key) = none) :
    (((arrayEntry key items).map fun entry => (ascii entry.1, entry.2)) ++ rest).lookup
        (ascii key) = if items.isEmpty then none else some (.array items) := by
  unfold arrayEntry
  split
  · exact absent
  · exact List.lookup_cons_self

theorem lookup_last (key : String) (value : Json ν) :
    (([(key, value)] : List (String × Json ν)).map fun entry => (ascii entry.1, entry.2)).lookup
      (ascii key) = some value := List.lookup_cons_self

theorem lookup_skip {key : Bytes} {other : String} (different : key ≠ ascii other)
    (value : Json ν) (rest : List (String × Json ν)) :
    (((other, value) :: rest).map fun entry => (ascii entry.1, entry.2)).lookup key =
      (rest.map fun entry => (ascii entry.1, entry.2)).lookup key := by
  rw [List.map_cons, List.lookup_cons, beq_false_of_ne different]

theorem lookup_last_of_ne {key : String} {other : Bytes} (different : other ≠ ascii key)
    (value : Json ν) :
    (([(key, value)] : List (String × Json ν)).map fun entry => (ascii entry.1, entry.2)).lookup
      other = none :=
  List.lookup_eq_none_iff.mpr fun _ member =>
    bne_iff_ne.mpr (List.mem_singleton.mp member ▸ different)

/-- An array is passed over by a lookup under another key. -/
theorem lookup_arrayEntry_of_ne {key : String} {other : Bytes} (different : other ≠ ascii key)
    (items : List (Json ν)) (rest : List (Bytes × Json ν)) :
    (((arrayEntry key items).map fun entry => (ascii entry.1, entry.2)) ++ rest).lookup other =
      rest.lookup other := by
  rw [List.lookup_append]
  have none : ((arrayEntry key items).map fun entry => (ascii entry.1, entry.2)).lookup other =
      none := by
    refine List.lookup_eq_none_iff.mpr fun entry member => bne_iff_ne.mpr ?_
    unfold arrayEntry at member
    split at member
    · cases member
    · rw [List.map_singleton, List.mem_singleton] at member
      exact member ▸ different
  rw [none, Option.none_or]

theorem field_statusJson (entries : Std.TreeMap Bytes (Json ν)) (key : Bytes) :
    (statusJson entries).field key = entries[key]? := by
  unfold statusJson
  split
  · rename_i empty
    exact (Std.TreeMap.getElem?_of_isEmpty empty).symm
  · exact Json.field_ofMap entries key

/-- An array that was pushed the names, or that is absent without names, reads as the names. -/
theorem namesAt_of_find {status : Json ν} {path : List String} {names : List Name}
    (found : status.find (path.map ascii) =
      if (uriItems (ν := ν) platform names).isEmpty then none
      else some (.array (uriItems platform names))) : namesAt platform status path = names := by
  unfold namesAt
  rw [found]
  cases names with
  | nil => rfl
  | cons name names => exact namesOf_uriItems (name :: names)

theorem find_of_field {status inner : Json ν} {key : Bytes} (found : status.field key = some inner)
    (path : List Bytes) : status.find (key :: path) = inner.find path := by
  rw [Json.find, found]
  rfl

theorem namesAt_of_field {status inner : Json ν} {key : String}
    (found : status.field (ascii key) = some inner) (path : List String) :
    namesAt platform status (key :: path) = namesAt platform inner path := by
  unfold namesAt
  rw [List.map_cons, find_of_field found]

theorem ordered_uriItems (names : List Name) :
    (Json.array (uriItems (ν := ν) platform names)).ordered = true := by
  rw [Json.ordered, Json.every_array, List.all_eq_true]
  rintro item member
  obtain ⟨name, _, rfl⟩ := List.mem_map.mp member
  rfl

theorem ordered_assigned {entries : List (String × Json ν)}
    (each : ∀ entry ∈ entries, entry.2.ordered = true) (key : Bytes) (value : Json ν)
    (found : (assigned entries)[key]? = some value) : value.ordered = true := by
  obtain ⟨entry, member, same⟩ :=
    List.mem_map.mp ((Gather.insertAll_spec _).1 key value found)
  cases same
  exact each entry member

theorem ordered_arrayEntry (key : String) (names : List Name) :
    ∀ entry ∈ arrayEntry key (uriItems (ν := ν) platform names), entry.2.ordered = true := by
  intro entry member
  unfold arrayEntry at member
  split at member
  · cases member
  · rw [List.mem_singleton.mp member]
    exact ordered_uriItems names

end Reading

/-! ### The report of the repo -/

section Repo

variable {platform codec} {repo : FastRepoImpl} {key text : Bytes}

/-- What the repo reports reads back as what it assigned. -/
theorem parse_of_repoReport (reports : repo.getStatusReport platform codec = .ok (key, text)) :
    codec.parse text = some (statusJson (assigned (repo.statusEntries platform codec))) := by
  unfold FastRepoImpl.getStatusReport at reports
  cases dumped : dumpStatus codec (assigned (repo.statusEntries platform codec)) with
  | error exn =>
    rw [dumped] at reports
    cases reports
  | ok other =>
    rw [dumped] at reports
    cases reports
    refine parse_of_dumpStatus dumped (ordered_assigned ?_)
    refine List.forall_mem_append.mpr ⟨ordered_arrayEntry _ _, List.forall_mem_append.mpr
      ⟨ordered_arrayEntry _ _, fun entry member => ?_⟩⟩
    rw [List.mem_singleton.mp member]
    refine Json.ordered_ofMap (ordered_assigned ?_)
    simp only [FastRepoImpl.storageEntries, List.forall_mem_cons]
    exact ⟨rfl, rfl, rfl, rfl, fun _ member => absurd member List.not_mem_nil⟩

theorem lookup_assigned {entries : List (String × Json ν)}
    (distinct : (entries.map fun entry => ascii entry.1).Nodup) (key : Bytes) :
    (assigned entries)[key]? = (entries.map fun entry => (ascii entry.1, entry.2)).lookup key :=
  Gather.getElem?_insertAll (by rw [List.map_map]; exact distinct) key

variable (platform codec repo) in
theorem distinct_statusEntries :
    ((repo.statusEntries platform codec).map fun entry => ascii entry.1).Nodup := by
  unfold FastRepoImpl.statusEntries arrayEntry
  split <;> split <;> simp <;> decide

variable (platform codec repo) in
/-- What a client reads in the report of the repo. -/
theorem repo_facts :
    (namesAt platform (statusJson (assigned (repo.statusEntries platform codec))) ["control"] =
        repo.config.repoPrefixes) ∧
      namesAt platform (statusJson (assigned (repo.statusEntries platform codec))) ["data"] =
        repo.config.dataPrefixes ∧
      (statusJson (assigned (repo.statusEntries platform codec))).field (ascii "storage") =
        some (.ofMap (assigned (repo.storageEntries codec))) := by
  have looked := lookup_assigned (distinct_statusEntries platform codec repo)
  unfold FastRepoImpl.statusEntries at looked ⊢
  simp only [List.map_append] at looked
  refine ⟨namesAt_of_find ?_, namesAt_of_find ?_, ?_⟩
  · show (Json.field _ _).bind _ = _
    rw [field_statusJson, looked, lookup_arrayEntry _ _ _ (by
      rw [lookup_arrayEntry_of_ne (by decide), lookup_last_of_ne (by decide)])]
    split <;> rfl
  · show (Json.field _ _).bind _ = _
    rw [field_statusJson, looked, lookup_arrayEntry_of_ne (by decide),
      lookup_arrayEntry _ _ _ (lookup_last_of_ne (by decide) _)]
    split <;> rfl
  · rw [field_statusJson, looked, lookup_arrayEntry_of_ne (by decide),
      lookup_arrayEntry_of_ne (by decide), lookup_last]

variable (codec repo) in
/-- What a client reads of the storage. -/
theorem storage_facts :
    (Json.ofMap (assigned (repo.storageEntries codec))).field (ascii "access") =
        some (.string (ascii (if repo.config.readOnly then "read-only" else "read-write"))) ∧
      (Json.ofMap (assigned (repo.storageEntries codec))).field (ascii "nKeys") =
        some (jsonInt codec repo.storage.pimpl.stats.nKeys) ∧
      (Json.ofMap (assigned (repo.storageEntries codec))).field (ascii "size") =
        some (jsonInt codec repo.storage.pimpl.stats.valueSizeBytes) ∧
      (Json.ofMap (assigned (repo.storageEntries codec))).field (ascii "rename") =
        some (.string repo.storage.pimpl.renamePrefix) := by
  have distinct : [ascii "access", ascii "nKeys", ascii "size", ascii "rename"].Nodup := by decide
  have looked := lookup_assigned
    (show ((repo.storageEntries codec).map fun entry => ascii entry.1).Nodup from distinct)
  simp only [Json.field_ofMap, looked]
  unfold FastRepoImpl.storageEntries
  refine ⟨List.lookup_cons_self, ?_, ?_, ?_⟩
  · rw [lookup_skip (by decide)]
    exact List.lookup_cons_self
  · rw [lookup_skip (by decide), lookup_skip (by decide)]
    exact List.lookup_cons_self
  · rw [lookup_skip (by decide), lookup_skip (by decide), lookup_skip (by decide)]
    exact List.lookup_cons_self

end Repo

/-! ### The report of the pattern handle -/

section PatternHandle

variable {platform codec} {repo : FastRepoImpl} {recorderStats : InstanceId → StreamRecorderStats}
  {key text : Bytes}

/-- The reports of the active patterns are under the URIs of their fetch prefixes. -/
theorem active_iff (recording : AllRecording repo) (fetchPrefix : Name) :
    ((Gather.insertAll (reportsOf codec
        (entryReports platform codec recorderStats repo)))[platform.ndn.uri.toUri
          fetchPrefix]?).isSome = true ↔ repo.patterns.contains fetchPrefix = true := by
  rw [Option.isSome_iff_exists, Std.TreeMap.contains_eq_isSome_getElem?, Option.isSome_iff_exists]
  constructor
  · rintro ⟨report, found⟩
    obtain ⟨source, polled, _⟩ := mem_reportsOf.mp ((Gather.insertAll_spec _).1 _ _ found)
    obtain ⟨other, instanceId, active, same⟩ := mem_entryReports.mp polled
    cases reports : entryReport codec recorderStats repo instanceId with
    | error exn =>
      rw [reports] at same
      cases same
    | ok text =>
      rw [reports] at same
      have uris := (Prod.mk.inj (Except.ok.inj same)).1
      exact ⟨instanceId, platform.ndn.uri.toUri_injective uris ▸ active⟩
  · rintro ⟨instanceId, active⟩
    have isRecording := recording fetchPrefix instanceId active
    obtain ⟨text, reports, isJson⟩ : ∃ text,
        entryReport codec recorderStats repo instanceId = .ok text ∧
          (codec.parse text).isSome = true := (entryReport_isJson_iff instanceId).mpr isRecording
    obtain ⟨report, parsed⟩ := Option.isSome_iff_exists.mp isJson
    refine (Gather.insertAll_spec _).2 _ report (mem_reportsOf.mpr ⟨text, ?_, parsed⟩)
    exact mem_entryReports.mpr ⟨fetchPrefix, instanceId, active, by rw [reports]; rfl⟩

/-- What the pattern handle reports reads back as what it assigned. -/
theorem parse_of_patternReport
    (reports : PatternHandle.getStatusReport platform codec recorderStats repo =
      .ok (key, text)) :
    codec.parse text = some (statusJson (assigned (PatternHandle.statusEntries platform
      (Gather.insertAll (reportsOf codec (entryReports platform codec recorderStats repo)))))) := by
  unfold PatternHandle.getStatusReport at reports
  cases gathered : activeReports platform codec recorderStats repo with
  | error exn =>
    rw [gathered] at reports
    cases reports
  | ok active =>
    obtain ⟨_, rfl⟩ := Gather.gatherAll_eq_ok.mp gathered
    simp only [gathered] at reports
    cases dumped : dumpStatus codec (assigned (PatternHandle.statusEntries platform
        (Gather.insertAll (reportsOf codec (entryReports platform codec recorderStats repo))))) with
    | error exn =>
      rw [reportsOf] at dumped
      rw [dumped] at reports
      cases reports
    | ok other =>
      rw [← reportsOf, dumped] at reports
      cases reports
      refine parse_of_dumpStatus dumped (ordered_assigned ?_)
      refine List.forall_mem_append.mpr ⟨ordered_arrayEntry _ _, fun entry member => ?_⟩
      split at member
      · cases member
      · rw [List.mem_singleton.mp member]
        exact Json.ordered_ofMap fun _ _ found => (clean_of_reported found).ordered

variable (platform) in
/-- What a client reads in the report of the pattern handle. -/
theorem patternHandle_facts (active : Std.TreeMap Bytes (Json ν)) :
    namesAt platform (statusJson (assigned (PatternHandle.statusEntries platform active)))
        ["supported"] = PatternFactory.getSupportedPatterns platform ∧
      ∀ key, (statusJson (assigned (PatternHandle.statusEntries platform active))).find
        [ascii "active", key] = active[key]? := by
  have distinct : ((PatternHandle.statusEntries platform active).map fun entry =>
      ascii entry.1).Nodup := by
    unfold PatternHandle.statusEntries arrayEntry
    split <;> split <;> simp
    decide
  have looked := lookup_assigned distinct
  unfold PatternHandle.statusEntries at looked ⊢
  simp only [List.map_append] at looked
  refine ⟨namesAt_of_find ?_, fun key => ?_⟩
  · show (Json.field _ _).bind _ = _
    rw [field_statusJson, looked, lookup_arrayEntry _ _ _ (by
      split
      · rfl
      · exact lookup_last_of_ne (by decide) _)]
    split <;> rfl
  · show (Json.field _ _).bind _ = _
    rw [field_statusJson, looked, lookup_arrayEntry_of_ne (by decide)]
    split
    · rename_i empty
      exact (Std.TreeMap.getElem?_of_isEmpty empty).symm
    · rw [lookup_last]
      show ((Json.ofMap active).field key).bind _ = _
      rw [Json.field_ofMap]
      cases active[key]? with
      | none => rfl
      | some report => rfl

end PatternHandle

/-! ### The published status -/

section Published

variable {platform codec} {config : Config} {db : Db} {occurrences : List Occurrence}
  {last : FastRepoImpl} {recorderStats : InstanceId → StreamRecorderStats}

/-- The part of the configuration that no event changes. -/
def fixedConfig (repo : FastRepoImpl) : Bool × List Name :=
  (repo.config.readOnly, repo.config.repoPrefixes)

theorem fixedConfig_after (repo : FastRepoImpl) (occurrence : Occurrence) :
    fixedConfig (repo.after platform occurrence) = fixedConfig repo := by
  have announced := part_announced fixedConfig fun _ _ _ _ => rfl
  cases insert : occurrence.event.isInsert with
  | true =>
    exact after_of_insert ⟨⟨fun _ _ => rfl, fun _ _ _ => rfl, fun _ _ => rfl, fun _ _ => rfl⟩,
      announced, fun _ _ _ _ => rfl⟩ repo insert
  | false =>
    refine after_of_not_insert ⟨⟨fun _ _ => rfl, fun _ _ _ _ => rfl, fun _ _ _ _ => rfl,
      fun _ _ _ => rfl, fun _ _ => rfl, fun _ _ => rfl, fun _ _ => rfl⟩, announced, fun _ _ => rfl,
      fun _ _ _ => rfl⟩ (fun repo event => ?_) repo insert
    cases event <;> rfl

theorem fixedConfig_run
    (reached : (FastRepoImpl.started platform config db).run platform occurrences = some last) :
    fixedConfig last = (config.readOnly, config.repoPrefixes) := by
  refine run_invariant platform
    (I := fun repo => fixedConfig repo = (config.readOnly, config.repoPrefixes)) ?_
    (fun repo occurrence same => (fixedConfig_after repo occurrence).trans same) reached
  have scan : ∀ repo, fixedConfig (initializeStorage platform repo) = fixedConfig repo :=
    fun _ => rfl
  exact part_started platform fixedConfig (fun _ _ => rfl) scan config db

/-- Truth: **in every reachable state of a repo that listens for commands and whose active patterns
record, the status that is published says what the repo is doing; and the data names in it are those
it listens for when the registrations of the run return**. -/
theorem truthful_run (writable : config.readOnly = false) (listens : config.repoPrefixes ≠ [])
    (utf8 : codec.utf8 config.renamePrefix = true)
    (reached : (FastRepoImpl.started platform config db).run platform occurrences = some last)
    (recording : AllRecording last) :
    ∃ text status, publishStatus codec (polls platform codec recorderStats last) = .ok text ∧
      codec.parse text = some status ∧ Truthful platform codec config last status ∧
      ((∀ occurrence ∈ occurrences, occurrence.outcomes.throws .registerPrefix = none) →
        namesAt platform status ["repo", "data"] = last.face.dataListeners) := by
  have side := statusSide_run platform config db reached
  obtain ⟨sources, rename⟩ := Prod.mk.inj side
  have heard : listened config ≠ [] := (listened_ne_nil_iff config).mpr ⟨writable, listens⟩
  obtain ⟨text, reports, published, parsed, complete⟩ := isolated_of_contained
    ((contained_polls_iff platform codec recorderStats side).mpr ⟨heard, utf8, recording⟩)
  obtain ⟨repoText, repoReports, _⟩ := repo_reports platform
    (show codec.utf8 last.storage.pimpl.renamePrefix = true from rename ▸ utf8)
  obtain ⟨patternText, patternReports, _⟩ :=
    patternHandle_reports platform codec recorderStats recording
  have repoField := (complete _ _).mpr ⟨repoText, (mem_polls sources).mpr
    ⟨heard, Or.inl repoReports⟩, parse_of_repoReport repoReports⟩
  have patternField := (complete _ _).mpr ⟨patternText, (mem_polls sources).mpr
    ⟨heard, Or.inr patternReports⟩, parse_of_patternReport patternReports⟩
  rw [← Json.field_ofMap] at repoField patternField
  obtain ⟨isReadOnly, commands⟩ := Prod.mk.inj (fixedConfig_run reached)
  obtain ⟨control, data, storage⟩ := repo_facts platform codec last
  obtain ⟨supported, active⟩ := patternHandle_facts platform
    (Gather.insertAll (reportsOf codec (entryReports platform codec recorderStats last)))
  have names : namesAt platform (.ofMap reports) ["repo", "data"] = last.config.dataPrefixes := by
    rw [namesAt_of_field repoField, data]
  refine ⟨text, .ofMap reports, published, parsed, ?_, fun returns =>
    names.trans ((Registrations.listeners_run reached).2.2 returns).symm⟩
  obtain ⟨access, nKeys, size, renamed⟩ := storage_facts codec last
  have stored : ∀ {key value},
      (Json.ofMap (assigned (last.storageEntries codec))).field key = some value →
        (Json.ofMap reports).find [ascii "repo", ascii "storage", key] = some value := by
    intro key value found
    rw [find_of_field repoField, find_of_field storage, find_of_field found]
    rfl
  refine ⟨?_, names, ?_, stored nKeys, stored size, rename ▸ stored renamed, ?_,
    fun fetchPrefix => ?_⟩
  · rw [namesAt_of_field repoField, control, commands]
  · rw [stored access, isReadOnly, writable]
    rfl
  · rw [namesAt_of_field patternField, supported]
  · rw [find_of_field patternField, active, active_iff recording]

end Published

/-- While an ndnrtc pattern records, the status names its stream. -/
theorem truthful_ndnrtcActive :
    ∃ repo text status, (FastRepoImpl.started (tlvPlatform true false)
        { repoPrefixes := [nameOf ["r"]] } ∅).run (tlvPlatform true false) [startNdnrtc] =
          some repo ∧
      publishStatus jsonText (polls (tlvPlatform true false) jsonText (fun _ => {}) repo) =
        .ok text ∧ jsonText.parse text = some status ∧
      namesAt (tlvPlatform true false) status ["repo", "data"] = [nameOf ["p", "ndnrtc"]] := by
  have active : ((FastRepoImpl.started (tlvPlatform true false)
      { repoPrefixes := [nameOf ["r"]] } ∅).run (tlvPlatform true false) [startNdnrtc]).map
        (fun repo => (repo.patterns.toList, repo.instances, repo.face.dataListeners)) =
      some ([(nameOf ["p", "ndnrtc"], 0)], [.ndnrtc (some (nameOf ["p", "ndnrtc"]))],
        [nameOf ["p", "ndnrtc"]]) := by decide
  obtain ⟨repo, reached, same⟩ := Option.map_eq_some_iff.mp active
  obtain ⟨entries, instances, listeners⟩ : repo.patterns.toList = _ ∧ repo.instances = _ ∧
      repo.face.dataListeners = _ := by simpa using same
  have recording : AllRecording repo := by
    intro fetchPrefix instanceId found
    have member := Std.TreeMap.mem_toList_iff_getElem?_eq_some.mpr found
    rw [entries] at member
    obtain ⟨rfl, rfl⟩ := Prod.mk.inj (List.mem_singleton.mp member)
    exact ⟨nameOf ["p", "ndnrtc"], by rw [instances]; rfl⟩
  have utf8 : jsonText.utf8 [] = true :=
    jsonText.utf8_of_ascii [] fun _ member => absurd member List.not_mem_nil
  obtain ⟨text, status, published, parsed, _, listening⟩ :=
    truthful_run rfl (List.cons_ne_nil _ _) utf8 reached recording
  exact ⟨repo, text, status, reached, published, parsed, (listening (by decide)).trans listeners⟩

end StatusTruth

end FastRepo
