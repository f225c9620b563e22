/-
The status handle.

`publishStatus` polls the report sources one after the other, parses what they return, and dumps the
collected reports. Around each source it catches `std::runtime_error`, and nothing else.

`isolated_iff_contained`: the reports of the sources that succeed are published, each under its own
key, exactly when nothing that escapes the catch is thrown, some source succeeds, sources under one
key agree, and the keys are UTF-8.
-/

import FastRepo.Lib.Gather
import FastRepo.Lib.Json
import FastRepo.Ndn.Packet

namespace FastRepo

namespace StatusHandle

variable {ν : Type} (codec : JsonCodec ν)

/-! ### The source -/

/-- What a `json` variable holds that starts as null and is given entries: it is an object from its
first entry on. -/
def statusJson (entries : Std.TreeMap Bytes (Json ν)) : Json ν :=
  if entries.isEmpty then .null else .ofMap entries

/-- `status.dump()`: it throws when a string is not UTF-8. -/
def dumpStatus (entries : Std.TreeMap Bytes (Json ν)) : Except Exn Bytes :=
  match codec.dump (statusJson entries) with
  | some text => .ok text
  | none => .error .typeError

/-- `json::parse` of the text a source returned, with the key it goes under. -/
def readReport (poll : Except Exn (Bytes × Bytes)) : Except Exn (Bytes × Json ν) :=
  match poll with
  | .error exn => .error exn
  | .ok reportData =>
    match codec.parse reportData.2 with
    | some report => .ok (reportData.1, report)
    | none => .error .parseError

/-- `StatusHandle::publishStatus`, on what the sources return or throw. -/
def publishStatus (polls : List (Except Exn (Bytes × Bytes))) : Except Exn Bytes :=
  match Gather.gatherAll Exn.isRuntimeError (polls.map (readReport codec)) with
  | .error exn => .error exn
  | .ok status => dumpStatus codec status

/-! ### Reading and dumping -/

variable {codec}

theorem mem_readReports {polls : List (Except Exn (Bytes × Bytes))} {key : Bytes}
    {report : Json ν} : .ok (key, report) ∈ polls.map (readReport codec) ↔
      ∃ text, .ok (key, text) ∈ polls ∧ codec.parse text = some report := by
  rw [List.mem_map]
  constructor
  · rintro ⟨poll, member, read⟩
    unfold readReport at read
    split at read
    · cases read
    · rename_i reportData
      split at read
      · rename_i parsed
        cases read
        exact ⟨reportData.2, member, parsed⟩
      · cases read
  · rintro ⟨text, member, parsed⟩
    refine ⟨_, member, ?_⟩
    rw [readReport]
    simp only [parsed]

/-- A failed report is what the source threw, or a text that does not parse. -/
theorem mem_failedReports {polls : List (Except Exn (Bytes × Bytes))} {exn : Exn}
    (failed : .error exn ∈ polls.map (readReport codec)) :
    .error exn ∈ polls ∨
      exn = .parseError ∧ ∃ key text, .ok (key, text) ∈ polls ∧ codec.parse text = none := by
  obtain ⟨poll, polled, read⟩ := List.mem_map.mp failed
  unfold readReport at read
  split at read
  · cases read
    exact Or.inl polled
  · rename_i reportData
    split at read
    · cases read
    · rename_i unread
      cases read
      exact Or.inr ⟨rfl, reportData.1, reportData.2, polled, unread⟩

/-- The map of clean entries under well-formed keys. -/
theorem cleanMap_insertAll {entries : List (Bytes × Json ν)}
    (each : ∀ entry ∈ entries, codec.utf8 entry.1 = true ∧ codec.Clean entry.2) :
    codec.CleanMap (Gather.insertAll entries) := fun key value found =>
  each (key, value) ((Gather.insertAll_spec entries).1 key value found)

theorem ordered_statusJson {entries : Std.TreeMap Bytes (Json ν)}
    (values : ∀ (key : Bytes) (report : Json ν), entries[key]? = some report →
      report.ordered = true) : (statusJson entries).ordered = true := by
  unfold statusJson
  split
  · rfl
  · exact Json.ordered_ofMap values

theorem dump_of_dumpStatus {entries : Std.TreeMap Bytes (Json ν)} {text : Bytes}
    (dumped : dumpStatus codec entries = .ok text) :
    codec.dump (statusJson entries) = some text := by
  unfold dumpStatus at dumped
  split at dumped
  · rename_i written
    cases dumped
    exact written
  · cases dumped

theorem error_of_dumpStatus {entries : Std.TreeMap Bytes (Json ν)} {exn : Exn}
    (threw : dumpStatus codec entries = .error exn) : exn = .typeError := by
  unfold dumpStatus at threw
  split at threw
  · cases threw
  · cases threw
    rfl

/-- What was dumped reads back. -/
theorem parse_of_dumpStatus {entries : Std.TreeMap Bytes (Json ν)} {text : Bytes}
    (dumped : dumpStatus codec entries = .ok text)
    (values : ∀ (key : Bytes) (report : Json ν), entries[key]? = some report →
      report.ordered = true) : codec.parse text = some (statusJson entries) :=
  codec.parse_of_dump _ _ (ordered_statusJson values) (dump_of_dumpStatus dumped)

/-- Clean entries are dumped, and read back. -/
theorem exists_dumpStatus {entries : Std.TreeMap Bytes (Json ν)} (clean : codec.CleanMap entries) :
    ∃ text, dumpStatus codec entries = .ok text ∧ codec.parse text = some (statusJson entries) := by
  have cleanJson : codec.Clean (statusJson entries) := by
    unfold statusJson
    split
    · exact codec.clean_null
    · exact codec.clean_ofMap clean
  obtain ⟨text, written, read⟩ := codec.exists_dump cleanJson
  refine ⟨text, ?_, read⟩
  rw [dumpStatus, written]

theorem statusJson_of_found {entries : Std.TreeMap Bytes (Json ν)} {key : Bytes} {report : Json ν}
    (found : entries[key]? = some report) : statusJson entries = .ofMap entries := by
  rw [statusJson, if_neg]
  intro empty
  rw [Std.TreeMap.getElem?_of_isEmpty empty] at found
  cases found

/-- What was dumped has strings in UTF-8 only, its keys among them. -/
theorem strings_of_dumpStatus {entries : Std.TreeMap Bytes (Json ν)} {text : Bytes}
    (dumped : dumpStatus codec entries = .ok text) {key : Bytes} {report : Json ν}
    (found : entries[key]? = some report) :
    codec.utf8 key = true ∧ report.stringsAre codec.utf8 = true := by
  refine (Json.stringsAre_ofMap codec.utf8 entries).mp ?_ key report found
  rw [← statusJson_of_found found, ← codec.dump_isSome, dump_of_dumpStatus dumped]
  rfl

/-! ### Isolation -/

variable (codec)

/-- The polls lead to a status object that has the report of every source that succeeds, and nothing
else: a source succeeds when it returns a JSON text. -/
def Isolated (polls : List (Except Exn (Bytes × Bytes))) : Prop :=
  ∃ text reports, publishStatus codec polls = .ok text ∧
    codec.parse text = some (.ofMap reports) ∧
    ∀ (key : Bytes) (report : Json ν), reports[key]? = some report ↔
      ∃ source, .ok (key, source) ∈ polls ∧ codec.parse source = some report

/-- What it takes: nothing escapes the catch, a source succeeds, sources under one key agree, and
the keys are UTF-8. -/
structure Contained (polls : List (Except Exn (Bytes × Bytes))) : Prop where
  thrown : ∀ exn, .error exn ∈ polls → exn.isRuntimeError = true
  parsed : ∀ key text, .ok (key, text) ∈ polls → (codec.parse text).isSome = true
  succeeds : ∃ key text, .ok (key, text) ∈ polls
  agree : ∀ key first second, .ok (key, first) ∈ polls → .ok (key, second) ∈ polls →
    codec.parse first = codec.parse second
  utf8 : ∀ key text, .ok (key, text) ∈ polls → codec.utf8 key = true

variable {codec}

/-- Nothing escapes a catch that does not take parse errors exactly when it takes what is thrown and
what is returned is JSON. -/
theorem failures_caught_iff {caught : Exn → Bool} (noParseError : caught .parseError = false)
    {polls : List (Except Exn (Bytes × Bytes))} :
    (∀ exn, .error exn ∈ polls.map (readReport codec) → caught exn = true) ↔
      (∀ exn, .error exn ∈ polls → caught exn = true) ∧
        ∀ key text, .ok (key, text) ∈ polls → (codec.parse text).isSome = true := by
  constructor
  · intro all
    refine ⟨fun exn member => all exn (List.mem_map.mpr ⟨_, member, rfl⟩),
      fun key text member => ?_⟩
    cases parsed : codec.parse text with
    | some report => rfl
    | none =>
      have escapes := all .parseError (List.mem_map.mpr ⟨_, member, by simp [readReport, parsed]⟩)
      rw [noParseError] at escapes
      cases escapes
  · rintro ⟨thrown, parsed⟩ exn member
    rcases mem_failedReports member with polled | ⟨_, key, text, polled, unread⟩
    · exact thrown exn polled
    · have isJson := parsed key text polled
      rw [unread] at isJson
      cases isJson

/-- A source that throws anything but a runtime error ends the publishing. -/
theorem publishStatus_throws {polls : List (Except Exn (Bytes × Bytes))} {exn : Exn}
    (threw : .error exn ∈ polls) (escapes : exn.isRuntimeError = false) :
    ∃ thrown, publishStatus codec polls = .error thrown ∧ thrown.isRuntimeError = false := by
  unfold publishStatus
  cases gathered : Gather.gatherAll Exn.isRuntimeError (polls.map (readReport codec)) with
  | ok status =>
    have caught := ((failures_caught_iff rfl).mp (Gather.gatherAll_eq_ok.mp gathered).1).1 exn threw
    rw [escapes] at caught
    cases caught
  | error thrown => exact ⟨thrown, rfl, (Gather.mem_of_gatherAll_error gathered).2⟩

variable (codec) in
/-- The reports of the sources that succeed, under their keys. -/
def reportsOf (polls : List (Except Exn (Bytes × Bytes))) : List (Bytes × Json ν) :=
  Gather.gathered (polls.map (readReport codec))

theorem mem_reportsOf {polls : List (Except Exn (Bytes × Bytes))} {key : Bytes} {report : Json ν} :
    (key, report) ∈ reportsOf codec polls ↔
      ∃ source, .ok (key, source) ∈ polls ∧ codec.parse source = some report :=
  Gather.mem_gathered.trans mem_readReports

/-- What is put under a key is the report of a source. -/
theorem clean_of_reported {polls : List (Except Exn (Bytes × Bytes))} {key : Bytes}
    {report : Json ν} (found : (Gather.insertAll (reportsOf codec polls))[key]? = some report) :
    codec.Clean report := by
  obtain ⟨_, _, parsed⟩ := mem_reportsOf.mp ((Gather.insertAll_spec _).1 _ _ found)
  exact codec.clean_parsed parsed

theorem contained_of_isolated {polls : List (Except Exn (Bytes × Bytes))}
    (isolated : Isolated codec polls) : Contained codec polls := by
  obtain ⟨text, reports, published, parsed, complete⟩ := isolated
  unfold publishStatus at published
  split at published
  · cases published
  · rename_i status gathered
    obtain ⟨caught, rfl⟩ := Gather.gatherAll_eq_ok.mp gathered
    obtain ⟨thrown, isJson⟩ := (failures_caught_iff rfl).mp caught
    -- what was published is the object of what was gathered
    have read := parse_of_dumpStatus published fun key report found =>
      (clean_of_reported found).ordered
    rw [parsed] at read
    have same := Option.some.inj read
    unfold statusJson at same
    split at same
    · cases same
    · rename_i filled
      refine ⟨thrown, isJson, ?_, ?_, ?_⟩
      · by_contra none
        refine filled ((Gather.insertAll_isEmpty _).mpr (List.eq_nil_iff_forall_not_mem.mpr ?_))
        rintro ⟨key, report⟩ member
        obtain ⟨source, polled, _⟩ := mem_reportsOf.mp member
        exact none ⟨key, source, polled⟩
      · intro key first second one two
        obtain ⟨left, parsedLeft⟩ := Option.isSome_iff_exists.mp (isJson key first one)
        obtain ⟨right, parsedRight⟩ := Option.isSome_iff_exists.mp (isJson key second two)
        have foundLeft := (complete key left).mpr ⟨first, one, parsedLeft⟩
        have foundRight := (complete key right).mpr ⟨second, two, parsedRight⟩
        rw [parsedLeft, parsedRight, ← foundLeft, ← foundRight]
      · intro key source polled
        obtain ⟨report, parsedReport⟩ := Option.isSome_iff_exists.mp (isJson key source polled)
        have found := (complete key report).mpr ⟨source, polled, parsedReport⟩
        rw [Json.getElem?_of_ofMap same key] at found
        exact (strings_of_dumpStatus published found).1

theorem isolated_of_contained {polls : List (Except Exn (Bytes × Bytes))}
    (contained : Contained codec polls) : Isolated codec polls := by
  obtain ⟨thrown, isJson, ⟨key, source, polled⟩, agree, utf8⟩ := contained
  have gathered : Gather.gatherAll Exn.isRuntimeError (polls.map (readReport codec)) =
      .ok (Gather.insertAll (reportsOf codec polls)) :=
    Gather.gatherAll_eq_ok.mpr ⟨(failures_caught_iff rfl).mpr ⟨thrown, isJson⟩, rfl⟩
  have complete := (Gather.complete_iff (reportsOf codec polls)).mpr
    fun key left right one two => by
      obtain ⟨first, polledFirst, parsedFirst⟩ := mem_reportsOf.mp one
      obtain ⟨second, polledSecond, parsedSecond⟩ := mem_reportsOf.mp two
      have same := agree key first second polledFirst polledSecond
      rw [parsedFirst, parsedSecond] at same
      exact Option.some.inj same
  obtain ⟨report, parsedReport⟩ := Option.isSome_iff_exists.mp (isJson key source polled)
  have found := (complete key report).mpr (mem_reportsOf.mpr ⟨source, polled, parsedReport⟩)
  have clean : codec.CleanMap (Gather.insertAll (reportsOf codec polls)) := by
    intro key report found
    obtain ⟨source, polled, _⟩ := mem_reportsOf.mp ((complete key report).mp found)
    exact ⟨utf8 key source polled, clean_of_reported found⟩
  obtain ⟨text, dumped, read⟩ := exists_dumpStatus clean
  refine ⟨text, _, ?_, statusJson_of_found found ▸ read, fun key report => ?_⟩
  · rw [publishStatus, gathered]
    exact dumped
  · exact (complete key report).trans mem_reportsOf

/-- Isolation: **the reports of the sources that succeed are published, each under its own key,
exactly when the polls are contained**. -/
theorem isolated_iff_contained (polls : List (Except Exn (Bytes × Bytes))) :
    Isolated codec polls ↔ Contained codec polls :=
  ⟨contained_of_isolated, isolated_of_contained⟩

end StatusHandle

end FastRepo
