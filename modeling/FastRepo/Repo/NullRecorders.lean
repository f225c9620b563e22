/-
Ndnrtc patterns without a recorder.

`NdnrtcPattern::fetch` makes no recorder when the prefix is not the name of a stream, and does not
say so: the pattern is entered and the command is answered 100. The status report of the pattern
asks the recorder all the same. `recordersLive_iff`: in a run every held ndnrtc pattern has its
recorder, and every command that is answered 100 has its fetch going, exactly when no step enters a
pattern that declines to fetch.
-/

import FastRepo.Handles.StatusReports
import FastRepo.Lib.JsonText
import FastRepo.Repo.ActivePatterns
import FastRepo.Repo.FailingExits

namespace FastRepo

open ActivePatterns BaseHandle CallbackLifetime Exits FailingExits FastRepoImpl PatternHandle
open PatternState

namespace NullRecorders

variable (platform : Platform)

/-- Every ndnrtc pattern in the map has a recorder. -/
def AllRecorders (repo : FastRepoImpl) : Prop :=
  ∀ instanceId, Held repo instanceId → repo.instances[instanceId]? ≠ some (.ndnrtc none)

/-- The event enters an ndnrtc pattern under a prefix that is not the name of a stream. -/
def EntersUnrecorded (repo : FastRepoImpl) (event : Event) : Prop :=
  ∃ fetchPrefix, Accepts platform repo event fetchPrefix .ndnrtc ∧
    platform.extractInfo fetchPrefix = false

/-! ### One step -/

section Step

variable {platform} {repo : FastRepoImpl} {occurrence : Occurrence}

theorem kindsKept_after (enabled : repo.Enabled occurrence.event) :
    KindsKept repo (repo.after platform occurrence) := by
  rcases change_after platform enabled with growth | ⟨_, _, ended⟩
  · cases growth with
    | kept kept => exact kept.kinds
    | started _ _ started => exact started.kinds
  · exact ended.kinds

/-- An accepted command whose `fetch` returns leaves a pattern that was started. -/
theorem patternSide_accepted {fetchPrefix : Name} {kind : PatternKind}
    (accepts : Accepts platform repo occurrence.event fetchPrefix kind)
    (returns : FetchPattern.FetchReturns platform occurrence.outcomes kind fetchPrefix) :
    patternSide (repo.after platform occurrence) =
      patternSide (PatternHandle.started platform occurrence.outcomes repo kind fetchPrefix) := by
  obtain ⟨event, outcomes⟩ := occurrence
  obtain ⟨cmdPrefix, interest, rfl, asks, absent⟩ := accepts
  exact patternSide_of_sendsAtMost (onInterest_starts platform outcomes asks absent returns)

theorem entry_accepted {fetchPrefix : Name} {kind : PatternKind}
    (accepts : Accepts platform repo occurrence.event fetchPrefix kind)
    (returns : FetchPattern.FetchReturns platform occurrence.outcomes kind fetchPrefix) :
    (repo.after platform occurrence).patterns[fetchPrefix]? = some repo.instances.length ∧
      (repo.after platform occurrence).instances[repo.instances.length]? =
        some (FetchPattern.fetching platform kind fetchPrefix) := by
  obtain ⟨patterns, object⟩ := entry_of_started platform (patternSide_accepted accepts returns)
  rw [patterns, Std.TreeMap.getElem?_insert_self]
  exact ⟨rfl, object⟩

/-- A held pattern is one that the event has entered, or it was held before and is the same object
or a counter pattern. -/
theorem held_after (kept : WellKept repo) (enabled : repo.Enabled occurrence.event)
    {instanceId : InstanceId} (held : Held (repo.after platform occurrence) instanceId) :
    (∃ fetchPrefix kind, Accepts platform repo occurrence.event fetchPrefix kind ∧
      (repo.after platform occurrence).instances[instanceId]? =
        some (FetchPattern.fetching platform kind fetchPrefix)) ∨
    Held repo instanceId ∧
      ((repo.after platform occurrence).instances[instanceId]? = repo.instances[instanceId]? ∨
        kindOf (repo.after platform occurrence) instanceId = some .counter) := by
  cases change_of_event platform repo occurrence with
  | idle same _ _ =>
    have before := (held_congr (views_of_same same).1 instanceId).mp held
    simp only [patternSide, Prod.mk.injEq] at same
    exact Or.inr ⟨before, Or.inl (by rw [same.2.1])⟩
  | started fetchPrefix kind accepts same =>
    obtain ⟨_, _, _, _, absent⟩ := id accepts
    have entered := (held_congr (views_of_same same).1 instanceId).mp held
    rcases (held_started_iff absent instanceId).mp entered with rfl | before
    · exact Or.inl ⟨fetchPrefix, kind, accepts, (entry_of_started platform same).2⟩
    · have bound := lt_length_of_held kept before
      rw [patternSide_patternStarted] at same
      simp only [patternSide, Prod.mk.injEq] at same
      refine Or.inr ⟨before, Or.inl ?_⟩
      rw [same.2.1, List.getElem?_append_left bound]
  | abandoned fetchPrefix kind pattern _ _ same =>
    rw [same] at held ⊢
    have before : Held repo instanceId := held
    have bound := lt_length_of_held kept before
    exact Or.inr ⟨before, Or.inl (getElem?_new repo kind pattern bound)⟩
  | called owner takes =>
    have called : CallsBack (repo.taken occurrence.event) (repo.after platform occurrence) owner :=
      callsBack_after platform takes
    obtain ⟨samePatterns, sameInstances⟩ := taken_objects repo occurrence.event
    have before := (held_congr (called.patterns.trans samePatterns) instanceId).mp held
    refine Or.inr ⟨before, ?_⟩
    by_cases own : instanceId = owner
    · subst own
      exact Or.inr (kindsKept_after enabled _ _
        (kept.counters instanceId (callbacks_owner_pos enabled takes)))
    · exact Or.inl (by rw [called.objects instanceId own, sameInstances])
  | ended fetchPrefix ended _ found same =>
    obtain ⟨kind, known⟩ := kept.object fetchPrefix ended found
    obtain ⟨pattern, object, _⟩ := Option.map_eq_some_iff.mp known
    obtain ⟨before, apart⟩ := held_ended kept found
      ((held_congr (views_of_same same).1 instanceId).mp held)
    rw [patternSide_ended fetchPrefix object] at same
    simp only [patternSide, Prod.mk.injEq] at same
    refine Or.inr ⟨before, Or.inl ?_⟩
    rw [same.2.1, List.getElem?_set_ne apart]

/-- One step: **the held ndnrtc patterns keep their recorders exactly when the event enters none
without**. -/
theorem allRecorders_after_iff (kept : WellKept repo) (recorders : AllRecorders repo)
    (enabled : repo.Enabled occurrence.event) :
    AllRecorders (repo.after platform occurrence) ↔
      ¬EntersUnrecorded platform repo occurrence.event := by
  constructor
  · rintro still ⟨fetchPrefix, accepts, notStream⟩
    have returns : FetchPattern.FetchReturns platform occurrence.outcomes .ndnrtc fetchPrefix := by
      intro stream
      rw [notStream] at stream
      cases stream
    obtain ⟨entry, object⟩ := entry_accepted accepts returns
    refine still _ ⟨fetchPrefix, entry⟩ (object.trans ?_)
    rw [FetchPattern.fetching, notStream]
    rfl
  · intro recorded instanceId held unrecorded
    rcases held_after kept enabled held with ⟨fetchPrefix, kind, accepts, object⟩ |
      ⟨before, same | counter⟩
    · rw [object] at unrecorded
      cases kind with
      | counter => cases unrecorded
      | ndnrtc =>
        refine recorded ⟨fetchPrefix, accepts, ?_⟩
        cases stream : platform.extractInfo fetchPrefix with
        | false => rfl
        | true =>
          rw [FetchPattern.fetching, stream] at unrecorded
          cases unrecorded
      | gobj => cases unrecorded
    · exact recorders instanceId before (same ▸ unrecorded)
    · rw [kindOf, unrecorded] at counter
      cases counter

end Step

/-! ### What a status poll and a client see -/

section Seen

variable {platform} {repo : FastRepoImpl}

/-- A report of a held pattern asks a recorder that is not there exactly when some held ndnrtc
pattern has none. -/
theorem allRecorders_iff_polls {ν : Type} (codec : JsonCodec ν) (kept : WellKept repo)
    (recorderStats : InstanceId → StreamRecorderStats) :
    AllRecorders repo ↔ ∀ instanceId, Held repo instanceId →
      entryReport codec recorderStats repo instanceId ≠ .error .nullPointer := by
  refine forall_congr' fun instanceId => imp_congr_right fun held => not_congr ?_
  obtain ⟨fetchPrefix, found⟩ := held
  obtain ⟨kind, known⟩ := kept.object fetchPrefix instanceId found
  obtain ⟨pattern, object, _⟩ := Option.map_eq_some_iff.mp known
  unfold entryReport
  rw [object]
  cases pattern with
  | counter state => exact iff_of_false (fun same => by cases same) fun same => by cases same
  | ndnrtc streamRecorder =>
    cases streamRecorder with
    | none => exact iff_of_true rfl rfl
    | some stream =>
      refine iff_of_false (fun same => by cases same) fun threw => ?_
      obtain ⟨text, reports, _⟩ := ndnrtc_reports codec (recorderStats instanceId)
      cases reports.symm.trans threw
  | gobj => exact iff_of_false (fun same => by cases same) fun same => by cases same

/-- A command for a new pattern that is answered 100 has its fetch going. -/
def AnsweredFetching (platform : Platform) (repo : FastRepoImpl) (occurrence : Occurrence) : Prop :=
  ∀ cmdPrefix interest fetchPrefix kind, occurrence.event = .patternCommand cmdPrefix interest →
    asksFor platform interest cmdPrefix = some (fetchPrefix, some kind) →
    repo.patterns[fetchPrefix]? = none →
    (repo.after platform occurrence).face.sent =
      repo.face.sent ++ [replyPacket platform interest (statusOnly 100)] →
    ∃ instanceId, (repo.after platform occurrence).patterns[fetchPrefix]? = some instanceId ∧
      InProgress (repo.after platform occurrence) instanceId

/-- The event enters a pattern that declines to fetch, and nothing that is called to announce it and
to reply throws. -/
def AnswersDeclined (platform : Platform) (repo : FastRepoImpl) (occurrence : Occurrence) : Prop :=
  ∃ fetchPrefix kind, Accepts platform repo occurrence.event fetchPrefix kind ∧
    ¬FetchPattern.Fetches platform kind fetchPrefix ∧
    AnswerReturns platform occurrence.outcomes repo fetchPrefix

theorem fetchReturns_of_declines (outcomes : Outcomes) {kind : PatternKind} {fetchPrefix : Name}
    (declines : ¬FetchPattern.Fetches platform kind fetchPrefix) :
    FetchPattern.FetchReturns platform outcomes kind fetchPrefix := by
  by_contra threw
  exact declines (fetches_of_threw threw)

/-- After an accepted command whose `fetch` returns the new pattern is in progress exactly when it
fetches. -/
theorem inProgress_accepted_iff {occurrence : Occurrence} {fetchPrefix : Name} {kind : PatternKind}
    (accepts : Accepts platform repo occurrence.event fetchPrefix kind)
    (returns : FetchPattern.FetchReturns platform occurrence.outcomes kind fetchPrefix) :
    (∃ instanceId, (repo.after platform occurrence).patterns[fetchPrefix]? = some instanceId ∧
      InProgress (repo.after platform occurrence) instanceId) ↔
      FetchPattern.Fetches platform kind fetchPrefix := by
  have side := patternSide_accepted accepts returns
  rw [(entry_accepted accepts returns).1, ← inProgress_started_iff repo kind fetchPrefix]
  simp only [Option.some.injEq, exists_eq_left']
  exact inProgress_of_same side _

theorem answeredFetching_iff (occurrence : Occurrence) :
    AnsweredFetching platform repo occurrence ↔ ¬AnswersDeclined platform repo occurrence := by
  obtain ⟨event, outcomes⟩ := occurrence
  constructor
  · rintro fetching ⟨fetchPrefix, kind, accepts, declines, answers⟩
    have returns := fetchReturns_of_declines outcomes declines
    obtain ⟨cmdPrefix, interest, rfl, asks, absent⟩ := id accepts
    have going := fetching cmdPrefix interest fetchPrefix kind rfl asks absent
      ((answered_iff platform asks absent).mpr ⟨returns, answers⟩)
    exact declines ((inProgress_accepted_iff accepts returns).mp going)
  · rintro honest cmdPrefix interest fetchPrefix kind rfl asks absent answered
    obtain ⟨returns, answers⟩ := (answered_iff platform asks absent).mp answered
    have accepts : Accepts platform repo (.patternCommand cmdPrefix interest) fetchPrefix kind :=
      ⟨cmdPrefix, interest, rfl, asks, absent⟩
    refine (inProgress_accepted_iff accepts returns).mpr ?_
    by_contra declines
    exact honest ⟨fetchPrefix, kind, accepts, declines, answers⟩

end Seen

/-! ### Runs -/

section Runs

variable {ν : Type} (codec : JsonCodec ν)

/-- What is asked of the recorders in a run: every held ndnrtc pattern has one in every state, no
status report asks one that is not there, and a command that is answered 100 has its fetch going. -/
structure RecordersLive (start : FastRepoImpl) (occurrences : List Occurrence) : Prop where
  recorders : ∀ s, Runs.Passes (step platform) start occurrences s → AllRecorders s
  polls : ∀ s, Runs.Passes (step platform) start occurrences s →
    ∀ recorderStats instanceId, Held s instanceId →
      entryReport codec recorderStats s instanceId ≠ .error .nullPointer
  answered : ∀ s occurrence, Runs.Takes (step platform) start occurrences s occurrence →
    AnsweredFetching platform s occurrence

/-- Recorders: **in a run from the start no ndnrtc pattern is held without a recorder and no command
is answered 100 without its fetch, exactly when no step enters an ndnrtc pattern for a prefix that
names no stream, or enters any pattern that declines to fetch and answers**. -/
theorem recordersLive_iff (config : Config) (db : Db) {occurrences : List Occurrence}
    {repo : FastRepoImpl}
    (reached : (started platform config db).run platform occurrences = some repo) :
    RecordersLive platform codec (started platform config db) occurrences ↔
      ∀ s occurrence, Runs.Takes (step platform) (started platform config db) occurrences s
        occurrence → ¬EntersUnrecorded platform s occurrence.event ∧
          ¬AnswersDeclined platform s occurrence := by
  have fresh := wellKept_started platform config db
  have keeps : ∀ s occurrence next, WellKept s → s.step platform occurrence = some next →
      WellKept next := fun _ _ _ => wellKept_step platform
  have everywhere := Runs.run_forall_iff (P := AllRecorders)
    (C := fun s occurrence => ¬EntersUnrecorded platform s occurrence.event) fresh keeps
    (fun instanceId held => absurd held (not_held_started platform config db instanceId))
    (fun s occurrence next kept recorders step => by
      obtain ⟨enabled, rfl⟩ := (step_eq_some platform).mp step
      exact allRecorders_after_iff kept recorders enabled) reached
  constructor
  · intro live s occurrence taken
    exact ⟨everywhere.mp live.recorders s occurrence taken,
      (answeredFetching_iff occurrence).mp (live.answered s occurrence taken)⟩
  · intro conditions
    have recorders := everywhere.mpr fun s occurrence taken => (conditions s occurrence taken).1
    refine ⟨recorders, fun s passes recorderStats => ?_, fun s occurrence taken => ?_⟩
    · obtain ⟨before, _, passed⟩ := id passes
      exact (allRecorders_iff_polls codec (wellKept_run platform config db passed)
        recorderStats).mp (recorders s passes)
    · exact (answeredFetching_iff occurrence).mpr (conditions s occurrence taken).2

end Runs

/-! ### A prefix that names no stream, and one that names one -/

/-- A command that starts an ndnrtc pattern. -/
def ndnrtcCommand (fetchPrefix : List Bytes) : Interest :=
  commandInterest (nameOf ["r", "pattern"]) (patternParameter (ascii "ndnrtc3") fetchPrefix)

/-- A repo of a build with ndnrtc patterns. -/
def ndnrtcRepo : FastRepoImpl :=
  started (tlvPlatform true false) { repoPrefixes := [nameOf ["r"]] } ∅

/-- `/p` names no stream: the command is answered 100, and the next status report asks a recorder
that is not there. -/
theorem not_recordersLive_noStream :
    ∃ repo, ndnrtcRepo.run (tlvPlatform true false)
        [⟨.patternCommand (nameOf ["r", "pattern"]) (ndnrtcCommand [ascii "p"]), {}⟩] =
          some repo ∧
      repo.face.sent =
        [replyPacket (tlvPlatform true false) (ndnrtcCommand [ascii "p"]) (statusOnly 100)] ∧
      entryReport jsonText (fun _ => {}) repo 0 = .error .nullPointer ∧
      ¬RecordersLive (tlvPlatform true false) jsonText ndnrtcRepo
        [⟨.patternCommand (nameOf ["r", "pattern"]) (ndnrtcCommand [ascii "p"]), {}⟩] := by
  have runs : (ndnrtcRepo.run (tlvPlatform true false)
      [⟨.patternCommand (nameOf ["r", "pattern"]) (ndnrtcCommand [ascii "p"]), {}⟩]).map
        (fun repo => (repo.face.sent, repo.patterns[nameOf ["p"]]?, repo.instances)) =
      some ([replyPacket (tlvPlatform true false) (ndnrtcCommand [ascii "p"]) (statusOnly 100)],
        some 0, [.ndnrtc none]) := by decide
  obtain ⟨repo, reached, same⟩ := Option.map_eq_some_iff.mp runs
  simp only [Prod.mk.injEq] at same
  obtain ⟨sent, found, instances⟩ := same
  have object : repo.instances[0]? = some (.ndnrtc none) := by
    rw [instances]
    rfl
  refine ⟨repo, reached, sent, ?_, fun live => ?_⟩
  · rw [entryReport, object]
    rfl
  · exact live.recorders repo ⟨_, List.prefix_rfl, reached⟩ 0 ⟨nameOf ["p"], found⟩ object

/-- `/p/ndnrtc` names a stream, and its pattern has a recorder. -/
theorem recordersLive_stream :
    RecordersLive (tlvPlatform true false) jsonText ndnrtcRepo
      [⟨.patternCommand (nameOf ["r", "pattern"]) (ndnrtcCommand [ascii "p", ascii "ndnrtc"]),
        {}⟩] := by
  have runs : (ndnrtcRepo.run (tlvPlatform true false)
      [⟨.patternCommand (nameOf ["r", "pattern"]) (ndnrtcCommand [ascii "p", ascii "ndnrtc"]),
        {}⟩]).isSome = true := by decide
  have asks : asksFor (tlvPlatform true false) (ndnrtcCommand [ascii "p", ascii "ndnrtc"])
      (nameOf ["r", "pattern"]) = some (nameOf ["p", "ndnrtc"], some .ndnrtc) := by decide
  refine (recordersLive_iff (tlvPlatform true false) jsonText { repoPrefixes := [nameOf ["r"]] } ∅
    (Option.some_get runs).symm).mpr ?_
  rintro s occurrence ⟨before, within, _⟩
  have same : occurrence = ⟨.patternCommand (nameOf ["r", "pattern"])
      (ndnrtcCommand [ascii "p", ascii "ndnrtc"]), {}⟩ := by
    simpa using within.subset (List.mem_append_right before List.mem_cons_self)
  subst same
  have accepted : ∀ fetchPrefix kind, Accepts (tlvPlatform true false) s
      (.patternCommand (nameOf ["r", "pattern"]) (ndnrtcCommand [ascii "p", ascii "ndnrtc"]))
      fetchPrefix kind → fetchPrefix = nameOf ["p", "ndnrtc"] ∧ kind = .ndnrtc := by
    rintro fetchPrefix kind ⟨_, _, same, asked, _⟩
    cases same
    rw [asks] at asked
    cases asked
    exact ⟨rfl, rfl⟩
  constructor
  · rintro ⟨fetchPrefix, accepts, notStream⟩
    rw [(accepted fetchPrefix _ accepts).1] at notStream
    exact absurd notStream (by decide)
  · rintro ⟨fetchPrefix, kind, accepts, declines, _⟩
    obtain ⟨rfl, rfl⟩ := accepted fetchPrefix kind accepts
    exact declines (by decide : (tlvPlatform true false).extractInfo (nameOf ["p", "ndnrtc"]) = true)

end NullRecorders

end FastRepo
