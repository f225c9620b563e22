/-
The pattern protocol: the pattern handle refines a registry of patterns.

The registry maps a fetch prefix to the kind of the pattern that is active for it. A pattern command
is a request to add an entry, a cancel command one to remove it, and the status code of the reply
names the outcome. `serves_after` is one command; `patternProtocol_run` says it of every run from
the start, whatever else happens in between.
-/

import FastRepo.Handles.CommandTlv
import FastRepo.Lib.Registry
import FastRepo.Repo.PatternState

namespace FastRepo

open Exits FastRepoImpl PatternHandle PatternState Registry

namespace PatternProtocol

variable (platform : Platform)

/-! ### The registry -/

/-- The active patterns: the kind of the pattern of each fetch prefix that has an entry. -/
def activeKinds (repo : FastRepoImpl) : Table Name PatternKind := fun fetchPrefix =>
  repo.patterns[fetchPrefix]?.bind (kindOf repo)

/-- The request an event makes of the registry. -/
def request : Event → Option (Request Name PatternKind)
  | .patternCommand cmdPrefix interest => some (.add (asksFor platform interest cmdPrefix))
  | .cancelCommand cmdPrefix interest => some (.remove (cancelsFor platform interest cmdPrefix))
  | .removePattern fetchPrefix => some (.remove (some fetchPrefix))
  | _ => none

/-- The text of a command does not decode: its parameter, or one of the two names in the parameter
of a pattern command. -/
def Undecodable : Event → Prop
  | .patternCommand cmdPrefix interest =>
    ∀ parameter, BaseHandle.extractParameter platform interest cmdPrefix = .ok parameter →
      ¬NamesDecode platform parameter.name
  | .cancelCommand cmdPrefix interest =>
    ∀ parameter, BaseHandle.extractParameter platform interest cmdPrefix ≠ .ok parameter
  | _ => False

/-- A request is malformed exactly when the text of the command does not decode. -/
theorem malformed_iff {event : Event} {asks : Request Name PatternKind}
    {table : Table Name PatternKind} (requested : request platform event = some asks) :
    asks.outcome table = .malformed ↔ Undecodable platform event := by
  rw [Request.outcome_eq_malformed_iff]
  cases event with
  | patternCommand cmdPrefix interest =>
    cases requested
    simp [Undecodable, ← asksFor_eq_none_iff]
  | cancelCommand cmdPrefix interest =>
    cases requested
    simp [Undecodable, ← cancelsFor_eq_none_iff]
  | removePattern fetchPrefix =>
    cases requested
    simp [Undecodable]
  | _ => cases requested

/-- The Interest of a command, which asks for a reply. -/
def asked : Event → Option Interest
  | .patternCommand _ interest | .cancelCommand _ interest => some interest
  | _ => none

/-- The status code of each outcome. -/
def statusCode : Outcome → UInt64
  | .malformed => 403
  | .taken | .absent => 402
  | .unknown => 404
  | .added => 100
  | .removed => 101

/-- A keyword is known exactly when it is among the supported patterns. -/
theorem create_isSome_iff (keyword : Name) :
    (PatternFactory.create platform keyword).isSome ↔
      keyword ∈ PatternFactory.getSupportedPatterns platform := by
  unfold PatternFactory.create PatternFactory.getSupportedPatterns
  rw [UriScheme.ofUri_toUri, Std.TreeMap.mem_keys, Std.TreeMap.mem_iff_isSome_getElem?]

/-! ### The registry of the state after a change -/

section Changes

variable {repo next : FastRepoImpl} (kept : WellKept repo)
include kept

theorem activeKinds_eq_none_iff (fetchPrefix : Name) :
    activeKinds repo fetchPrefix = none ↔ repo.patterns[fetchPrefix]? = none := by
  unfold activeKinds
  cases found : repo.patterns[fetchPrefix]? with
  | none => simp
  | some instanceId =>
    obtain ⟨kind, known⟩ := kept.object fetchPrefix instanceId found
    simp [known]

theorem activeKinds_isSome {fetchPrefix : Name} {instanceId : InstanceId}
    (found : repo.patterns[fetchPrefix]? = some instanceId) :
    (activeKinds repo fetchPrefix).isSome = true := by
  rw [Option.isSome_iff_ne_none, ne_eq, activeKinds_eq_none_iff kept fetchPrefix, found]
  exact Option.some_ne_none instanceId

/-- An entry that stays has the kind it had. -/
theorem bind_kindOf_of_kinds (kinds : KindsKept repo next) {fetchPrefix : Name} :
    repo.patterns[fetchPrefix]?.bind (kindOf next) = activeKinds repo fetchPrefix := by
  unfold activeKinds
  cases found : repo.patterns[fetchPrefix]? with
  | none => rfl
  | some instanceId =>
    obtain ⟨kind, known⟩ := kept.object fetchPrefix instanceId found
    rw [Option.bind_some, Option.bind_some, known]
    exact kinds instanceId kind known

theorem activeKinds_of_kept (unchanged : PatternsKept repo next) :
    activeKinds next = activeKinds repo := by
  funext fetchPrefix
  rw [activeKinds, unchanged.patterns]
  exact bind_kindOf_of_kinds kept unchanged.kinds

theorem activeKinds_of_started {kind : PatternKind} {fetchPrefix : Name}
    (started : PatternStarted repo next kind fetchPrefix) :
    activeKinds next = Function.update (activeKinds repo) fetchPrefix (some kind) := by
  funext other
  rw [activeKinds, started.patterns, Lookup.getElem?_insert]
  split
  · rename_i same
    rw [same, Function.update_self, Option.bind_some]
    exact started.new
  · rename_i different
    rw [Function.update_of_ne different]
    exact bind_kindOf_of_kinds kept started.kinds

theorem activeKinds_of_ended {fetchPrefix : Name} {instanceId : InstanceId}
    (ended : PatternEnd repo next fetchPrefix instanceId) :
    activeKinds next = Function.update (activeKinds repo) fetchPrefix none := by
  funext other
  rw [activeKinds, ended.patterns, Lookup.getElem?_erase]
  split
  · rename_i same
    rw [same, Function.update_self]
    rfl
  · rename_i different
    rw [Function.update_of_ne different]
    exact bind_kindOf_of_kinds kept ended.kinds

end Changes

/-! ### One request -/

/-- What a request makes of the repo, before the reply. -/
def served (outcomes : Outcomes) (repo : FastRepoImpl) : Request Name PatternKind → FastRepoImpl
  | .add (some (fetchPrefix, some kind)) =>
    match repo.patterns[fetchPrefix]? with
    | none => PatternHandle.started platform outcomes repo kind fetchPrefix
    | some _ => repo
  | .remove (some fetchPrefix) =>
    match repo.patterns[fetchPrefix]? with
    | none => repo
    | some instanceId => PatternHandle.ended repo fetchPrefix instanceId
  | _ => repo

/-- The repo after the reply a command asks for. -/
def answered (repo : FastRepoImpl) (interest : Option Interest) (code : UInt64) : FastRepoImpl :=
  match interest with
  | none => repo
  | some interest => repo.replied platform interest (BaseHandle.statusOnly code)

section Handlers

variable {outcomes : Outcomes} (quiet : outcomes.Quiet) {repo : FastRepoImpl} (kept : WellKept repo)
include quiet kept

theorem onInterest_served (interest : Interest) (cmdPrefix : Name) :
    onInterest platform outcomes interest cmdPrefix repo =
      .ok () (answered platform
        (served platform outcomes repo (.add (asksFor platform interest cmdPrefix)))
        (some interest) (statusCode
          ((Request.add (asksFor platform interest cmdPrefix)).outcome (activeKinds repo)))) := by
  cases asks : asksFor platform interest cmdPrefix with
  | none =>
    rw [onInterest_undecoded platform outcomes asks]
    exact BaseHandle.reply_quiet platform quiet interest _ repo
  | some asked =>
    obtain ⟨fetchPrefix, kind⟩ := asked
    have same := activeKinds_eq_none_iff kept fetchPrefix
    cases found : repo.patterns[fetchPrefix]? with
    | some instanceId =>
      have held := activeKinds_isSome kept found
      rw [onInterest_taken platform outcomes asks found, BaseHandle.negativeReply,
        BaseHandle.reply_quiet platform quiet]
      cases kind <;> simp [served, found, Request.outcome, held, answered, statusCode]
    | none =>
      have free : activeKinds repo fetchPrefix = none := same.mpr found
      cases kind with
      | none =>
        rw [onInterest_unknown platform outcomes asks found, BaseHandle.negativeReply,
          BaseHandle.reply_quiet platform quiet]
        simp [served, Request.outcome, free, answered, statusCode]
      | some kind =>
        rw [onInterest_known platform outcomes asks found, bind_apply,
          startPattern_quiet platform repo quiet]
        simp only [BaseHandle.negativeReply, BaseHandle.reply_quiet platform quiet]
        simp [served, found, Request.outcome, free, answered, statusCode]

theorem onCancelRequest_served (interest : Interest) (cmdPrefix : Name) :
    onCancelRequest platform outcomes interest cmdPrefix repo =
      .ok () (answered platform
        (served platform outcomes repo (.remove (cancelsFor platform interest cmdPrefix)))
        (some interest) (statusCode
          ((Request.remove (cancelsFor platform interest cmdPrefix)).outcome (activeKinds repo)))) := by
  cases asks : cancelsFor platform interest cmdPrefix with
  | none =>
    rw [onCancelRequest_rejected platform outcomes asks]
    exact BaseHandle.reply_quiet platform quiet interest _ repo
  | some fetchPrefix =>
    have same := activeKinds_eq_none_iff kept fetchPrefix
    cases found : repo.patterns[fetchPrefix]? with
    | none =>
      have free := same.mpr found
      rw [onCancelRequest_absent platform outcomes asks found, BaseHandle.negativeReply,
        BaseHandle.reply_quiet platform quiet]
      simp [served, found, Request.outcome, free, answered, statusCode]
    | some instanceId =>
      have held := activeKinds_isSome kept found
      rw [onCancelRequest_found platform outcomes asks found, bind_apply, cancelPattern_quiet quiet]
      simp only [BaseHandle.negativeReply, BaseHandle.reply_quiet platform quiet]
      simp [served, found, Request.outcome, held, answered, statusCode]

omit kept in
theorem removePattern_served (fetchPrefix : Name) :
    removePattern outcomes fetchPrefix repo =
      .ok () (served platform outcomes repo (.remove (some fetchPrefix))) := by
  cases found : repo.patterns[fetchPrefix]? with
  | none =>
    rw [removePattern_absent outcomes found]
    simp [served, found]
  | some instanceId =>
    rw [removePattern_found outcomes found, cancelPattern_quiet quiet]
    simp [served, found]

end Handlers

/-- The handlers: with no callee throwing, an event serves its request and replies with the status
code of the outcome. -/
theorem after_eq_answered {repo : FastRepoImpl} {occurrence : Occurrence}
    {asks : Request Name PatternKind} (kept : WellKept repo)
    (quiet : occurrence.outcomes.Quiet) (requested : request platform occurrence.event = some asks) :
    repo.after platform occurrence =
      answered platform (served platform occurrence.outcomes repo asks)
      (asked occurrence.event) (statusCode (asks.outcome (activeKinds repo))) := by
  obtain ⟨event, outcomes⟩ := occurrence
  cases event with
  | patternCommand cmdPrefix interest =>
    cases requested
    exact final_of_ok (onInterest_served platform quiet kept interest cmdPrefix)
  | cancelCommand cmdPrefix interest =>
    cases requested
    exact final_of_ok (onCancelRequest_served platform quiet kept interest cmdPrefix)
  | removePattern fetchPrefix =>
    cases requested
    exact final_of_ok (removePattern_served platform quiet fetchPrefix)
  | _ => cases requested

/-! ### What serving a request leaves behind -/

/-- The pattern object of a fetch prefix with an entry. -/
def patternOf (repo : FastRepoImpl) (fetchPrefix : Name) : Option FetchPattern :=
  repo.patterns[fetchPrefix]?.bind fun instanceId => repo.instances[instanceId]?

section Served

variable (outcomes : Outcomes) {repo : FastRepoImpl} (kept : WellKept repo)
  {asks : Request Name PatternKind}
include kept

/-- A request that is refused leaves the repo as it is. -/
theorem served_of_refused (refused : ¬(asks.outcome (activeKinds repo)).Accepts) :
    served platform outcomes repo asks = repo := by
  rcases asks with (_ | ⟨fetchPrefix, _ | kind⟩) | (_ | fetchPrefix)
  · rfl
  · rfl
  · have same := activeKinds_eq_none_iff kept fetchPrefix
    cases found : repo.patterns[fetchPrefix]? with
    | none => simp [Request.outcome, same.mpr found, Outcome.Accepts] at refused
    | some instanceId => simp [served, found]
  · rfl
  · have same := activeKinds_eq_none_iff kept fetchPrefix
    cases found : repo.patterns[fetchPrefix]? with
    | none => simp [served, found]
    | some instanceId =>
      have held := activeKinds_isSome kept found
      simp [Request.outcome, held, Outcome.Accepts] at refused

/-- A request that is added starts its pattern. -/
theorem served_of_added (added : asks.outcome (activeKinds repo) = .added) :
    ∃ fetchPrefix kind, asks = .add (some (fetchPrefix, some kind)) ∧
      repo.patterns[fetchPrefix]? = none ∧
      served platform outcomes repo asks =
        PatternHandle.started platform outcomes repo kind fetchPrefix := by
  obtain ⟨fetchPrefix, kind, rfl, free⟩ := Request.outcome_eq_added added
  have absent := (activeKinds_eq_none_iff kept fetchPrefix).mp free
  refine ⟨fetchPrefix, kind, rfl, absent, ?_⟩
  simp only [served, absent]

omit kept in
/-- A request that is removed ends the pattern of its entry. -/
theorem served_of_removed (removed : asks.outcome (activeKinds repo) = .removed) :
    ∃ fetchPrefix instanceId pattern, asks = .remove (some fetchPrefix) ∧
      repo.patterns[fetchPrefix]? = some instanceId ∧
      repo.instances[instanceId]? = some pattern ∧
      served platform outcomes repo asks = PatternHandle.ended repo fetchPrefix instanceId := by
  obtain ⟨fetchPrefix, kind, rfl, held⟩ := Request.outcome_eq_removed removed
  obtain ⟨instanceId, found, known⟩ := Option.bind_eq_some_iff.mp held
  obtain ⟨pattern, object, _⟩ := Option.map_eq_some_iff.mp known
  refine ⟨fetchPrefix, instanceId, pattern, rfl, found, object, ?_⟩
  simp only [served, found]

omit kept in
theorem patterns_started (repo : FastRepoImpl) (kind : PatternKind) (fetchPrefix : Name) :
    (PatternHandle.started platform outcomes repo kind fetchPrefix).patterns =
        repo.patterns.insert fetchPrefix repo.instances.length ∧
      (PatternHandle.started platform outcomes repo kind fetchPrefix).instances =
        repo.instances ++ [FetchPattern.fetching platform kind fetchPrefix] ∧
      (PatternHandle.started platform outcomes repo kind fetchPrefix).face.sent =
        repo.face.sent := by
  have side := patternSide_patternStarted platform outcomes repo kind fetchPrefix
  simp only [patternSide, Prod.mk.injEq] at side
  exact ⟨side.1, side.2.1, sent_started platform outcomes repo kind fetchPrefix⟩

omit kept in
theorem patterns_ended (fetchPrefix : Name) {instanceId : InstanceId} {pattern : FetchPattern}
    (object : repo.instances[instanceId]? = some pattern) :
    (PatternHandle.ended repo fetchPrefix instanceId).patterns = repo.patterns.erase fetchPrefix ∧
      (PatternHandle.ended repo fetchPrefix instanceId).instances =
        repo.instances.set instanceId pattern.cancelled ∧
      (PatternHandle.ended repo fetchPrefix instanceId).face.sent = repo.face.sent := by
  unfold PatternHandle.ended FetchPattern.cancelledAt
  rw [object]
  exact ⟨rfl, rfl, rfl⟩

end Served

/-- What serving a request means, with the reply to the Interest of a command. -/
structure Serves (repo next : FastRepoImpl) (interest : Option Interest)
    (asks : Request Name PatternKind) : Prop where
  /-- A command gets one reply, with the status code of the outcome. -/
  replied : next.face.sent = repo.face.sent ++ interest.toList.map fun interest =>
    BaseHandle.replyPacket platform interest
      (BaseHandle.statusOnly (statusCode (asks.outcome (activeKinds repo))))
  /-- The registry of the next state is what the request makes of the registry. -/
  refines : activeKinds next = asks.apply (activeKinds repo)
  /-- A refused request leaves the map and the objects alone. -/
  refused : ¬(asks.outcome (activeKinds repo)).Accepts →
    next.patterns = repo.patterns ∧ next.instances = repo.instances
  /-- An added request enters one new object, as `fetch` leaves it. -/
  added : asks.outcome (activeKinds repo) = .added →
    ∃ fetchPrefix kind, asks = .add (some (fetchPrefix, some kind)) ∧
      next.patterns = repo.patterns.insert fetchPrefix repo.instances.length ∧
      next.instances = repo.instances ++ [FetchPattern.fetching platform kind fetchPrefix]
  /-- A removed request cancels the object of its entry and erases the entry. -/
  removed : asks.outcome (activeKinds repo) = .removed →
    ∃ fetchPrefix instanceId pattern, asks = .remove (some fetchPrefix) ∧
      repo.patterns[fetchPrefix]? = some instanceId ∧
      repo.instances[instanceId]? = some pattern ∧
      next.patterns = repo.patterns.erase fetchPrefix ∧
      next.instances = repo.instances.set instanceId pattern.cancelled
  /-- The entries of all other fetch prefixes, and their objects, stay as they are. -/
  others : ∀ fetchPrefix, asks.key ≠ some fetchPrefix →
    next.patterns[fetchPrefix]? = repo.patterns[fetchPrefix]? ∧
      patternOf next fetchPrefix = patternOf repo fetchPrefix

/-- Every outcome is a refusal, or the request was added or removed. -/
theorem outcome_cases (outcome : Outcome) :
    ¬outcome.Accepts ∨ outcome = .added ∨ outcome = .removed := by
  cases outcome <;> simp [Outcome.Accepts]

/-- An entry of another fetch prefix keeps its object when the map and the list of the objects
change as a request makes them. -/
theorem others_served {outcomes : Outcomes} {repo next : FastRepoImpl}
    {asks : Request Name PatternKind} (kept : WellKept repo)
    (patterns : next.patterns = (served platform outcomes repo asks).patterns)
    (instances : next.instances = (served platform outcomes repo asks).instances)
    {fetchPrefix : Name} (different : asks.key ≠ some fetchPrefix) :
    next.patterns[fetchPrefix]? = repo.patterns[fetchPrefix]? ∧
      patternOf next fetchPrefix = patternOf repo fetchPrefix := by
  unfold patternOf
  rw [patterns, instances]
  rcases outcome_cases (asks.outcome (activeKinds repo)) with refused | added | removed
  · rw [served_of_refused platform outcomes kept refused]
    exact ⟨rfl, rfl⟩
  · obtain ⟨target, kind, rfl, _, same⟩ := served_of_added platform outcomes kept added
    have apart : ¬fetchPrefix = target := fun equal => different (congrArg some equal.symm)
    obtain ⟨entries, objects, _⟩ := patterns_started platform outcomes repo kind target
    rw [same, entries, objects, Lookup.getElem?_insert, if_neg apart]
    refine ⟨rfl, ?_⟩
    cases found : repo.patterns[fetchPrefix]? with
    | none => rfl
    | some instanceId =>
      obtain ⟨_, known⟩ := kept.object fetchPrefix instanceId found
      obtain ⟨pattern, object, _⟩ := Option.map_eq_some_iff.mp known
      obtain ⟨bound, _⟩ := List.getElem?_eq_some_iff.mp object
      rw [Option.bind_some, Option.bind_some, List.getElem?_append_left bound]
  · obtain ⟨target, instanceId, pattern, rfl, held, object, same⟩ :=
      served_of_removed platform outcomes removed
    have apart : ¬fetchPrefix = target := fun equal => different (congrArg some equal.symm)
    obtain ⟨entries, objects, _⟩ := patterns_ended target object
    rw [same, entries, objects, Lookup.getElem?_erase, if_neg apart]
    refine ⟨rfl, ?_⟩
    cases found : repo.patterns[fetchPrefix]? with
    | none => rfl
    | some otherId =>
      have fresh : instanceId ≠ otherId := by
        rintro rfl
        exact apart (kept.own fetchPrefix target instanceId found held)
      rw [Option.bind_some, Option.bind_some, List.getElem?_set_ne fresh]

/-- One event of the pattern handle: **with no callee throwing, it serves its request**. -/
theorem serves_after {repo : FastRepoImpl} {occurrence : Occurrence}
    {asks : Request Name PatternKind} (kept : WellKept repo)
    (quiet : occurrence.outcomes.Quiet) (requested : request platform occurrence.event = some asks) :
    Serves platform repo (repo.after platform occurrence) (asked occurrence.event) asks := by
  have after := after_eq_answered platform kept quiet requested
  have patterns : (repo.after platform occurrence).patterns =
      (served platform occurrence.outcomes repo asks).patterns := by
    rw [after]
    cases asked occurrence.event <;> rfl
  have instances : (repo.after platform occurrence).instances =
      (served platform occurrence.outcomes repo asks).instances := by
    rw [after]
    cases asked occurrence.event <;> rfl
  have sent : (served platform occurrence.outcomes repo asks).face.sent = repo.face.sent := by
    rcases outcome_cases (asks.outcome (activeKinds repo)) with refused | added | removed
    · rw [served_of_refused platform occurrence.outcomes kept refused]
    · obtain ⟨fetchPrefix, kind, _, _, same⟩ :=
        served_of_added platform occurrence.outcomes kept added
      rw [same]
      exact (patterns_started platform occurrence.outcomes repo kind fetchPrefix).2.2
    · obtain ⟨fetchPrefix, instanceId, pattern, _, _, object, same⟩ :=
        served_of_removed platform occurrence.outcomes removed
      rw [same]
      exact (patterns_ended fetchPrefix object).2.2
  have registry : activeKinds (repo.after platform occurrence) =
      activeKinds (served platform occurrence.outcomes repo asks) := by
    unfold activeKinds kindOf
    rw [patterns, instances]
  refine ⟨?_, ?_, fun refused => ?_, fun added => ?_, fun removed => ?_, fun fetchPrefix =>
    others_served platform kept patterns instances⟩
  · rw [after, ← sent]
    cases asked occurrence.event with
    | none => exact (List.append_nil _).symm
    | some interest => rfl
  · rw [registry]
    rcases outcome_cases (asks.outcome (activeKinds repo)) with refused | added | removed
    · rw [served_of_refused platform occurrence.outcomes kept refused,
        Request.apply_of_refused refused]
    · obtain ⟨fetchPrefix, kind, rfl, absent, same⟩ :=
        served_of_added platform occurrence.outcomes kept added
      rw [same, activeKinds_of_started kept
        (patternStarted_started platform occurrence.outcomes repo kind absent)]
      simp [Request.apply, (activeKinds_eq_none_iff kept fetchPrefix).mpr absent]
    · obtain ⟨fetchPrefix, instanceId, pattern, rfl, found, _, same⟩ :=
        served_of_removed platform occurrence.outcomes removed
      rw [same, activeKinds_of_ended kept (patternEnd_ended found)]
      rfl
  · rw [patterns, instances, served_of_refused platform occurrence.outcomes kept refused]
    exact ⟨rfl, rfl⟩
  · obtain ⟨fetchPrefix, kind, rfl, _, same⟩ :=
      served_of_added platform occurrence.outcomes kept added
    obtain ⟨entries, objects, _⟩ :=
      patterns_started platform occurrence.outcomes repo kind fetchPrefix
    rw [patterns, instances, same]
    exact ⟨fetchPrefix, kind, rfl, entries, objects⟩
  · obtain ⟨fetchPrefix, instanceId, pattern, rfl, found, object, same⟩ :=
      served_of_removed platform occurrence.outcomes removed
    obtain ⟨entries, objects, _⟩ := patterns_ended fetchPrefix object
    rw [patterns, instances, same]
    exact ⟨fetchPrefix, instanceId, pattern, rfl, found, object, entries, objects⟩

/-! ### Runs -/

/-- The requests of a run. -/
def requests (occurrences : List Occurrence) : List (Request Name PatternKind) :=
  occurrences.filterMap fun occurrence => request platform occurrence.event

/-- The replies the registry gives to the commands of a run, when it starts empty. -/
def registryReplies (occurrences : List Occurrence) : List Data :=
  List.zipWith
    (fun interest outcome =>
      BaseHandle.replyPacket platform interest (BaseHandle.statusOnly (statusCode outcome)))
    (occurrences.filterMap fun occurrence => asked occurrence.event)
    (outcomes (fun _ => none) (requests platform occurrences))

/-- Every event is a pattern command or a cancel command. -/
def OnlyCommands (occurrences : List Occurrence) : Prop :=
  ∀ occurrence ∈ occurrences, (asked occurrence.event).isSome

theorem requests_concat (occurrences : List Occurrence) (occurrence : Occurrence) :
    requests platform (occurrences ++ [occurrence]) =
      requests platform occurrences ++ (request platform occurrence.event).toList := by
  unfold requests
  rw [List.filterMap_append]
  cases requested : request platform occurrence.event <;> simp [requested]

/-- A command makes a request. -/
theorem request_of_asked {event : Event} {interest : Interest} (command : asked event = some interest) :
    ∃ asks, request platform event = some asks := by
  cases event with
  | patternCommand cmdPrefix other => exact ⟨_, rfl⟩
  | cancelCommand cmdPrefix other => exact ⟨_, rfl⟩
  | _ => cases command

theorem registryReplies_concat {occurrences : List Occurrence} {occurrence : Occurrence}
    {interest : Interest} {asks : Request Name PatternKind} (commands : OnlyCommands occurrences)
    (command : asked occurrence.event = some interest)
    (requested : request platform occurrence.event = some asks) :
    registryReplies platform (occurrences ++ [occurrence]) =
      registryReplies platform occurrences ++ [BaseHandle.replyPacket platform interest
        (BaseHandle.statusOnly (statusCode
          (asks.outcome (applyAll (fun _ => none) (requests platform occurrences)))))] := by
  have lengths : (occurrences.filterMap fun occurrence => asked occurrence.event).length =
      (outcomes (fun _ => none) (requests platform occurrences)).length := by
    rw [length_outcomes]
    unfold requests
    clear command requested
    induction occurrences with
    | nil => rfl
    | cons first rest ih =>
      obtain ⟨other, asksFirst⟩ := Option.isSome_iff_exists.mp (commands first (by simp))
      obtain ⟨asks, requested⟩ := request_of_asked platform asksFirst
      have earlier := ih fun occurrence member => commands occurrence (by simp [member])
      simp only [List.filterMap_cons, asksFirst, requested, List.length_cons, earlier]
  unfold registryReplies
  rw [requests_concat, requested, Option.toList_some, outcomes_concat, List.filterMap_append,
    List.zipWith_append lengths]
  congr 1
  simp [command]

/-- What the pattern protocol guarantees of a run that reaches a state. -/
structure Protocol (start : FastRepoImpl) (occurrences : List Occurrence) (repo : FastRepoImpl) :
    Prop where
  /-- Each event of the pattern handle serves its request, and every other event leaves the entries
  alone. -/
  serves : ∀ s occurrence, Runs.Takes (step platform) start occurrences s occurrence →
    match request platform occurrence.event with
    | some asks =>
      Serves platform s (s.after platform occurrence) (asked occurrence.event) asks
    | none => (s.after platform occurrence).patterns = s.patterns
  /-- A command is malformed, and refused with 403, exactly when its text does not decode. -/
  malformed : ∀ s occurrence asks, Runs.Takes (step platform) start occurrences s occurrence →
    request platform occurrence.event = some asks →
      (asks.outcome (activeKinds s) = .malformed ↔ Undecodable platform occurrence.event)
  /-- The active patterns are those of a registry that served the requests of the run. -/
  refines : activeKinds repo = applyAll (fun _ => none) (requests platform occurrences)
  /-- In a run of commands, the packets sent are the replies of that registry, in order. -/
  replies : OnlyCommands occurrences → repo.face.sent = registryReplies platform occurrences

/-- No callee throws while the pattern handle serves a request. -/
def QuietRequests (occurrences : List Occurrence) : Prop :=
  ∀ occurrence ∈ occurrences, request platform occurrence.event ≠ none →
    occurrence.outcomes.Quiet

theorem isPattern_of_request {event : Event} (none : request platform event = none) :
    isPattern event = false := by
  cases event <;> first | rfl | cases none

/-- The state of a run is the one the registry has, and so are the packets sent. -/
theorem tracks_run (config : Config) (db : Db) {occurrences : List Occurrence}
    {repo : FastRepoImpl} (quiet : QuietRequests platform occurrences)
    (reached : (started platform config db).run platform occurrences = some repo) :
    WellKept repo ∧ activeKinds repo = applyAll (fun _ => none) (requests platform occurrences) ∧
      (OnlyCommands occurrences → repo.face.sent = registryReplies platform occurrences) := by
  refine Runs.run_history (I := fun occurrences repo => QuietRequests platform occurrences →
    WellKept repo ∧ activeKinds repo = applyAll (fun _ => none) (requests platform occurrences) ∧
      (OnlyCommands occurrences → repo.face.sent = registryReplies platform occurrences))
    (fun _ => ⟨wellKept_started platform config db, ?_, fun _ => ?_⟩)
    (fun occurrences occurrence s next before step quiet => ?_) reached quiet
  · funext fetchPrefix
    have fresh := patternSide_started platform config db
    simp only [patternSide, Prod.mk.injEq] at fresh
    simp [activeKinds, fresh.1, requests]
  · exact part_started platform (fun repo => repo.face.sent) (fun _ _ => rfl)
      (fun _ => rfl) config db
  · obtain ⟨kept, registry, replies⟩ := before fun other member =>
      quiet other (List.mem_append_left _ member)
    have keptNext := wellKept_step platform kept step
    obtain ⟨enabled, rfl⟩ := (step_eq_some platform).mp step
    cases requested : request platform occurrence.event with
    | none =>
      have unchanged := kept_of_not_pattern platform enabled (isPattern_of_request platform requested)
      refine ⟨keptNext, ?_, fun commands => ?_⟩
      · rw [requests_concat, requested, activeKinds_of_kept kept unchanged, registry]
        simp
      · obtain ⟨interest, command⟩ :=
          Option.isSome_iff_exists.mp (commands occurrence (by simp))
        obtain ⟨asks, impossible⟩ := request_of_asked platform command
        rw [requested] at impossible
        cases impossible
    | some asks =>
      have serves := serves_after platform kept
        (quiet occurrence (by simp) (by simp [requested])) requested
      refine ⟨keptNext, ?_, fun commands => ?_⟩
      · rw [requests_concat, requested, serves.refines, registry]
        simp
      · obtain ⟨interest, command⟩ :=
          Option.isSome_iff_exists.mp (commands occurrence (by simp))
        have earlier : OnlyCommands occurrences := fun other member =>
          commands other (List.mem_append_left _ member)
        rw [registryReplies_concat platform earlier command requested, serves.replied,
          replies earlier, command, registry]
        rfl

/-- The pattern protocol: **in every run from the start, with no callee throwing while a request is
served, the pattern handle refines a registry that starts empty, and each command gets the one reply
the registry gives**. -/
theorem patternProtocol_run (config : Config) (db : Db) {occurrences : List Occurrence}
    (quiet : QuietRequests platform occurrences) {repo : FastRepoImpl}
    (reached : (started platform config db).run platform occurrences = some repo) :
    Protocol platform (started platform config db) occurrences repo := by
  obtain ⟨_, refines, replies⟩ := tracks_run platform config db quiet reached
  refine ⟨fun s occurrence taken => ?_, fun _ _ _ _ => malformed_iff platform, refines, replies⟩
  obtain ⟨next, step, _⟩ := taken.next reached
  obtain ⟨enabled, _⟩ := (step_eq_some platform).mp step
  obtain ⟨before, within, passed⟩ := taken
  have kept := wellKept_run platform config db passed
  cases requested : request platform occurrence.event with
  | none =>
    exact (kept_of_not_pattern platform enabled (isPattern_of_request platform requested)).patterns
  | some asks =>
    exact serves_after platform kept
      (quiet occurrence (within.subset (by simp)) (by simp [requested])) requested

/-- Commands under two command prefixes: a counter pattern is started, started again, asked for
under an unknown keyword, cancelled, and cancelled again; the fetch prefix of the next command is a
truncated element, and the last command has no parameter. -/
def sevenCommands : List Occurrence :=
  let patternCommand (cmdPrefix : Name) (keyword : Bytes) (fetchPrefix : List Bytes) : Occurrence :=
    ⟨.patternCommand cmdPrefix
      (commandInterest cmdPrefix (patternParameter keyword fetchPrefix)), {}⟩
  let cancelCommand (cmdPrefix : Name) (fetchPrefix : List Bytes) : Occurrence :=
    ⟨.cancelCommand cmdPrefix (commandInterest cmdPrefix ⟨fetchPrefix⟩), {}⟩
  [patternCommand (nameOf ["r", "pattern"]) (ascii "counter") [ascii "p"],
    patternCommand (nameOf ["q", "pattern"]) (ascii "counter") [ascii "p"],
    patternCommand (nameOf ["q", "pattern"]) (ascii "sphere") [ascii "p", ascii "x"],
    cancelCommand (nameOf ["q", "cancel"]) [ascii "p"],
    cancelCommand (nameOf ["r", "cancel"]) [ascii "p"],
    ⟨.patternCommand (nameOf ["r", "pattern"]) (commandInterest (nameOf ["r", "pattern"])
      ⟨[CommandTlv.encodeName [ascii "counter"], [8, 5]]⟩), {}⟩,
    ⟨.cancelCommand (nameOf ["r", "cancel"]) { name := nameOf ["r", "cancel"] }, {}⟩]

theorem patternProtocol_sevenCommands :
    ∃ repo, Protocol (tlvPlatform true true)
        (started (tlvPlatform true true) { repoPrefixes := [nameOf ["r"], nameOf ["q"]] } ∅)
        sevenCommands repo ∧
      outcomes (fun _ => none) (requests (tlvPlatform true true) sevenCommands) =
        [.added, .taken, .unknown, .removed, .absent, .malformed, .malformed] := by
  have runs : ((started (tlvPlatform true true) { repoPrefixes := [nameOf ["r"], nameOf ["q"]] }
      ∅).run (tlvPlatform true true) sevenCommands).isSome = true := by decide
  have quiet : QuietRequests (tlvPlatform true true) sevenCommands := by
    intro occurrence member _ callee
    have same : occurrence.outcomes = {} := by
      simp only [sevenCommands, List.mem_cons, List.not_mem_nil, or_false] at member
      rcases member with rfl | rfl | rfl | rfl | rfl | rfl | rfl <;> rfl
    rw [same]
  exact ⟨_, patternProtocol_run (tlvPlatform true true)
    { repoPrefixes := [nameOf ["r"], nameOf ["q"]] } ∅ quiet (Option.some_get runs).symm, by decide⟩

end PatternProtocol

end FastRepo
