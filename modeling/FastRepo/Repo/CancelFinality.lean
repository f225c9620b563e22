/-
What a cancelled counter pattern still does.

`cancel` clears the running flag. A timer that fires later looks at the flag and expresses nothing,
but the callback for data does not: it writes the packet and counts it. `final_iff` says that a
cancelled pattern stays as it is exactly as long as no data is delivered to it.
-/

import FastRepo.Repo.ActivePatterns
import FastRepo.Repo.StoreState

namespace FastRepo

open Exits FastRepoImpl ActivePatterns CallbackLifetime PatternState StoreState

namespace CancelFinality

variable (platform : Platform)

/-! ### What is seen of a pattern -/

/-- The writes of a pattern object. -/
def writesOf (repo : FastRepoImpl) (instanceId : InstanceId) : List Put :=
  repo.puts.filter fun put => put.writer = .pattern instanceId

/-- The outstanding Interests of a pattern object. -/
def interestsOf (repo : FastRepoImpl) (instanceId : InstanceId) : List PatternInterest :=
  repo.face.patternInterests.filter fun interest => interest.pattern = instanceId

/-- `counter_` of a pattern object. -/
def counterOf (repo : FastRepoImpl) (instanceId : InstanceId) : Option Nat :=
  match repo.instances[instanceId]? with
  | some (.counter pattern) => some pattern.counter
  | _ => none

/-- The object is a counter pattern that is not running. -/
def Stopped (repo : FastRepoImpl) (instanceId : InstanceId) : Prop :=
  ∃ pattern : CounterPattern,
    repo.instances[instanceId]? = some (.counter pattern) ∧ pattern.running = false

/-- The event writes nothing for the pattern, expresses no Interest of it and does not count. -/
structure Unmoved (repo : FastRepoImpl) (occurrence : Occurrence) (instanceId : InstanceId) :
    Prop where
  stores : writesOf (repo.after platform occurrence) instanceId = writesOf repo instanceId
  expresses : interestsOf (repo.after platform occurrence) instanceId =
    interestsOf (repo.taken occurrence.event) instanceId
  counts : counterOf (repo.after platform occurrence) instanceId = counterOf repo instanceId

/-- Data is delivered for an Interest of the pattern, and its write returns. -/
def Delivers (occurrence : Occurrence) (instanceId : InstanceId) : Prop :=
  ∃ interest data, occurrence.event = .counterData interest data ∧
    interest.pattern = instanceId ∧ occurrence.outcomes.throws .storagePut = none

theorem counterOf_of_found {repo : FastRepoImpl} {instanceId : InstanceId}
    {pattern : CounterPattern} (found : repo.instances[instanceId]? = some (.counter pattern)) :
    counterOf repo instanceId = some pattern.counter := by
  unfold counterOf
  rw [found]

theorem counterOf_congr {repo next : FastRepoImpl} {instanceId : InstanceId}
    (same : next.instances[instanceId]? = repo.instances[instanceId]?) :
    counterOf next instanceId = counterOf repo instanceId := by
  unfold counterOf
  rw [same]

theorem Stopped.congr {repo next : FastRepoImpl} {instanceId : InstanceId}
    (stopped : Stopped repo instanceId)
    (same : next.instances[instanceId]? = repo.instances[instanceId]?) : Stopped next instanceId := by
  unfold Stopped
  rw [same]
  exact stopped

/-- Cancelling stops a counter pattern. -/
theorem stopped_cancel (outcomes : Outcomes) {repo : FastRepoImpl} {instanceId : InstanceId}
    {pattern : CounterPattern} (found : repo.instances[instanceId]? = some (.counter pattern)) :
    Stopped (final (FetchPattern.cancel outcomes instanceId) repo) instanceId := by
  refine ⟨{ pattern with running := false }, ?_, rfl⟩
  unfold FetchPattern.cancel
  rw [final_get_bind]
  simp only [found]
  exact getElem?_setInstance_self found _

/-! ### One event -/

section Step

variable {platform} {repo : FastRepoImpl} {occurrence : Occurrence} {instanceId : InstanceId}

/-- A write of someone else is none of the pattern. -/
theorem writesOf_written {writer : Writer} (foreign : writer ≠ .pattern instanceId) (ok : Bool)
    (data : Data) : writesOf (repo.written platform ok writer data).1 instanceId =
      writesOf repo instanceId := by
  unfold writesOf
  show (repo.puts ++ [_]).filter _ = _
  simp [foreign]

theorem writesOf_congr {next : FastRepoImpl} (same : storeSide next = storeSide repo) :
    writesOf next instanceId = writesOf repo instanceId := by
  unfold writesOf
  rw [show next.puts = repo.puts from congrArg Prod.snd same]

/-- A write of the pattern is a delivery to it. -/
theorem writesOf_after (stopped : Stopped repo instanceId)
    (missed : ¬Delivers occurrence instanceId) :
    writesOf (repo.after platform occurrence) instanceId = writesOf repo instanceId := by
  rcases writesAtMost_after platform repo occurrence with same | ⟨writer, data, writes, same⟩
  · exact writesOf_congr same
  · by_cases foreign : writer = .pattern instanceId
    · subst foreign
      obtain ⟨event, outcomes⟩ := occurrence
      cases event with
      | counterData interest packet =>
        cases writes
        obtain ⟨pattern, found, _⟩ := stopped
        have there : (repo.taken (.counterData interest data)).instances[interest.pattern]? =
          some (.counter pattern) := found
        have throws : outcomes.throws .storagePut ≠ none := fun returns =>
          missed ⟨interest, data, rfl, rfl, returns⟩
        show writesOf (final (CounterPattern.onData platform outcomes interest.pattern data)
          (repo.taken (.counterData interest data))) _ = _
        rw [CounterPattern.final_onData platform outcomes data there, if_neg throws]
        rfl
      | _ => cases writes
    · exact (writesOf_congr same).trans (writesOf_written foreign _ data)

/-- The pattern side of a stopped pattern as the event leaves it: its object and its Interests. -/
structure Kept (repo next : FastRepoImpl) (instanceId : InstanceId) : Prop where
  object : next.instances[instanceId]? = repo.instances[instanceId]?
  interests : interestsOf next instanceId = interestsOf repo instanceId

theorem kept_of_same {next : FastRepoImpl} (same : patternSide next = patternSide repo) :
    Kept repo next instanceId := by
  simp only [patternSide, Prod.mk.injEq] at same
  obtain ⟨_, instances, _, interests⟩ := same
  refine ⟨by rw [instances], ?_⟩
  unfold interestsOf
  rw [interests]

/-- Ending an entry leaves a stopped pattern as it is, its own or not. -/
theorem kept_ended (stopped : Stopped repo instanceId) (fetchPrefix : Name) (ended : InstanceId) :
    Kept repo (PatternHandle.ended repo fetchPrefix ended) instanceId := by
  obtain ⟨pattern, found, idle⟩ := stopped
  unfold PatternHandle.ended FetchPattern.cancelledAt
  cases object : repo.instances[ended]? with
  | none => exact ⟨rfl, rfl⟩
  | some other =>
    refine ⟨?_, rfl⟩
    show (repo.instances.set ended other.cancelled)[instanceId]? = repo.instances[instanceId]?
    by_cases same : ended = instanceId
    · subst same
      rw [found] at object
      cases object
      have unchanged : (FetchPattern.counter pattern).cancelled = .counter pattern := by
        rw [FetchPattern.cancelled, ← idle]
      rw [unchanged, found]
      exact getElem?_setInstance_self found _
    · exact List.getElem?_set_ne same

/-- An object that exists is not changed by an object that is made. -/
theorem kept_append {next : FastRepoImpl} (stopped : Stopped repo instanceId)
    (pattern : FetchPattern) (instances : next.instances = repo.instances ++ [pattern])
    (interests : next.face.patternInterests = repo.face.patternInterests) :
    Kept repo next instanceId := by
  obtain ⟨_, found, _⟩ := stopped
  obtain ⟨bound, _⟩ := List.getElem?_eq_some_iff.mp found
  refine ⟨?_, ?_⟩
  · rw [instances, List.getElem?_append_left bound]
  · unfold interestsOf
    rw [interests]

/-- A timer of a stopped pattern does nothing, and other timers do nothing to it. -/
theorem kept_doFetch (stopped : Stopped repo instanceId) (outcomes : Outcomes)
    (owner : InstanceId) :
    Kept repo (final (CounterPattern.doFetch outcomes owner) repo) instanceId := by
  obtain ⟨pattern, found, idle⟩ := stopped
  by_cases own : owner = instanceId
  · subst own
    rw [CounterPattern.final_doFetch outcomes found, if_neg fun both => by
      rw [idle] at both
      cases both.1]
    exact ⟨rfl, rfl⟩
  · rcases CounterPattern.doFetch_cases outcomes owner repo with nothing | ⟨_, _, expressed⟩
    · rw [nothing]
      exact ⟨rfl, rfl⟩
    · rw [expressed]
      refine ⟨rfl, ?_⟩
      show (repo.face.patternInterests ++ [_]).filter _ = _
      simp [interestsOf, own]

/-- Data that is delivered to another pattern, or whose write throws, leaves the pattern alone. -/
theorem kept_onData (stopped : Stopped repo instanceId) (outcomes : Outcomes) (data : Data)
    {owner : InstanceId} (missed : owner = instanceId → outcomes.throws .storagePut ≠ none) :
    Kept repo (final (CounterPattern.onData platform outcomes owner data) repo) instanceId := by
  obtain ⟨pattern, found, _⟩ := stopped
  by_cases own : owner = instanceId
  · rw [own, CounterPattern.final_onData platform outcomes data found, if_neg (missed own)]
    exact ⟨rfl, rfl⟩
  · rcases CounterPattern.onData_cases platform outcomes owner data repo with
      nothing | ⟨_, after, _, _, counted | scheduled⟩
    · rw [nothing]
      exact ⟨rfl, rfl⟩
    · rw [counted]
      exact ⟨List.getElem?_set_ne own, rfl⟩
    · rw [scheduled]
      exact ⟨List.getElem?_set_ne own, rfl⟩

theorem taken_of_idle (noCallback : takenFrom occurrence.event = none) :
    repo.taken occurrence.event = repo := by
  obtain ⟨event, outcomes⟩ := occurrence
  cases event <;> first | rfl | cases noCallback

/-- The event is no delivery to the pattern: **the pattern keeps its object, and no Interest of it
is expressed**. -/
theorem kept_after (stopped : Stopped repo instanceId) (missed : ¬Delivers occurrence instanceId) :
    Kept (repo.taken occurrence.event) (repo.after platform occurrence) instanceId := by
  cases change_of_event platform repo occurrence with
  | idle same noCallback refused =>
    rw [taken_of_idle noCallback]
    exact kept_of_same same
  | started fetchPrefix kind accepts same =>
    rw [taken_of_idle (takenFrom_of_accepts accepts)]
    have side := same.trans (patternSide_patternStarted platform occurrence.outcomes repo kind
      fetchPrefix)
    simp only [patternSide, Prod.mk.injEq] at side
    exact kept_append stopped _ side.2.1 side.2.2.2
  | abandoned fetchPrefix kind pattern accepts threw same =>
    rw [taken_of_idle (takenFrom_of_accepts accepts), same]
    refine kept_append stopped pattern ?_ rfl
    simp [FastRepoImpl.setInstance, FastRepoImpl.addInstance]
  | ended fetchPrefix ended target found same =>
    rw [taken_of_idle (takenFrom_of_target target)]
    have kept := kept_ended stopped fetchPrefix ended
    have side : Kept _ (repo.after platform occurrence) instanceId := kept_of_same same
    exact ⟨side.object.trans kept.object, side.interests.trans kept.interests⟩
  | called owner takes =>
    have ready : Stopped (repo.taken occurrence.event) instanceId :=
      stopped.congr (by rw [(taken_objects repo occurrence.event).2])
    obtain ⟨event, outcomes⟩ := occurrence
    cases event with
    | timer timer => exact kept_doFetch ready outcomes timer.pattern
    | counterData interest data =>
      exact kept_onData ready outcomes data fun own returns =>
        missed ⟨interest, data, rfl, own, returns⟩
    | counterTimeout interest => exact ⟨rfl, rfl⟩
    | _ => cases takes

/-- A delivery to a stopped pattern is written and counted, and the pattern stays stopped. -/
theorem delivered {outcomes : Outcomes} {interest : PatternInterest} {data : Data}
    (stopped : Stopped repo interest.pattern) (returns : outcomes.throws .storagePut = none) :
    Stopped (repo.after platform ⟨.counterData interest data, outcomes⟩) interest.pattern ∧
      counterOf (repo.after platform ⟨.counterData interest data, outcomes⟩) interest.pattern ≠
        counterOf repo interest.pattern := by
  obtain ⟨pattern, found, idle⟩ := stopped
  have object : (repo.after platform
      ⟨.counterData interest data, outcomes⟩).instances[interest.pattern]? =
        some (.counter pattern.next) := by
    show (final (CounterPattern.onData platform outcomes interest.pattern data)
      (repo.taken (.counterData interest data))).instances[interest.pattern]? = _
    have there : (repo.taken (.counterData interest data)).instances[interest.pattern]? =
      some (.counter pattern) := found
    rw [CounterPattern.final_onData platform outcomes data there, if_pos returns,
      CounterPattern.final_scheduleNext]
    split <;> exact getElem?_setInstance_self found _
  refine ⟨⟨pattern.next, object, ?_⟩, ?_⟩
  · rw [CounterPattern.next, idle]
    rfl
  · rw [counterOf_of_found object, counterOf_of_found found]
    simp [CounterPattern.next]

theorem stopped_after (stopped : Stopped repo instanceId) :
    Stopped (repo.after platform occurrence) instanceId := by
  by_cases delivers : Delivers occurrence instanceId
  · obtain ⟨event, outcomes⟩ := occurrence
    obtain ⟨interest, data, rfl, rfl, returns⟩ := delivers
    exact (delivered stopped returns).1
  · refine stopped.congr ((kept_after stopped delivers).object.trans ?_)
    rw [(taken_objects repo occurrence.event).2]

/-- One event: **a stopped pattern stays as it is exactly when the event is no delivery to it**. -/
theorem unmoved_iff (stopped : Stopped repo instanceId) :
    Unmoved platform repo occurrence instanceId ↔ ¬Delivers occurrence instanceId := by
  constructor
  · intro unmoved delivers
    obtain ⟨event, outcomes⟩ := occurrence
    obtain ⟨interest, data, rfl, rfl, returns⟩ := delivers
    exact (delivered stopped returns).2 unmoved.counts
  · intro missed
    have kept : Kept _ (repo.after platform occurrence) instanceId := kept_after stopped missed
    refine ⟨writesOf_after stopped missed, kept.interests, ?_⟩
    exact (counterOf_congr kept.object).trans
      (counterOf_congr (by rw [(taken_objects repo occurrence.event).2]))

end Step

/-! ### Runs after a cancel -/

/-- After the pattern is cancelled, no event of the run moves it. -/
def Final (start : FastRepoImpl) (occurrences : List Occurrence) (instanceId : InstanceId) : Prop :=
  ∀ s occurrence, Runs.Takes (step platform) start occurrences s occurrence →
    Unmoved platform s occurrence instanceId

theorem stopped_run {start : FastRepoImpl} {instanceId : InstanceId}
    (stopped : Stopped start instanceId) {occurrences : List Occurrence} {last : FastRepoImpl}
    (reached : start.run platform occurrences = some last) : Stopped last instanceId :=
  run_invariant platform (I := fun repo => Stopped repo instanceId) stopped
    (fun _ _ stopped => stopped_after stopped) reached

/-- Cancelling: **whatever happens after a counter pattern was cancelled, no packet of it is stored,
no Interest of it is expressed and it does not count, exactly as long as no data is delivered to
it**. -/
theorem final_iff (outcomes : Outcomes) {repo : FastRepoImpl} {instanceId : InstanceId}
    {pattern : CounterPattern} (found : repo.instances[instanceId]? = some (.counter pattern))
    (occurrences : List Occurrence) :
    Final platform (final (FetchPattern.cancel outcomes instanceId) repo) occurrences instanceId ↔
      ∀ s occurrence, Runs.Takes (step platform)
        (final (FetchPattern.cancel outcomes instanceId) repo) occurrences s occurrence →
          ¬Delivers occurrence instanceId := by
  have stopped : ∀ s occurrence, Runs.Takes (step platform)
      (final (FetchPattern.cancel outcomes instanceId) repo) occurrences s occurrence →
        Stopped s instanceId := by
    intro s occurrence taken
    obtain ⟨before, _, passed⟩ := taken.passes
    exact stopped_run platform (stopped_cancel outcomes found) passed
  constructor
  · intro still s occurrence taken
    exact (unmoved_iff (stopped s occurrence taken)).mp (still s occurrence taken)
  · intro missed s occurrence taken
    exact (unmoved_iff (stopped s occurrence taken)).mpr (missed s occurrence taken)

/-- The first timer of the counter pattern for `/p` fires. -/
def firstTimer : Occurrence := ⟨.timer ⟨1, 0⟩, {}⟩

/-- With an Interest in flight, the packet that comes after the cancel is stored and counted. -/
theorem not_final_inFlight :
    ∃ repo, smallRepo.run (tlvPlatform false false) [startCounter, firstTimer] = some repo ∧
      repo.instances[0]? = some (.counter ⟨true, 0, nameOf ["p"]⟩) ∧
      (final (FetchPattern.cancel {} 0) repo).Enabled firstData.event ∧
      ¬Final (tlvPlatform false false) (final (FetchPattern.cancel {} 0) repo) [firstData] 0 := by
  have runs : (smallRepo.run (tlvPlatform false false) [startCounter, firstTimer]).map
      (fun repo => (repo.instances[0]?,
        decide ((final (FetchPattern.cancel {} 0) repo).Enabled firstData.event),
        counterOf (final (FetchPattern.cancel {} 0) repo) 0,
        counterOf ((final (FetchPattern.cancel {} 0) repo).after (tlvPlatform false false)
          firstData) 0)) =
      some (some (.counter ⟨true, 0, nameOf ["p"]⟩), true, some 0, some 1) := by decide
  obtain ⟨repo, reached, seen⟩ := Option.map_eq_some_iff.mp runs
  simp only [Prod.mk.injEq, decide_eq_true_eq] at seen
  obtain ⟨object, enabled, before, after⟩ := seen
  refine ⟨repo, reached, object, enabled, fun still => ?_⟩
  have counts := (still _ firstData ⟨[], List.prefix_rfl, rfl⟩).counts
  rw [before, after] at counts
  cases counts

/-- Cancelled before its first timer fires, the pattern never asks for a packet. -/
theorem final_beforeTimer :
    ∃ repo, smallRepo.run (tlvPlatform false false) [startCounter] = some repo ∧
      Final (tlvPlatform false false) (final (FetchPattern.cancel {} 0) repo) [firstTimer] 0 := by
  have runs : (smallRepo.run (tlvPlatform false false) [startCounter]).map
      (fun repo => repo.instances[0]?) =
      some (some (.counter ⟨true, 0, nameOf ["p"]⟩)) := by decide
  obtain ⟨repo, reached, object⟩ := Option.map_eq_some_iff.mp runs
  refine ⟨repo, reached,
    (final_iff (tlvPlatform false false) {} object [firstTimer]).mpr ?_⟩
  intro s occurrence taken delivers
  obtain ⟨before, within, _⟩ := taken
  obtain ⟨interest, data, delivery, _⟩ := delivers
  have timer : occurrence = firstTimer := by
    simpa using within.subset (List.mem_append_right before List.mem_cons_self)
  rw [timer] at delivery
  cases delivery

end CancelFinality

end FastRepo
