/-
What is fetched is served.

A packet that a handle writes successfully is stored, nothing leaves the store, and the prefix it
was announced under is listened for once it is registered. So, in a serving run (`ServingRun`):

* `served_run`: an Interest for what the insert command or a counter pattern wrote reaches the read
  handle and is answered, and so is one for each packet a counter pattern has counted.
* `completes_run`: a counter pattern that nothing disturbs does not stop before all ten are served.

What a recorder writes is stored as well, but it is announced only under the prefix of its pattern,
which need not be one of its name.
-/

import FastRepo.Repo.CounterFetch
import FastRepo.Repo.Registrations
import FastRepo.Repo.StoreHistory

namespace FastRepo

open FastRepoImpl PrefixCover Registrations RuntimeCoverage StoreState

namespace FetchedData

variable (platform : Platform)

/-! ### Serving runs -/

/-- A step serves: its write succeeds, its registration returns, and it cuts no pattern off, which
would leave callbacks to an object that is no more. -/
structure Serving (repo : FastRepoImpl) (occurrence : Occurrence) : Prop where
  succeeds : occurrence.outcomes.dbPut = true
  registers : occurrence.outcomes.throws .registerPrefix = none
  keepsAlive : ¬CallbackLifetime.CutsOff platform repo occurrence

/-- Every step of a run serves. -/
def ServingRun (start : FastRepoImpl) (occurrences : List Occurrence) : Prop :=
  ∀ repo occurrence, Runs.Takes (step platform) start occurrences repo occurrence →
    Serving platform repo occurrence

section Serving

variable {platform} {start repo : FastRepoImpl} {occurrence : Occurrence}
  {occurrences : List Occurrence}

/-- A run that asks to end no entry serves when its calls do. -/
theorem servingRun_of_calls (calls : ∀ occurrence ∈ occurrences,
      occurrence.outcomes.dbPut = true ∧ occurrence.outcomes.throws .registerPrefix = none ∧
        PatternState.cancelTarget platform occurrence.event = none) :
    ServingRun platform start occurrences := by
  rintro repo occurrence ⟨before, within, _⟩
  obtain ⟨succeeds, registers, noTarget⟩ := calls occurrence (within.subset (by simp))
  refine ⟨succeeds, registers, ?_⟩
  rintro ⟨fetchPrefix, instanceId, target, _⟩
  rw [noTarget] at target
  cases target

theorem ServingRun.concat (serving : ServingRun platform start occurrences)
    (reached : start.run platform occurrences = some repo)
    (last : Serving platform repo occurrence) :
    ServingRun platform start (occurrences ++ [occurrence]) := by
  rintro other event ⟨before, within, passed⟩
  rcases List.prefix_concat_iff.mp within with whole | earlier
  · obtain ⟨rfl, same⟩ := List.append_inj' whole rfl
    cases same
    cases reached.symm.trans passed
    exact last
  · exact serving other event ⟨before, earlier, passed⟩

end Serving

/-! ### Written packets are stored -/

/-- Whatever was written is stored under the name the write returned. -/
def AllStored (repo : FastRepoImpl) : Prop := ∀ put ∈ repo.puts, Stored platform repo put.name

variable {platform}

theorem allStored_after {repo : FastRepoImpl} {occurrence : Occurrence}
    (stored : AllStored platform repo) (succeeds : occurrence.outcomes.dbPut = true) :
    AllStored platform (repo.after platform occurrence) := by
  intro put member
  rcases writesAtMost_after platform repo occurrence with same | ⟨writer, data, _, same⟩
  · rw [show (repo.after platform occurrence).puts = repo.puts from congrArg Prod.snd same] at member
    exact (stored put member).congr same
  · rw [succeeds] at same
    rw [show (repo.after platform occurrence).puts = _ from congrArg Prod.snd same] at member
    rcases List.mem_append.mp member with before | new
    · exact stored_after platform (stored put before) occurrence
    · rw [List.mem_singleton.mp new]
      exact (stored_written_name platform repo writer data).congr same

section Run

variable {config : Config} {db : Db} {occurrences : List Occurrence} {last : FastRepoImpl}

/-- What is written is stored and covered, in every serving run. -/
theorem stored_and_covering (writable : config.readOnly = false) (listens : config.repoPrefixes ≠ [])
    (serving : ServingRun platform (started platform config db) occurrences)
    (reached : (started platform config db).run platform occurrences = some last) :
    AllStored platform last ∧ Covering platform config db last := by
  have succeeds : ∀ occurrence ∈ occurrences, occurrence.outcomes.dbPut = true := by
    intro occurrence member
    obtain ⟨repo, taken⟩ := Runs.takes_of_mem reached member
    exact (serving repo occurrence taken).succeeds
  have none : (started platform config db).puts = [] :=
    part_started platform (fun repo => repo.puts) (fun _ _ => rfl) (fun _ => rfl) config db
  refine Runs.run_keeps (I := fun repo => AllStored platform repo ∧ Covering platform config db repo)
    (C := fun occurrence => occurrence.outcomes.dbPut = true)
    ⟨fun put member => ?_, covering_started platform config db writable⟩
    (fun repo occurrence next succeeds both took => ?_) succeeds reached
  · rw [none] at member
    cases member
  · obtain ⟨enabled, rfl⟩ := (step_eq_some platform).mp took
    exact ⟨allStored_after both.1 succeeds, covering_after both.2 listens enabled succeeds⟩

/-- In a serving run the repo listens for whatever it passed to `listen`. -/
theorem listening_serving
    (serving : ServingRun platform (started platform config db) occurrences)
    (reached : (started platform config db).run platform occurrences = some last) :
    last.face.dataListeners = last.passedToListen := by
  refine listening_run (fun occurrence member => ?_) reached
  obtain ⟨repo, taken⟩ := Runs.takes_of_mem reached member
  exact (serving repo occurrence taken).registers

variable (platform) in
/-- An Interest for exactly the name reaches the read handle, which answers it with a packet of the
name. -/
def Serves (repo : FastRepoImpl) (n : Name) : Prop :=
  (∃ dataPrefix ∈ repo.face.dataListeners, dataPrefix <+: n) ∧
    ∃ packet : Data, packet.name = n ∧ ∀ outcomes : Outcomes, outcomes.throws .putData = none →
      (repo.after platform
        ⟨.readInterest { name := n, canBePrefix := false }, outcomes⟩).face.sent =
          repo.face.sent ++ [packet]

/-- A packet that is written is served under the name it is stored under, unless a recorder wrote
it. -/
theorem serves_put (well : (started platform config db).storage.WellStored platform.ndn)
    (writable : config.readOnly = false) (listens : config.repoPrefixes ≠ [])
    (serving : ServingRun platform (started platform config db) occurrences)
    (reached : (started platform config db).run platform occurrences = some last) {put : Put}
    (member : put ∈ last.puts) (announced : put.writer.isRecorder = false) :
    Serves platform last (storedName platform.ndn config.renamePrefix put.data) := by
  obtain ⟨stored, covering⟩ := stored_and_covering writable listens serving reached
  obtain ⟨named, covered⟩ := covering.puts put member
  obtain ⟨dataPrefix, registered, extension⟩ := covered announced
  obtain ⟨packet, found⟩ := stored put member
  have wellLast := StoreHistory.wellStored_run well reached
  have listening : last.face.dataListeners = last.config.dataPrefixes :=
    (listening_serving serving reached).trans covering.listened
  rw [← named]
  refine ⟨⟨dataPrefix, listening ▸ registered, extension⟩, packet,
    StorageEngine.contents_name platform.ndn wellLast found, fun outcomes returns => ?_⟩
  rw [StoreHistory.sent_exactRead wellLast rfl rfl returns, found]
  rfl

/-- Each packet a counter pattern has counted was written for the name of its number. -/
theorem put_of_counted
    (reached : (started platform config db).run platform occurrences = some last)
    {instanceId : InstanceId} {pattern : CounterPattern}
    (found : last.instances[instanceId]? = some (.counter pattern)) {index : Nat}
    (counted : index < pattern.counter) :
    ∃ put ∈ last.puts, put.writer.isRecorder = false ∧
      pattern.fetchPrefix ++ [.generic (Decimal.decimal index)] <+: put.data.name := by
  have ordered := (CounterFetch.orderly_run reached).inOrder instanceId
  unfold CounterFetch.InOrder at ordered
  rw [show (CounterFetch.viewOf last instanceId).object = some (.counter pattern) from found]
    at ordered
  have within : index < (CounterFetch.viewOf last instanceId).writes.length :=
    ordered.counted ▸ counted
  obtain ⟨written, own⟩ := List.mem_filter.mp (List.getElem_mem within)
  refine ⟨(CounterFetch.viewOf last instanceId).writes[index], written, ?_,
    ordered.named index _ (List.getElem?_eq_getElem within)⟩
  rw [of_decide_eq_true own]
  rfl

theorem renamed_prefix {n : Name} {data : Data} (extension : n <+: data.name) :
    platform.ndn.uri.ofUri config.renamePrefix ++ n <+:
      storedName platform.ndn config.renamePrefix data := by
  unfold storedName
  split
  · exact (List.prefix_append_right_inj _).mpr extension
  · rename_i none
    rw [not_not.mp none, platform.ndn.uri.ofUri_nil]
    exact extension

/-- A packet that a counter pattern has counted is served under a name that extends the one the
pattern asked for. -/
theorem serves_counted (well : (started platform config db).storage.WellStored platform.ndn)
    (writable : config.readOnly = false) (listens : config.repoPrefixes ≠ [])
    (serving : ServingRun platform (started platform config db) occurrences)
    (reached : (started platform config db).run platform occurrences = some last)
    {instanceId : InstanceId} {pattern : CounterPattern}
    (found : last.instances[instanceId]? = some (.counter pattern)) {index : Nat}
    (counted : index < pattern.counter) :
    ∃ n, platform.ndn.uri.ofUri config.renamePrefix ++
        (pattern.fetchPrefix ++ [.generic (Decimal.decimal index)]) <+: n ∧
      Serves platform last n := by
  obtain ⟨put, member, announced, asked⟩ := put_of_counted reached found counted
  exact ⟨_, renamed_prefix asked,
    serves_put well writable listens serving reached member announced⟩

/-- Serving: **in every serving run, whatever the insert command or a counter pattern wrote is
served from then on, under the name it is stored under; and so is each of the packets a counter
pattern has counted, under the rename prefix and a name that extends the one the pattern asked
for**, also after the pattern was cancelled. -/
theorem served_run (well : (started platform config db).storage.WellStored platform.ndn)
    (writable : config.readOnly = false) (listens : config.repoPrefixes ≠ [])
    (serving : ServingRun platform (started platform config db) occurrences)
    (reached : (started platform config db).run platform occurrences = some last) :
    (∀ put ∈ last.puts, put.writer.isRecorder = false →
      Serves platform last (storedName platform.ndn config.renamePrefix put.data)) ∧
    ∀ (instanceId : InstanceId) (pattern : CounterPattern) (index : Nat),
      last.instances[instanceId]? = some (.counter pattern) → index < pattern.counter →
        ∃ n, platform.ndn.uri.ofUri config.renamePrefix ++
            (pattern.fetchPrefix ++ [.generic (Decimal.decimal index)]) <+: n ∧
          Serves platform last n :=
  ⟨fun _ member announced => serves_put well writable listens serving reached member announced,
    fun _ _ _ found counted => serves_counted well writable listens serving reached found counted⟩

/-- The run cancels its pattern when nothing of it is pending. -/
theorem serving_insertAndFetch : ServingRun (tlvPlatform false false)
    (started (tlvPlatform false false) StoreHistory.renamingConfig ∅) insertAndFetch := by
  have ran : ((started (tlvPlatform false false) StoreHistory.renamingConfig ∅).run
      (tlvPlatform false false) insertAndFetch.dropLast).map
        (fun repo => (repo.face.timers, repo.face.patternInterests)) = some ([], []) := by decide
  obtain ⟨repo, reached, idle⟩ := Option.map_eq_some_iff.mp ran
  obtain ⟨timers, interests⟩ := Prod.mk.inj idle
  refine ServingRun.concat (servingRun_of_calls (by decide)) reached ⟨rfl, rfl, ?_⟩
  rintro ⟨_, _, _, _, ⟨timer, member, _⟩ | ⟨interest, member, _⟩⟩
  · rw [timers] at member
    cases member
  · rw [interests] at member
    cases member

/-- After its first packet the pattern's `/x/p/0` is served, also when it was cancelled. -/
theorem served_insertAndFetch : ∃ (last : FastRepoImpl) (n : Name),
    (started (tlvPlatform false false) StoreHistory.renamingConfig ∅).run (tlvPlatform false false)
        insertAndFetch = some last ∧
      ndnTlv.uri.ofUri (ascii "/x") ++ (nameOf ["p"] ++ [.generic (Decimal.decimal 0)]) <+: n ∧
      Serves (tlvPlatform false false) last n := by
  have ran : ((started (tlvPlatform false false) StoreHistory.renamingConfig ∅).run
      (tlvPlatform false false) insertAndFetch).map (fun repo => repo.instances[0]?) =
      some (some (.counter ⟨false, 1, nameOf ["p"]⟩)) := by decide
  obtain ⟨last, reached, found⟩ := Option.map_eq_some_iff.mp ran
  obtain ⟨n, extension, serves⟩ := (served_run
    (StoreHistory.wellStored_empty StoreHistory.renamingConfig) rfl (List.cons_ne_nil _ _)
    serving_insertAndFetch reached).2 0 _ 0 found (by decide)
  exact ⟨last, n, reached, extension, serves⟩

/-! ### A fetch that comes to its end -/

/-- Completion: **in every serving run that does not disturb a counter pattern, the pattern has all
ten packets fetched and served when it has nothing pending**. So a fetch that is not complete never
gets stuck. -/
theorem completes_run (well : (started platform config db).storage.WellStored platform.ndn)
    (writable : config.readOnly = false) (listens : config.repoPrefixes ≠ [])
    (serving : ServingRun platform (started platform config db) occurrences)
    (reached : (started platform config db).run platform occurrences = some last)
    {instanceId : InstanceId} (undisturbed : CounterFetch.UndisturbedRun platform
      (started platform config db) occurrences instanceId) {pattern : CounterPattern}
    (found : last.instances[instanceId]? = some (.counter pattern))
    (noTimer : (CounterFetch.viewOf last instanceId).timers = 0)
    (noInterest : (CounterFetch.viewOf last instanceId).interests = []) :
    pattern.counter = CounterPattern.limit ∧ pattern.running = false ∧
      ∀ index < CounterPattern.limit, ∃ n, platform.ndn.uri.ofUri config.renamePrefix ++
          (pattern.fetchPrefix ++ [.generic (Decimal.decimal index)]) <+: n ∧
        Serves platform last n := by
  have paced := (CounterFetch.inPace_run reached undisturbed).paced found
  obtain ⟨all, stopped⟩ := paced.finished noTimer noInterest
  refine ⟨all, stopped, fun index below => ?_⟩
  exact serves_counted well writable listens serving reached found (all ▸ below)

/-- A counter pattern for `/p` fetches its ten packets. -/
def wholeFetch : List Occurrence :=
  CallbackLifetime.startCounter :: (List.range 10).flatMap fun index =>
    [⟨.timer ⟨if index = 0 then 1 else 2000, 0⟩, {}⟩,
      ⟨.counterData ⟨nameOf ["p"] ++ [.generic (Decimal.decimal index)], 4000, 0⟩
        { name := nameOf ["p"] ++ [.generic (Decimal.decimal index)] }, {}⟩]

theorem undisturbed_wholeFetch (start : FastRepoImpl) (instanceId : InstanceId) :
    CounterFetch.UndisturbedRun (tlvPlatform false false) start wholeFetch instanceId := by
  have noTarget : ∀ occurrence ∈ wholeFetch,
      PatternState.cancelTarget (tlvPlatform false false) occurrence.event = none := by decide
  refine CounterFetch.undisturbedRun_of_quiet (fun occurrence member => ?_) noTarget
    (fun occurrence member interest => ?_) instanceId <;>
    rcases List.mem_cons.mp member with rfl | callback
  · exact fun _ => rfl
  · obtain ⟨index, _, here⟩ := List.mem_flatMap.mp callback
    simp only [List.mem_cons, List.not_mem_nil, or_false] at here
    rcases here with rfl | rfl <;> exact fun _ => rfl
  · exact Event.noConfusion
  · obtain ⟨index, _, here⟩ := List.mem_flatMap.mp callback
    simp only [List.mem_cons, List.not_mem_nil, or_false] at here
    rcases here with rfl | rfl <;> exact Event.noConfusion

/-- The last of the packets, `/p/9`, is served. -/
theorem completes_wholeFetch : ∃ (last : FastRepoImpl) (n : Name),
    (started (tlvPlatform false false) { repoPrefixes := [nameOf ["r"]] } ∅).run
        (tlvPlatform false false) wholeFetch = some last ∧
      ndnTlv.uri.ofUri [] ++ (nameOf ["p"] ++ [.generic (Decimal.decimal 9)]) <+: n ∧
      Serves (tlvPlatform false false) last n := by
  have ran : ((started (tlvPlatform false false) { repoPrefixes := [nameOf ["r"]] } ∅).run
      (tlvPlatform false false) wholeFetch).map (fun repo =>
        (repo.instances[0]?, (CounterFetch.viewOf repo 0).timers,
          (CounterFetch.viewOf repo 0).interests)) =
      some (some (.counter ⟨false, 10, nameOf ["p"]⟩), 0, []) := by decide
  obtain ⟨last, reached, same⟩ := Option.map_eq_some_iff.mp ran
  simp only [Prod.mk.injEq] at same
  obtain ⟨found, noTimer, noInterest⟩ := same
  obtain ⟨_, _, each⟩ := completes_run (StoreHistory.wellStored_empty _) rfl (List.cons_ne_nil _ _)
    (servingRun_of_calls (by decide)) reached (undisturbed_wholeFetch _ 0) found noTimer noInterest
  obtain ⟨n, extension, serves⟩ := each 9 (by decide)
  exact ⟨last, n, reached, extension, serves⟩

end Run

end FetchedData

end FastRepo
