/-
What an event does to the store.

A packet enters the store through one of three callbacks: the one of an insert command, the one of a
counter pattern, and the one a recorder was given. `writesAtMost_after` says so for every event,
whatever the libraries do, and `stored_run` that nothing leaves the store.
-/

import FastRepo.Repo.RuntimeCoverage

namespace FastRepo

open Exits FastRepoImpl PatternState RuntimeCoverage

namespace StoreState

variable (platform : Platform)

/-! ### What is in the store -/

/-- The name is the name of a packet in the store. -/
def Stored (repo : FastRepoImpl) (n : Name) : Prop :=
  ∃ data, repo.storage.contents platform.ndn n = some data

/-- A failed write returns the empty name and leaves the database alone. -/
theorem written_failed (repo : FastRepoImpl) (writer : Writer) (data : Data) :
    (repo.written platform false writer data).2 = [] ∧
      (repo.written platform false writer data).1.storage.pimpl = repo.storage.pimpl := by
  unfold written StorageEngine.put StorageEngineImpl.put
  split <;> exact ⟨rfl, rfl⟩

/-- A successful write stores a packet under the name it returns. -/
theorem stored_written_name (repo : FastRepoImpl) (writer : Writer) (data : Data) :
    Stored platform (repo.written platform true writer data).1
      (repo.written platform true writer data).2 := by
  refine ⟨storedData platform.ndn repo.storage.pimpl.renamePrefix data, ?_⟩
  rw [written_name]
  show (repo.storage.put platform.ndn data true).1.contents platform.ndn _ = _
  rw [StorageEngine.contents_put, Function.update_self]

/-- A write takes nothing out of the store. -/
theorem stored_written {repo : FastRepoImpl} {n : Name} (stored : Stored platform repo n)
    (ok : Bool) (writer : Writer) (data : Data) :
    Stored platform (repo.written platform ok writer data).1 n := by
  cases ok with
  | false =>
    unfold Stored StorageEngine.contents
    rw [(written_failed platform repo writer data).2]
    exact stored
  | true =>
    by_cases same : n = (repo.written platform true writer data).2
    · rw [same]
      exact stored_written_name platform repo writer data
    · rw [written_name] at same
      unfold Stored
      show ∃ _, (repo.storage.put platform.ndn data true).1.contents platform.ndn n = _
      rw [StorageEngine.contents_put, Function.update_of_ne same]
      exact stored

/-! ### What an event does to the store -/

/-- The store, and the history of its writes. -/
def storeSide (repo : FastRepoImpl) : StorageEngine × List Put := (repo.storage, repo.puts)

/-- The packet an event may write, and who writes it. -/
def writes : Event → Option (Writer × Data)
  | .insertData processId data => some (.insert processId, data)
  | .counterData interest data => some (.pattern interest.pattern, data)
  | .recorderData instanceId data => some (.recorder instanceId, data)
  | _ => none

/-- The store is as it was, or as the write of the event leaves it. -/
def WritesAtMost (repo next : FastRepoImpl) (occurrence : Occurrence) : Prop :=
  storeSide next = storeSide repo ∨
    ∃ writer data, writes occurrence.event = some (writer, data) ∧
      storeSide next =
        storeSide (repo.written platform occurrence.outcomes.dbPut writer data).1

theorem storeSide_of_coverSide {first second : FastRepoImpl}
    (same : coverSide first = coverSide second) : storeSide first = storeSide second :=
  congrArg (fun side => (side.2.1, side.2.2.1)) same

theorem storeSide_announced (repo : FastRepoImpl) (outcomes : Outcomes) (name : Name) :
    storeSide (repo.announced outcomes name) = storeSide repo :=
  part_announced storeSide (fun _ _ _ _ => rfl) repo outcomes name

variable {platform} in
theorem Stored.congr {repo next : FastRepoImpl} {n : Name} (stored : Stored platform repo n)
    (same : storeSide next = storeSide repo) : Stored platform next n := by
  unfold Stored
  rw [show next.storage = repo.storage from congrArg Prod.fst same]
  exact stored

/-- A callback of an insert command that announces a name has written its packet. -/
theorem storeSide_insertData {repo : FastRepoImpl} {outcomes : Outcomes} {processId : UInt64}
    {data : Data} {name : Name}
    (named : insertAnnounces platform repo outcomes processId data = some name) :
    storeSide (final (WriteHandle.onDataValidated platform outcomes data processId) repo) =
      storeSide (repo.written platform outcomes.dbPut (.insert processId) data).1 := by
  rw [storeSide_of_coverSide (coverSide_insertData_signal platform named).2]
  split
  · rfl
  · exact storeSide_announced _ outcomes name

theorem writesAtMost_insertData (repo : FastRepoImpl) (outcomes : Outcomes) (processId : UInt64)
    (data : Data) : WritesAtMost platform repo
      (final (WriteHandle.onDataValidated platform outcomes data processId) repo)
      ⟨.insertData processId data, outcomes⟩ := by
  cases named : insertAnnounces platform repo outcomes processId data with
  | none => exact Or.inl (storeSide_of_coverSide (coverSide_insertData_idle platform named))
  | some name =>
    exact Or.inr ⟨.insert processId, data, rfl, storeSide_insertData platform named⟩

theorem storeSide_patternCommand (repo : FastRepoImpl) (outcomes : Outcomes) (interest : Interest)
    (cmdPrefix : Name) :
    storeSide (final (PatternHandle.onInterest platform outcomes interest cmdPrefix) repo) =
      storeSide repo := by
  cases named : patternAnnounces platform repo outcomes interest cmdPrefix with
  | none =>
    rcases patternCommand_idle platform named with sends | ⟨kind, pattern, threw⟩
    · exact storeSide_of_coverSide (coverSide_of_sendsAtMost sends)
    · rw [threw]
      rfl
  | some name =>
    obtain ⟨fetchPrefix, kind, _, sends⟩ := patternCommand_starts platform named
    rw [storeSide_of_coverSide (coverSide_of_sendsAtMost sends)]
    unfold PatternHandle.started
    split
    · rfl
    · exact storeSide_announced _ _ _

theorem storeSide_target {repo : FastRepoImpl} (occurrence : Occurrence) {fetchPrefix : Name}
    (target : cancelTarget platform occurrence.event = some fetchPrefix) :
    storeSide (repo.after platform occurrence) = storeSide repo := by
  cases found : repo.patterns[fetchPrefix]? with
  | none =>
    exact storeSide_of_coverSide (coverSide_of_sendsAtMost
      (sendsAtMost_of_target_absent platform target found))
  | some instanceId =>
    rcases after_of_target platform target found with sends | ⟨same, _⟩
    · rw [storeSide_of_coverSide (coverSide_of_sendsAtMost sends)]
      unfold PatternHandle.ended FetchPattern.cancelledAt
      cases repo.instances[instanceId]? <;> rfl
    · rw [same]

/-- One event: **the store is as it was, or as the write of the event leaves it**. -/
theorem writesAtMost_after (repo : FastRepoImpl) (occurrence : Occurrence) :
    WritesAtMost platform repo (repo.after platform occurrence) occurrence := by
  obtain ⟨event, outcomes⟩ := occurrence
  cases event with
  | insertCommand cmdPrefix interest processId =>
    exact Or.inl (storeSide_of_coverSide
      (frames_onValidated ignoresRecords_coverSide outcomes interest cmdPrefix processId repo))
  | insertData processId data => exact writesAtMost_insertData platform repo outcomes processId data
  | insertTimeout processId => exact Or.inl rfl
  | insertNack processId => exact Or.inl rfl
  | patternCommand cmdPrefix interest =>
    exact Or.inl (storeSide_patternCommand platform repo outcomes interest cmdPrefix)
  | cancelCommand cmdPrefix interest =>
    cases target : PatternHandle.cancelsFor platform interest cmdPrefix with
    | none =>
      refine Or.inl (storeSide_of_coverSide (coverSide_of_sendsAtMost ?_))
      show PatternHandle.SendsAtMost repo
        (final (PatternHandle.onCancelRequest platform outcomes interest cmdPrefix) repo)
      rw [PatternHandle.onCancelRequest_rejected platform outcomes target]
      exact PatternHandle.sendsAtMost_negativeReply platform outcomes interest 403 repo
    | some fetchPrefix =>
      exact Or.inl
        (storeSide_target platform ⟨.cancelCommand cmdPrefix interest, outcomes⟩ target)
  | removePattern fetchPrefix =>
    exact Or.inl (storeSide_target platform ⟨.removePattern fetchPrefix, outcomes⟩ rfl)
  | timer timer =>
    rcases CounterPattern.doFetch_cases outcomes timer.pattern (repo.taken (.timer timer)) with
      nothing | ⟨_, _, expressed⟩
    · exact Or.inl ((congrArg storeSide nothing).trans rfl)
    · exact Or.inl ((congrArg storeSide expressed).trans rfl)
  | counterData interest data =>
    rcases CounterPattern.onData_cases platform outcomes interest.pattern data
      (repo.taken (.counterData interest data)) with nothing | ⟨_, _, _, _, counted | scheduled⟩
    · exact Or.inl ((congrArg storeSide nothing).trans rfl)
    · exact Or.inr ⟨.pattern interest.pattern, data, rfl,
        (congrArg storeSide counted).trans rfl⟩
    · exact Or.inr ⟨.pattern interest.pattern, data, rfl,
        (congrArg storeSide scheduled).trans rfl⟩
  | counterTimeout interest => exact Or.inl rfl
  | recorderData instanceId data =>
    show WritesAtMost platform repo
      (final (NdnrtcPattern.storeFun platform outcomes instanceId data) repo) _
    rw [NdnrtcPattern.final_storeFun]
    split
    · exact Or.inr ⟨.recorder instanceId, data, rfl, rfl⟩
    · exact Or.inl rfl
  | readInterest interest =>
    exact Or.inl (storeSide_of_coverSide (frames_answer (fun _ _ => rfl) outcomes interest repo))

theorem stored_after {repo : FastRepoImpl} {n : Name} (stored : Stored platform repo n)
    (occurrence : Occurrence) : Stored platform (repo.after platform occurrence) n := by
  rcases writesAtMost_after platform repo occurrence with same | ⟨writer, data, _, same⟩
  · exact stored.congr same
  · exact (stored_written platform stored _ writer data).congr same

/-- What is in the store stays there. -/
theorem stored_run {repo last : FastRepoImpl} {n : Name} (stored : Stored platform repo n)
    {occurrences : List Occurrence} (reached : repo.run platform occurrences = some last) :
    Stored platform last n :=
  run_invariant platform (I := fun repo => Stored platform repo n) stored
    (fun _ occurrence stored => stored_after platform stored occurrence) reached

end StoreState

end FastRepo
