/-
The store along a run.

`storedBy` is what an event stores, read off the state before it, and `history` what a whole run
stores, by an insert, a counter pattern or the recorder of an ndnrtc pattern. The repo is then a map
from names to packets with two operations, whatever else its handlers do and whichever of them
throw. Pattern objects live until their last callback here, as `FastRepoImpl` says.

* `contents_of_run`: the contents at the end are those at the start, overwritten by the history.
* `database_run`: so the database holds the encodings of these packets under the URIs of their
  names, and nothing else.
* `exactRead_run`: an Interest for one name is answered with the last packet stored under it.
* `prefixRead_run`: a prefix Interest is answered with the packet of the greatest candidate.
-/

import FastRepo.Lib.LastWrite
import FastRepo.Repo.FailedWrites
import FastRepo.Storage.PrefixLookup

namespace FastRepo

open Exits FastRepoImpl RuntimeCoverage StoreState FailedWrites

namespace StoreHistory

variable (platform : Platform)

/-! ### What an event stores -/

/-- The packet an event hands to the storage: the data of an insert command that has inserted
nothing, the data of a counter pattern, or a packet of a recorder. -/
def handedOver (repo : FastRepoImpl) : Event → Option Data
  | .insertData processId data =>
    match repo.processes[processId]? with
    | some process => if process.response.insertNum = 0 then some data else none
    | none => none
  | .counterData interest data =>
    match repo.instances[interest.pattern]? with
    | some (.counter _) => some data
    | _ => none
  | .recorderData _ data => some data
  | _ => none

/-- What an event stores, as it is stored: nothing when the write throws or fails. -/
def storedBy (repo : FastRepoImpl) (occurrence : Occurrence) : List Data :=
  if occurrence.outcomes.throws .storagePut = none ∧ occurrence.outcomes.dbPut = true then
    (handedOver repo occurrence.event).toList.map
      (storedData platform.ndn repo.storage.pimpl.renamePrefix)
  else []

/-- What a run stores, in order. -/
def history (start : FastRepoImpl) (occurrences : List Occurrence) : List Data :=
  Runs.outputs (step platform) (storedBy platform) start occurrences

section Step

variable {platform} {repo : FastRepoImpl} {occurrence : Occurrence}

/-- A packet that is handed over is written, unless the write throws. -/
theorem storeSide_handedOver {data : Data} (handed : handedOver repo occurrence.event = some data)
    (returns : occurrence.outcomes.throws .storagePut = none) :
    ∃ writer, storeSide (repo.after platform occurrence) =
      storeSide (repo.written platform occurrence.outcomes.dbPut writer data).1 := by
  obtain ⟨event, outcomes⟩ := occurrence
  cases event with
  | insertData processId packet =>
    simp only [handedOver] at handed
    split at handed
    · rename_i process record
      split at handed
      · rename_i nothing
        cases handed
        exact ⟨.insert processId, storeSide_insertData platform
          ((insertAnnounces_eq_some platform).mpr ⟨⟨process, record, nothing⟩, returns, rfl⟩)⟩
      · cases handed
    · cases handed
  | counterData interest packet =>
    simp only [handedOver] at handed
    split at handed
    · rename_i pattern found
      cases handed
      have there : (repo.taken (.counterData interest data)).instances[interest.pattern]? =
        some (.counter pattern) := found
      refine ⟨.pattern interest.pattern, ?_⟩
      show storeSide (final (CounterPattern.onData platform outcomes interest.pattern data) _) = _
      rw [CounterPattern.final_onData platform outcomes data there, if_pos returns,
        CounterPattern.final_scheduleNext]
      split <;> rfl
    · cases handed
  | recorderData instanceId packet =>
    cases handed
    refine ⟨.recorder instanceId, ?_⟩
    show storeSide (final (NdnrtcPattern.storeFun platform outcomes instanceId data) repo) = _
    rw [NdnrtcPattern.final_storeFun, if_pos returns]
  | _ => cases handed

/-- A callback of an insert command whose packet is not written leaves the store alone. -/
theorem storeSide_insertData_idle {outcomes : Outcomes} {processId : UInt64} {data : Data}
    (idle : handedOver repo (.insertData processId data) = none ∨
      outcomes.throws .storagePut ≠ none) :
    storeSide (repo.after platform ⟨.insertData processId data, outcomes⟩) = storeSide repo := by
  show storeSide (final (WriteHandle.onDataValidated platform outcomes data processId) repo) = _
  refine storeSide_of_coverSide (coverSide_insertData_idle platform ?_)
  cases named : insertAnnounces platform repo outcomes processId data with
  | none => rfl
  | some name =>
    obtain ⟨⟨process, record, nothing⟩, returns, _⟩ := (insertAnnounces_eq_some platform).mp named
    rcases idle with none | throws
    · rw [handedOver, record] at none
      simp only [if_pos nothing] at none
      cases none
    · exact absurd returns throws

/-- A callback of a counter pattern whose packet is not written leaves the store alone. -/
theorem storeSide_counterData_idle {outcomes : Outcomes} {interest : PatternInterest} {data : Data}
    (idle : handedOver repo (.counterData interest data) = none ∨
      outcomes.throws .storagePut ≠ none) :
    storeSide (repo.after platform ⟨.counterData interest data, outcomes⟩) = storeSide repo := by
  show storeSide (final (CounterPattern.onData platform outcomes interest.pattern data)
    (repo.taken (.counterData interest data))) = _
  by_cases counter : ∃ pattern : CounterPattern,
      repo.instances[interest.pattern]? = some (.counter pattern)
  · obtain ⟨pattern, found⟩ := counter
    have there : (repo.taken (.counterData interest data)).instances[interest.pattern]? =
      some (.counter pattern) := found
    have throws : outcomes.throws .storagePut ≠ none := by
      refine idle.resolve_left fun none => ?_
      rw [handedOver, found] at none
      cases none
    rw [CounterPattern.final_onData platform outcomes data there, if_neg throws]
    rfl
  · have other : ∀ pattern, (repo.taken (.counterData interest data)).instances[interest.pattern]? ≠
        some (.counter pattern) := fun pattern found => counter ⟨pattern, found⟩
    rw [CounterPattern.final_onData_of_ne platform outcomes _ data other]
    rfl

/-- Every other event leaves the store alone. -/
theorem storeSide_idle (idle : handedOver repo occurrence.event = none ∨
      occurrence.outcomes.throws .storagePut ≠ none) :
    storeSide (repo.after platform occurrence) = storeSide repo := by
  obtain ⟨event, outcomes⟩ := occurrence
  cases event with
  | insertData processId data => exact storeSide_insertData_idle idle
  | counterData interest data => exact storeSide_counterData_idle idle
  | recorderData instanceId data =>
    have throws : outcomes.throws .storagePut ≠ none := idle.resolve_left (Option.some_ne_none data)
    show storeSide (final (NdnrtcPattern.storeFun platform outcomes instanceId data) repo) = _
    rw [NdnrtcPattern.final_storeFun, if_neg throws]
  | _ =>
    refine (writesAtMost_after platform repo _).resolve_right ?_
    rintro ⟨writer, data, writes, _⟩
    cases writes

/-- The engine behind the storage: **an event stores one packet or leaves it alone**. -/
theorem pimpl_after (repo : FastRepoImpl) (occurrence : Occurrence) :
    (storedBy platform repo occurrence = [] ∧
        (repo.after platform occurrence).storage.pimpl = repo.storage.pimpl) ∨
      ∃ data, storedBy platform repo occurrence =
          [storedData platform.ndn repo.storage.pimpl.renamePrefix data] ∧
        (repo.after platform occurrence).storage.pimpl =
          (repo.storage.put platform.ndn data true).1.pimpl := by
  unfold storedBy
  by_cases returns : occurrence.outcomes.throws .storagePut = none
  · cases handed : handedOver repo occurrence.event with
    | none =>
      refine Or.inl ⟨by simp, ?_⟩
      exact congrArg (fun side => side.1.pimpl) (storeSide_idle (Or.inl handed))
    | some data =>
      obtain ⟨writer, same⟩ := storeSide_handedOver handed returns
      replace same := congrArg (fun side => side.1.pimpl) same
      cases ok : occurrence.outcomes.dbPut with
      | true =>
        refine Or.inr ⟨data, by simp [returns], same.trans ?_⟩
        rw [ok]
        rfl
      | false =>
        refine Or.inl ⟨by simp, same.trans ?_⟩
        rw [ok]
        exact (written_failed platform repo writer data).2
  · refine Or.inl ⟨by simp [returns], ?_⟩
    exact congrArg (fun side => side.1.pimpl) (storeSide_idle (Or.inr returns))

end Step

/-! ### Runs -/

section Runs

variable {platform} {repo : FastRepoImpl} {occurrence : Occurrence}

/-- Engines on one database have the same contents. -/
theorem contents_congr {first second : StorageEngine} (same : first.pimpl.db = second.pimpl.db) :
    first.contents platform.ndn = second.contents platform.ndn := by
  unfold StorageEngine.contents
  rw [same]

theorem wellStored_congr {first second : StorageEngine} (same : first.pimpl.db = second.pimpl.db)
    (well : second.WellStored platform.ndn) : first.WellStored platform.ndn := by
  unfold StorageEngine.WellStored
  rw [same]
  exact well

/-- One event overwrites the contents with what it stores. -/
theorem contents_after (repo : FastRepoImpl) (occurrence : Occurrence) :
    (repo.after platform occurrence).storage.contents platform.ndn =
      LastWrite.writeAll Data.name (repo.storage.contents platform.ndn)
        (storedBy platform repo occurrence) := by
  rcases pimpl_after repo occurrence with ⟨nothing, same⟩ | ⟨data, stores, same⟩
  · rw [contents_congr (congrArg StorageEngineImpl.db same), nothing]
    rfl
  · rw [contents_congr (congrArg StorageEngineImpl.db same), stores, StorageEngine.contents_put,
      ← storedData_name]
    rfl

theorem wellStored_after (well : repo.storage.WellStored platform.ndn) :
    (repo.after platform occurrence).storage.WellStored platform.ndn := by
  rcases pimpl_after repo occurrence with ⟨_, same⟩ | ⟨data, _, same⟩
  · exact wellStored_congr (congrArg StorageEngineImpl.db same) well
  · exact wellStored_congr (congrArg StorageEngineImpl.db same)
      (StorageEngine.wellStored_put platform.ndn well data)

variable {start last : FastRepoImpl} {occurrences : List Occurrence}

theorem wellStored_run (well : start.storage.WellStored platform.ndn)
    (reached : start.run platform occurrences = some last) :
    last.storage.WellStored platform.ndn :=
  run_invariant platform (I := fun repo => repo.storage.WellStored platform.ndn) well
    (fun _ _ well => wellStored_after well) reached

/-- The store: **the contents at the end of a run are those at its start, overwritten by what the
run stored**, whatever the libraries do. -/
theorem contents_of_run (reached : start.run platform occurrences = some last) :
    last.storage.contents platform.ndn =
      LastWrite.writeAll Data.name (start.storage.contents platform.ndn)
        (history platform start occurrences) :=
  Runs.abstracts_outputs (I := fun _ => True) (fun repo => repo.storage.contents platform.ndn)
    trivial (fun _ _ _ _ _ => trivial) (fun repo occurrence next _ step => by
      obtain ⟨_, rfl⟩ := (step_eq_some platform).mp step
      exact contents_after repo occurrence) reached

end Runs

/-! ### Reads -/

/-- The answer to a prefix Interest, seen on the contents: the packet under the greatest candidate,
or nothing when no stored name is one. -/
structure AnswersGreatest (ndn : NdnCpp) (store : PacketStore) (interest : Interest)
    (answer : Option Data) : Prop where
  found : ∀ data, answer = some data → store data.name = some data ∧
    isCandidate ndn interest (ndn.uri.toUri data.name) = true ∧
    ∀ (n : Name) (other : Data), store n = some other →
      isCandidate ndn interest (ndn.uri.toUri n) = true →
        (compare (ndn.uri.toUri n) (ndn.uri.toUri data.name)).isLE
  missing : answer = none → ∀ (n : Name) (other : Data), store n = some other →
    isCandidate ndn interest (ndn.uri.toUri n) = false

section Reads

/-- The entries of a well-stored database are the contents. -/
theorem mem_of_contents {ndn : NdnCpp} {engine : StorageEngine} (well : engine.WellStored ndn)
    {n : Name} {data : Data} (found : engine.contents ndn n = some data) :
    (ndn.uri.toUri n, ndn.wire.wireEncode data) ∈ engine.pimpl.db.toList := by
  have name := StorageEngine.contents_name ndn well found
  unfold StorageEngine.contents at found
  obtain ⟨value, stored, decoded⟩ := Option.bind_eq_some_iff.mp found
  obtain ⟨other, _, rfl⟩ := well _ _ stored
  rw [ndn.wire.wireDecode_wireEncode] at decoded
  cases decoded
  exact Std.TreeMap.mem_toList_iff_getElem?_eq_some.mpr stored

theorem contents_of_mem {ndn : NdnCpp} {engine : StorageEngine} {data : Data}
    (member : (ndn.uri.toUri data.name, ndn.wire.wireEncode data) ∈ engine.pimpl.db.toList) :
    engine.contents ndn data.name = some data := by
  rw [StorageEngine.contents, Std.TreeMap.mem_toList_iff_getElem?_eq_some.mp member,
    Option.bind_some, ndn.wire.wireDecode_wireEncode]

/-- A prefix read of an engine, seen on its contents. -/
theorem exists_answersGreatest {ndn : NdnCpp} {engine : StorageEngine}
    (well : engine.WellStored ndn) {interest : Interest}
    (canBePrefix : interest.canBePrefix = true) :
    ∃ answer, engine.read ndn interest = .ok answer ∧
      AnswersGreatest ndn (engine.contents ndn) interest answer := by
  have reads := StorageEngine.readsGreatest ndn well canBePrefix
  obtain ⟨answer, returned⟩ := reads.total
  refine ⟨answer, returned, ?_, ?_⟩
  · rintro data rfl
    have greatest := (reads.found data).mp returned
    exact ⟨contents_of_mem greatest.member, greatest.passes, fun n other stored candidate =>
      greatest.greatest _ (mem_of_contents well stored) candidate⟩
  · rintro rfl n other stored
    exact reads.missing.mp returned _ (mem_of_contents well stored)

/-- An exact read of an engine, seen on its contents. -/
theorem read_exact {ndn : NdnCpp} {engine : StorageEngine} (well : engine.WellStored ndn)
    {interest : Interest} (exact : interest.canBePrefix = false) :
    engine.read ndn interest = .ok (engine.contents ndn interest.name) := by
  rw [← StorageEngine.get_eq_contents ndn well]
  simp [StorageEngine.read, StorageEngineImpl.read, StorageEngine.get, exact]

/-- What is read is stored under its name. -/
theorem contents_of_read {ndn : NdnCpp} {engine : StorageEngine} (well : engine.WellStored ndn)
    {interest : Interest} {packet : Data} (read : engine.read ndn interest = .ok (some packet)) :
    engine.contents ndn packet.name = some packet := by
  cases kind : interest.canBePrefix with
  | true =>
    obtain ⟨answer, returned, greatest⟩ := exists_answersGreatest well kind
    rw [read, Except.ok.injEq] at returned
    exact (greatest.found packet returned.symm).1
  | false =>
    rw [read_exact well kind, Except.ok.injEq] at read
    rw [StorageEngine.contents_name ndn well read]
    exact read

variable {platform} {start last : FastRepoImpl} {occurrences : List Occurrence}
  {interest : Interest} {outcomes : Outcomes}

/-- What the read handle does with an Interest it does not ignore. -/
theorem sent_readInterest {repo : FastRepoImpl} {answer : Option Data}
    (stale : interest.mustBeFresh = false)
    (read : repo.storage.read platform.ndn interest = .ok answer)
    (returns : outcomes.throws .putData = none) :
    (repo.after platform ⟨.readInterest interest, outcomes⟩).face.sent =
      repo.face.sent ++ answer.toList := by
  show (final (ReadHandle.answer platform outcomes interest) repo).face.sent = _
  have onInterest : ReadHandle.onInterest platform.ndn repo.storage interest = .ok answer := by
    rw [ReadHandle.onInterest, if_pos stale, read]
  unfold ReadHandle.answer
  rw [final_get_bind, onInterest]
  cases answer with
  | none => exact (List.append_nil _).symm
  | some data =>
    show (final (call outcomes .putData >>= fun _ => modify fun repo => repo.send data)
      repo).face.sent = _
    rw [call, returns]
    rfl

/-- The database: **in every state of every run, a key has a value exactly when they are the URI of
the name and the encoding of a packet that is the last one stored under its name, by the run or
before it**. -/
theorem database_run (well : start.storage.WellStored platform.ndn)
    (reached : start.run platform occurrences = some last) (key value : Bytes) :
    last.storage.pimpl.db[key]? = some value ↔ ∃ data,
      LastWrite.writeAll Data.name (start.storage.contents platform.ndn)
          (history platform start occurrences) data.name = some data ∧
        key = platform.ndn.uri.toUri data.name ∧ value = platform.ndn.wire.wireEncode data := by
  rw [← contents_of_run reached]
  constructor
  · intro found
    obtain ⟨data, rfl, rfl⟩ := wellStored_run well reached key value found
    exact ⟨data, contents_of_mem (Std.TreeMap.mem_toList_iff_getElem?_eq_some.mpr found), rfl, rfl⟩
  · rintro ⟨data, stored, rfl, rfl⟩
    exact Std.TreeMap.mem_toList_iff_getElem?_eq_some.mp
      (mem_of_contents (wellStored_run well reached) stored)

/-- An Interest for one name is answered with the packet under the name, if there is one. -/
theorem sent_exactRead {repo : FastRepoImpl} (well : repo.storage.WellStored platform.ndn)
    (exact : interest.canBePrefix = false) (stale : interest.mustBeFresh = false)
    (returns : outcomes.throws .putData = none) :
    (repo.after platform ⟨.readInterest interest, outcomes⟩).face.sent =
      repo.face.sent ++ (repo.storage.contents platform.ndn interest.name).toList :=
  sent_readInterest stale (read_exact well exact) returns

/-- Exact reads: **in every state of every run, an Interest for one name is answered with the last
packet the run stored under that name**, or with the one that was there at its start, or not at
all. -/
theorem exactRead_run (well : start.storage.WellStored platform.ndn)
    (reached : start.run platform occurrences = some last) (exact : interest.canBePrefix = false)
    (stale : interest.mustBeFresh = false) (returns : outcomes.throws .putData = none) :
    (last.after platform ⟨.readInterest interest, outcomes⟩).face.sent =
      last.face.sent ++ (((history platform start occurrences).filter fun data =>
        data.name = interest.name).getLast?.or
          (start.storage.contents platform.ndn interest.name)).toList := by
  rw [sent_exactRead (wellStored_run well reached) exact stale returns, contents_of_run reached,
    LastWrite.writeAll_apply]

/-- Prefix reads: **in every state of every run, a prefix Interest is answered with the packet under
the greatest candidate among the names stored by the run and before it**. -/
theorem prefixRead_run (well : start.storage.WellStored platform.ndn)
    (reached : start.run platform occurrences = some last)
    (canBePrefix : interest.canBePrefix = true) (stale : interest.mustBeFresh = false)
    (returns : outcomes.throws .putData = none) :
    ∃ answer, (last.after platform ⟨.readInterest interest, outcomes⟩).face.sent =
        last.face.sent ++ answer.toList ∧
      AnswersGreatest platform.ndn (LastWrite.writeAll Data.name
        (start.storage.contents platform.ndn) (history platform start occurrences)) interest
          answer := by
  obtain ⟨answer, read, greatest⟩ :=
    exists_answersGreatest (wellStored_run well reached) canBePrefix
  rw [contents_of_run reached] at greatest
  exact ⟨answer, sent_readInterest stale read returns, greatest⟩

/-! ### A run, and what is read after it -/

/-- The storage of a repo at its start is on the database it was given. -/
theorem started_db (config : Config) (db : Db) :
    (started platform config db).storage.pimpl.db = db ∧
      (started platform config db).storage.pimpl.renamePrefix = config.renamePrefix :=
  Prod.mk.inj (part_started platform (fun repo => (repo.storage.pimpl.db,
    repo.storage.pimpl.renamePrefix)) (fun _ _ => rfl) (fun _ => rfl) config db)

theorem wellStored_empty (config : Config) :
    (started platform config ∅).storage.WellStored platform.ndn := by
  intro key value found
  rw [(started_db config ∅).1] at found
  simp at found

/-- The config of the run `insertAndFetch`. -/
def renamingConfig : Config :=
  { repoPrefixes := [nameOf ["r"], nameOf ["q"]], renamePrefix := ascii "/x" }

/-- The run stores what a counter pattern fetched under the rename prefix. -/
theorem database_insertAndFetch : ∃ repo : FastRepoImpl,
    (started (tlvPlatform false false) renamingConfig ∅).run (tlvPlatform false false)
        insertAndFetch = some repo ∧
      repo.storage.pimpl.db[ndnTlv.uri.toUri (nameOf ["x", "p", "0"])]? =
        some (ndnTlv.wire.wireEncode
          (storedData ndnTlv (ascii "/x") { name := nameOf ["p", "0"] })) := by
  have ran : ((started (tlvPlatform false false) renamingConfig ∅).run (tlvPlatform false false)
      insertAndFetch).isSome = true := by decide
  refine ⟨_, (Option.some_get ran).symm, (database_run (wellStored_empty renamingConfig)
    (Option.some_get ran).symm _ _).mpr ⟨_, ?_, by decide, rfl⟩⟩
  rw [LastWrite.writeAll_apply]
  decide

/-- After the run `/x/a` is answered with the packet that was inserted as `/a`. -/
theorem exactRead_insertAndFetch : ∃ repo : FastRepoImpl,
    (repo.after (tlvPlatform false false)
        ⟨.readInterest { name := nameOf ["x", "a"], canBePrefix := false }, {}⟩).face.sent =
      repo.face.sent ++ [storedData ndnTlv (ascii "/x") { name := nameOf ["a"] }] := by
  have ran : ((started (tlvPlatform false false) renamingConfig ∅).run (tlvPlatform false false)
      insertAndFetch).isSome = true := by decide
  refine ⟨_, (exactRead_run (wellStored_empty renamingConfig) (Option.some_get ran).symm rfl rfl
    rfl).trans ?_⟩
  congr 1

/-- After the run some packet is the answer to `/x`. -/
theorem prefixRead_insertAndFetch : ∃ (repo : FastRepoImpl) (answer : Option Data),
    (repo.after (tlvPlatform false false)
        ⟨.readInterest { name := nameOf ["x"] }, {}⟩).face.sent =
      repo.face.sent ++ answer.toList ∧ answer ≠ none := by
  have ran : ((started (tlvPlatform false false) renamingConfig ∅).run (tlvPlatform false false)
      insertAndFetch).isSome = true := by decide
  have returns : ({} : Outcomes).throws .putData = none := rfl
  have canBePrefix : ({ name := nameOf ["x"] } : Interest).canBePrefix = true := rfl
  obtain ⟨answer, sent, greatest⟩ := prefixRead_run (wellStored_empty renamingConfig)
    (Option.some_get ran).symm canBePrefix rfl returns
  refine ⟨_, answer, sent, fun none => ?_⟩
  have candidate := greatest.missing none (nameOf ["x", "a"])
    (storedData ndnTlv (ascii "/x") { name := nameOf ["a"] }) ?_
  · revert candidate
    decide
  · rw [LastWrite.writeAll_apply]
    decide

end Reads

end StoreHistory

end FastRepo
