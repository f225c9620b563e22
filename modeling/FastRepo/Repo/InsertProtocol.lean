/-
The insert protocol: every accepted command ends exactly once.

The history of a run says what became of each process id: whether a command was accepted under it,
and what its first callback brought. `Ledger` ties the state to the history: the records are those
of the accepted processes without a callback so far, and the packets written for a process are the
one its first callback brought, if it brought one. One step keeps the ledger (`ledger_step`), so
every run does.
-/

import FastRepo.Handles.CommandTlv
import FastRepo.Lib.Lookup
import FastRepo.Repo.Frames
import FastRepo.Storage.PacketStore

namespace FastRepo

open Exits FastRepoImpl

namespace InsertProtocol

variable (platform : Platform)

/-! ### The history of a process id -/

/-- The process id of an insert command whose parameter can be extracted. -/
def acceptedId (occurrence : Occurrence) : Option UInt64 :=
  match occurrence.event with
  | .insertCommand cmdPrefix interest processId =>
    match BaseHandle.extractParameter platform interest cmdPrefix with
    | .ok _ => some processId
    | .error _ => none
  | _ => none

/-- What a callback for the process id brings: a packet, or nothing on a timeout or a nack. -/
def callback (processId : UInt64) (occurrence : Occurrence) : Option (Option Data) :=
  match occurrence.event with
  | .insertData other data => if other = processId then some (some data) else none
  | .insertTimeout other | .insertNack other => if other = processId then some none else none
  | _ => none

/-- The process ids of the accepted commands of a run. -/
def acceptedIds (occurrences : List Occurrence) : List UInt64 :=
  occurrences.filterMap (acceptedId platform)

/-- What the first callback for the process id brought. -/
def firstCallback (processId : UInt64) (occurrences : List Occurrence) : Option (Option Data) :=
  occurrences.findSome? (callback processId)

/-- The packets that were written for a process. -/
def insertPuts (repo : FastRepoImpl) (processId : UInt64) : List Data :=
  (repo.puts.filter fun put => put.writer = .insert processId).map Put.data

/-- The packets a first callback makes the handle write. -/
def packetsOf : Option (Option Data) → List Data
  | some (some data) => [data]
  | _ => []

/-! ### What the handlers of the insert command do -/

section Handlers

variable {outcomes : Outcomes} (quiet : outcomes.Quiet) (repo : FastRepoImpl)

theorem processes_updateResponse (processId other : UInt64)
    (change : RepoCommandResponse → RepoCommandResponse) :
    (repo.updateResponse processId change).processes[other]? =
      if other = processId then some ⟨change (repo.processes[processId]?.getD {}).response⟩
      else repo.processes[other]? :=
  Lookup.getElem?_insert _ _ _ _

theorem processes_eraseProcess (processId other : UInt64) :
    (repo.eraseProcess processId).processes[other]? =
      if other = processId then none else repo.processes[other]? :=
  Lookup.getElem?_erase _ _ _

/-- The repo after an accepted insert command: a record with status 300, the reply with status 100,
and the Interest that fetches the packet. -/
def accept (interest : Interest) (parameter : RepoCommandParameter) (processId : UInt64) :
    FastRepoImpl :=
  let recorded := repo.updateResponse processId (WriteHandle.initialResponse processId)
  let fetching := (recorded.replied platform interest ⟨processId, 100, 0⟩).updateResponse processId
    fun response => { response with statusCode := 300 }
  fetching.addInsertInterest ⟨parameter.name.map .generic, WriteHandle.fetchLifetimeMs, processId⟩

/-- An accepted command makes its record, and then replies and asks for the packet. -/
theorem onValidated_apply {interest : Interest} {cmdPrefix : Name}
    {parameter : RepoCommandParameter}
    (extracted : BaseHandle.extractParameter platform interest cmdPrefix = .ok parameter)
    (processId : UInt64) :
    WriteHandle.onValidated platform outcomes interest cmdPrefix processId repo =
      (do
        BaseHandle.reply platform outcomes interest ⟨processId, 100, 0⟩
        modify fun repo =>
          repo.updateResponse processId fun response => { response with statusCode := 300 }
        call outcomes .expressInterest
        modify fun repo => repo.addInsertInterest
          ⟨parameter.name.map .generic, WriteHandle.fetchLifetimeMs, processId⟩ : Handler Unit)
        (repo.updateResponse processId (WriteHandle.initialResponse processId)) := by
  have response : ((repo.updateResponse processId
      (WriteHandle.initialResponse processId)).processes[processId]?.getD {}).response =
      ⟨processId, 100, 0⟩ := by
    rw [processes_updateResponse, if_pos rfl]
    rfl
  unfold WriteHandle.onValidated
  rw [extracted]
  show WriteHandle.processSingleInsertCommand platform outcomes interest parameter processId repo = _
  unfold WriteHandle.processSingleInsertCommand
  rw [bind_apply, modify_apply]
  show (get >>= _ : Handler Unit) _ = _
  rw [bind_apply, get_apply]
  show (BaseHandle.reply platform outcomes interest _ >>= _ : Handler Unit) _ = _
  rw [response]

/-- The first packet of a process is written and announced, and then the record is erased. -/
theorem onDataValidated_apply {processId : UInt64} {process : ProcessInfo}
    (record : repo.processes[processId]? = some process)
    (nothing : process.response.insertNum = 0) (data : Data) :
    WriteHandle.onDataValidated platform outcomes data processId repo =
      (do
        let n ← FastRepoImpl.put platform outcomes (.insert processId) data
        modify fun repo =>
          repo.updateResponse processId fun response => { response with insertNum := 1 }
        FastRepoImpl.dataInsertionSignal outcomes n
        modify fun repo => repo.eraseProcess processId : Handler Unit) repo := by
  unfold WriteHandle.onDataValidated
  rw [bind_apply, get_apply]
  simp only [record]
  rw [WriteHandle.insertFetched, if_pos nothing]
  simp only [bind_assoc]

include quiet

theorem onValidated_rejected {interest : Interest} {cmdPrefix : Name} {exn : Exn}
    (failed : BaseHandle.extractParameter platform interest cmdPrefix = .error exn)
    (processId : UInt64) :
    WriteHandle.onValidated platform outcomes interest cmdPrefix processId repo =
      .ok () (repo.replied platform interest (BaseHandle.statusOnly 403)) := by
  unfold WriteHandle.onValidated
  rw [failed]
  exact BaseHandle.reply_quiet platform quiet interest _ repo

theorem onValidated_accepted {interest : Interest} {cmdPrefix : Name}
    {parameter : RepoCommandParameter}
    (extracted : BaseHandle.extractParameter platform interest cmdPrefix = .ok parameter)
    (processId : UInt64) :
    WriteHandle.onValidated platform outcomes interest cmdPrefix processId repo =
      .ok () (accept platform repo interest parameter processId) := by
  rw [onValidated_apply platform repo extracted processId, bind_apply,
    BaseHandle.reply_quiet platform quiet]
  simp only [bind_apply, modify_apply, call_quiet quiet]
  rfl

omit quiet in
/-- The repo after the first callback of a process brought a packet: the packet is written, its name
announced, and the record erased. -/
def finish (outcomes : Outcomes) (data : Data) (processId : UInt64) : FastRepoImpl :=
  let result := repo.written platform outcomes.dbPut (.insert processId) data
  let counted := result.1.updateResponse processId fun response => { response with insertNum := 1 }
  (if counted.insertionSlots = 0 then counted
    else counted.announced outcomes result.2).eraseProcess processId

omit quiet in
theorem storage_finish (outcomes : Outcomes) (data : Data) (processId : UInt64) :
    (finish platform repo outcomes data processId).storage =
      (repo.storage.put platform.ndn data outcomes.dbPut).1 := by
  show (ite _ _ _ : FastRepoImpl).storage = _
  split
  · rfl
  · exact part_announced (fun repo => repo.storage) (fun _ _ _ _ => rfl) _ outcomes _

omit quiet in
theorem onDataValidated_late {processId : UInt64} (absent : repo.processes[processId]? = none)
    (data : Data) :
    WriteHandle.onDataValidated platform outcomes data processId repo = .ok () repo := by
  unfold WriteHandle.onDataValidated
  rw [bind_apply, get_apply]
  simp only [absent]
  rfl

theorem onDataValidated_first {processId : UInt64} {process : ProcessInfo}
    (record : repo.processes[processId]? = some process)
    (nothing : process.response.insertNum = 0) (data : Data) :
    WriteHandle.onDataValidated platform outcomes data processId repo =
      .ok () (finish platform repo outcomes data processId) := by
  rw [onDataValidated_apply platform repo record nothing data, bind_apply,
    FastRepoImpl.put_quiet platform quiet]
  simp only [bind_apply, modify_apply, FastRepoImpl.dataInsertionSignal_quiet quiet]
  rfl

end Handlers

/-! ### One step -/

/-- The insert command's part of the state: the records, the Interests expressed, and the writes. -/
def insertSide (repo : FastRepoImpl) :
    Std.TreeMap UInt64 ProcessInfo × List InsertInterest × (UInt64 → List Data) :=
  (repo.processes, repo.face.insertInterests, insertPuts repo)

/-- What an occurrence does to the insert command's part of the state. -/
structure Effect (repo next : FastRepoImpl) (occurrence : Occurrence) : Prop where
  /-- An accepted command makes its record, a callback erases its record, and no other record
  changes. -/
  processes : ∀ processId, next.processes[processId]? =
    if acceptedId platform occurrence = some processId then some ⟨⟨processId, 300, 0⟩⟩
    else if (callback processId occurrence).isSome then none
    else repo.processes[processId]?
  /-- An accepted command expresses its Interest. -/
  expressed : ∀ processId,
    (∃ interest ∈ next.face.insertInterests, interest.processId = processId) ↔
      (∃ interest ∈ repo.face.insertInterests, interest.processId = processId) ∨
        acceptedId platform occurrence = some processId
  /-- A callback writes what it brings when the process has its record still. -/
  puts : ∀ processId, insertPuts next processId =
    insertPuts repo processId ++
      if repo.processes[processId]? = none then []
      else packetsOf (callback processId occurrence)

theorem ignoresPatterns_insertSide : IgnoresPatterns platform insertSide where
  send _ _ := rfl
  announced repo outcomes name := by
    unfold announced
    split <;> rfl
  written repo ok instanceId data := by
    have puts : insertPuts (repo.written platform ok (.pattern instanceId) data).1 =
        insertPuts repo := by
      funext processId
      simp [insertPuts, written]
    show (repo.processes, repo.face.insertInterests, _) = _
    rw [puts]
    rfl
  recorded repo ok instanceId data := by
    have puts : insertPuts (repo.written platform ok (.recorder instanceId) data).1 =
        insertPuts repo := by
      funext processId
      simp [insertPuts, written]
    show (repo.processes, repo.face.insertInterests, _) = _
    rw [puts]
    rfl
  addInstance _ _ := rfl
  setInstance _ _ _ := rfl
  addPattern _ _ _ := rfl
  erasePattern _ _ := rfl
  addTimer _ _ := rfl
  addPatternInterest _ _ := rfl

theorem taken_insertSide (repo : FastRepoImpl) (event : Event) :
    insertSide (repo.taken event) = insertSide repo := by
  cases event <;> rfl

/-- An event of another kind has no effect here. -/
theorem effect_of_same {repo next : FastRepoImpl} {occurrence : Occurrence}
    (same : insertSide next = insertSide repo) (notAccepted : acceptedId platform occurrence = none)
    (noCallback : ∀ processId, callback processId occurrence = none) :
    Effect platform repo next occurrence := by
  simp only [insertSide, Prod.mk.injEq] at same
  obtain ⟨processes, interests, puts⟩ := same
  refine ⟨fun processId => ?_, fun processId => ?_, fun processId => ?_⟩
  · simp [processes, notAccepted, noCallback]
  · simp [interests, notAccepted]
  · simp [puts, noCallback, packetsOf]

/-- A callback that brings nothing erases the record. -/
theorem effect_of_erase {repo : FastRepoImpl} {occurrence : Occurrence} (processId : UInt64)
    (notAccepted : acceptedId platform occurrence = none)
    (brings : ∀ other, callback other occurrence = if processId = other then some none else none) :
    Effect platform repo (repo.eraseProcess processId) occurrence := by
  refine ⟨fun other => ?_, fun other => ?_, fun other => ?_⟩
  · rw [processes_eraseProcess, notAccepted, brings]
    by_cases same : processId = other
    · simp [same]
    · simp [same, Ne.symm same]
  · rw [notAccepted]
    simp [eraseProcess]
  · rw [brings]
    have puts : insertPuts (repo.eraseProcess processId) other = insertPuts repo other := rfl
    rw [puts]
    by_cases same : processId = other <;> simp [same, packetsOf]

theorem acceptedId_of_other {occurrence : Occurrence}
    (other : occurrence.event.isInsert = false) : acceptedId platform occurrence = none := by
  obtain ⟨event, outcomes⟩ := occurrence
  cases event <;> first | rfl | cases other

theorem callback_of_other {occurrence : Occurrence} (other : occurrence.event.isInsert = false)
    (processId : UInt64) : callback processId occurrence = none := by
  obtain ⟨event, outcomes⟩ := occurrence
  cases event <;> first | rfl | cases other

/-- An accepted command. -/
theorem effect_accept (repo : FastRepoImpl) (interest : Interest)
    (parameter : RepoCommandParameter) (processId : UInt64) {occurrence : Occurrence}
    (accepted : acceptedId platform occurrence = some processId)
    (noCallback : ∀ other, callback other occurrence = none) :
    Effect platform repo (accept platform repo interest parameter processId) occurrence := by
  have recorded : ∀ other, (accept platform repo interest parameter processId).processes[other]? =
      if other = processId then some ⟨⟨processId, 300, 0⟩⟩ else repo.processes[other]? := by
    intro other
    have twice : (accept platform repo interest parameter processId).processes =
        (((repo.updateResponse processId (WriteHandle.initialResponse processId)).replied platform
          interest ⟨processId, 100, 0⟩).updateResponse processId
            fun response => { response with statusCode := 300 }).processes := rfl
    have reply : ((repo.updateResponse processId (WriteHandle.initialResponse processId)).replied
        platform interest ⟨processId, 100, 0⟩).processes =
          (repo.updateResponse processId (WriteHandle.initialResponse processId)).processes := rfl
    rw [twice, processes_updateResponse, reply, processes_updateResponse, processes_updateResponse,
      if_pos rfl]
    by_cases same : other = processId
    · rw [if_pos same, if_pos same]
      rfl
    · rw [if_neg same, if_neg same, if_neg same]
  refine ⟨fun other => ?_, fun other => ?_, fun other => ?_⟩
  · rw [recorded, accepted, noCallback]
    by_cases same : other = processId
    · simp [same]
    · simp [same, Ne.symm same]
  · have interests : (accept platform repo interest parameter processId).face.insertInterests =
        repo.face.insertInterests ++
          [⟨parameter.name.map .generic, WriteHandle.fetchLifetimeMs, processId⟩] := rfl
    rw [interests, accepted]
    simp [or_and_right, exists_or]
  · have puts : insertPuts (accept platform repo interest parameter processId) other =
        insertPuts repo other := rfl
    rw [puts, noCallback]
    simp [packetsOf]

/-- The first callback of a process, when it brings a packet. -/
theorem effect_finish (repo : FastRepoImpl) (outcomes : Outcomes) (data : Data)
    (processId : UInt64) {process : ProcessInfo}
    (record : repo.processes[processId]? = some process) :
    Effect platform repo (finish platform repo outcomes data processId)
      ⟨.insertData processId data, outcomes⟩ := by
  have side : ∀ (counted : FastRepoImpl) (n : Name),
      insertSide (if counted.insertionSlots = 0 then counted
        else counted.announced outcomes n) = insertSide counted := by
    intro counted n
    split
    · rfl
    · exact (ignoresPatterns_insertSide platform).announced counted outcomes n
  have brings : ∀ other, callback other ⟨.insertData processId data, outcomes⟩ =
      if processId = other then some (some data) else none := fun _ => rfl
  have unchanged := side ((repo.written platform outcomes.dbPut (.insert processId)
    data).1.updateResponse processId fun response => { response with insertNum := 1 })
    (repo.written platform outcomes.dbPut (.insert processId) data).2
  simp only [insertSide, Prod.mk.injEq] at unchanged
  obtain ⟨processes, interests, puts⟩ := unchanged
  refine ⟨fun other => ?_, fun other => ?_, fun other => ?_⟩
  · show (FastRepoImpl.eraseProcess _ processId).processes[other]? = _
    rw [processes_eraseProcess, processes, processes_updateResponse, brings]
    by_cases same : processId = other
    · simp [same, acceptedId]
    · simp [same, Ne.symm same, acceptedId, written]
  · show (∃ interest ∈ (ite _ _ _ : FastRepoImpl).face.insertInterests, _) ↔ _
    rw [interests]
    simp [updateResponse, written, acceptedId]
  · show insertPuts (ite _ _ _ : FastRepoImpl) other = _
    rw [puts, brings]
    show insertPuts (repo.written platform outcomes.dbPut (.insert processId) data).1 other = _
    by_cases same : processId = other
    · subst same
      simp [insertPuts, written, packetsOf, record]
    · simp [insertPuts, written, packetsOf, same]

/-- One step: **what an event does to records, Interests and writes**, when no callee throws and no
record has counted a packet. -/
theorem effect_after (repo : FastRepoImpl) {occurrence : Occurrence}
    (quiet : occurrence.outcomes.Quiet)
    (nothing : ∀ (processId : UInt64) (process : ProcessInfo),
      repo.processes[processId]? = some process → process.response.insertNum = 0) :
    Effect platform repo (repo.after platform occurrence) occurrence := by
  cases insert : occurrence.event.isInsert with
  | false =>
    exact effect_of_same platform (after_of_not_insert (ignoresPatterns_insertSide platform)
      taken_insertSide repo insert) (acceptedId_of_other platform insert)
      (callback_of_other insert)
  | true =>
    obtain ⟨event, outcomes⟩ := occurrence
    cases event with
    | insertCommand cmdPrefix interest processId =>
      cases extracted : BaseHandle.extractParameter platform interest cmdPrefix with
      | error exn =>
        show Effect platform repo (final (WriteHandle.onValidated platform outcomes interest
          cmdPrefix processId) repo) _
        rw [final_of_ok (onValidated_rejected platform quiet repo extracted processId)]
        exact effect_of_same platform rfl (by simp [acceptedId, extracted]) fun _ => rfl
      | ok parameter =>
        show Effect platform repo (final (WriteHandle.onValidated platform outcomes interest
          cmdPrefix processId) repo) _
        rw [final_of_ok (onValidated_accepted platform quiet repo extracted processId)]
        exact effect_accept platform repo interest parameter processId
          (by simp [acceptedId, extracted]) fun _ => rfl
    | insertData processId data =>
      show Effect platform repo
        (final (WriteHandle.onDataValidated platform outcomes data processId) repo) _
      cases record : repo.processes[processId]? with
      | none =>
        rw [final_of_ok (onDataValidated_late platform repo record data)]
        refine ⟨fun other => ?_, fun other => ?_, fun other => ?_⟩
        · by_cases same : processId = other
          · subst same
            simp [acceptedId, callback, record]
          · simp [acceptedId, callback, same]
        · simp [acceptedId]
        · by_cases same : processId = other
          · subst same
            simp [record]
          · simp [callback, same, packetsOf]
      | some process =>
        rw [final_of_ok (onDataValidated_first platform quiet repo record
          (nothing processId process record) data)]
        exact effect_finish platform repo outcomes data processId record
    | insertTimeout processId => exact effect_of_erase platform processId rfl fun _ => rfl
    | insertNack processId => exact effect_of_erase platform processId rfl fun _ => rfl
    | _ => cases insert

/-! ### The ledger -/

/-- The state agrees with the history of the run. -/
structure Ledger (occurrences : List Occurrence) (repo : FastRepoImpl) : Prop where
  /-- The records are those of the accepted processes without a callback so far. -/
  records : ∀ processId, processId ∈ repo.processes ↔
    processId ∈ acceptedIds platform occurrences ∧ firstCallback processId occurrences = none
  /-- No record has counted a packet. -/
  nothing : ∀ (processId : UInt64) (process : ProcessInfo),
    repo.processes[processId]? = some process → process.response.insertNum = 0
  /-- Only accepted commands have expressed an Interest. -/
  expressed : ∀ processId,
    (∃ interest ∈ repo.face.insertInterests, interest.processId = processId) →
      processId ∈ acceptedIds platform occurrences
  /-- Only accepted commands have had a callback. -/
  caused : ∀ processId, firstCallback processId occurrences ≠ none →
    processId ∈ acceptedIds platform occurrences
  /-- The packets written for a process are what its first callback brought. -/
  puts : ∀ processId, insertPuts repo processId = packetsOf (firstCallback processId occurrences)

theorem acceptedIds_concat (occurrences : List Occurrence) (occurrence : Occurrence) :
    acceptedIds platform (occurrences ++ [occurrence]) =
      acceptedIds platform occurrences ++ (acceptedId platform occurrence).toList := by
  unfold acceptedIds
  rw [List.filterMap_append]
  cases accepted : acceptedId platform occurrence <;> simp [accepted]

theorem firstCallback_concat (processId : UInt64) (occurrences : List Occurrence)
    (occurrence : Occurrence) :
    firstCallback processId (occurrences ++ [occurrence]) =
      (firstCallback processId occurrences).or (callback processId occurrence) := by
  unfold firstCallback
  rw [List.findSome?_append]
  simp

/-- A callback that can happen belongs to an Interest that was expressed. -/
theorem expressed_of_callback {repo : FastRepoImpl} {occurrence : Occurrence}
    (enabled : repo.Enabled occurrence.event) {processId : UInt64}
    (brought : callback processId occurrence ≠ none) :
    ∃ interest ∈ repo.face.insertInterests, interest.processId = processId := by
  obtain ⟨event, outcomes⟩ := occurrence
  cases event with
  | insertData other data =>
    by_cases same : other = processId
    · exact same ▸ enabled
    · simp [callback, same] at brought
  | insertTimeout other =>
    by_cases same : other = processId
    · exact same ▸ enabled
    · simp [callback, same] at brought
  | insertNack other =>
    by_cases same : other = processId
    · exact same ▸ enabled
    · simp [callback, same] at brought
  | _ => exact absurd rfl brought

/-- An accepted command is not a callback. -/
theorem callback_of_accepted {occurrence : Occurrence} {processId : UInt64}
    (accepted : acceptedId platform occurrence = some processId) (other : UInt64) :
    callback other occurrence = none := by
  obtain ⟨event, outcomes⟩ := occurrence
  cases event <;> first | rfl | cases accepted

/-- The step: **an event keeps the ledger**, when the process id of an accepted command is new. -/
theorem ledger_step {occurrences : List Occurrence} {repo next : FastRepoImpl}
    {occurrence : Occurrence} (ledger : Ledger platform occurrences repo)
    (quiet : occurrence.outcomes.Quiet)
    (new : ∀ processId, acceptedId platform occurrence = some processId →
      processId ∉ acceptedIds platform occurrences)
    (step : repo.step platform occurrence = some next) :
    Ledger platform (occurrences ++ [occurrence]) next := by
  obtain ⟨enabled, rfl⟩ := (FastRepoImpl.step_eq_some platform).mp step
  have effect := effect_after platform repo quiet ledger.nothing
  have causes : ∀ processId, callback processId occurrence ≠ none →
      processId ∈ acceptedIds platform occurrences := fun processId brought =>
    ledger.expressed processId (expressed_of_callback enabled brought)
  refine ⟨fun processId => ?_, fun processId process record => ?_, fun processId expressed => ?_,
    fun processId brought => ?_, fun processId => ?_⟩
  · rw [acceptedIds_concat, firstCallback_concat, Std.TreeMap.mem_iff_isSome_getElem?,
      effect.processes processId, List.mem_append, Option.mem_toList]
    have before := ledger.records processId
    rw [Std.TreeMap.mem_iff_isSome_getElem?] at before
    by_cases accepted : acceptedId platform occurrence = some processId
    · have noEarlier : firstCallback processId occurrences = none := by
        by_contra brought
        exact new processId accepted (ledger.caused processId brought)
      simp [accepted, noEarlier, callback_of_accepted platform accepted]
    · rw [if_neg accepted]
      cases brought : callback processId occurrence with
      | none => simpa [accepted] using ledger.records processId
      | some packet => simp
  · rw [effect.processes processId] at record
    split at record
    · cases record
      rfl
    · split at record
      · cases record
      · exact ledger.nothing processId process record
  · rw [acceptedIds_concat, List.mem_append, Option.mem_toList]
    exact ((effect.expressed processId).mp expressed).imp (ledger.expressed processId) id
  · rw [acceptedIds_concat, List.mem_append]
    refine Or.inl ?_
    rw [firstCallback_concat] at brought
    cases earlier : firstCallback processId occurrences with
    | some packet => exact ledger.caused processId (by rw [earlier]; exact Option.some_ne_none _)
    | none =>
      rw [earlier, Option.none_or] at brought
      exact causes processId brought
  · rw [effect.puts processId, firstCallback_concat, ledger.puts processId]
    have before := ledger.records processId
    rw [Std.TreeMap.mem_iff_isSome_getElem?] at before
    cases earlier : firstCallback processId occurrences with
    | some packet =>
      have gone : repo.processes[processId]? = none := by
        simpa [earlier] using before
      rw [if_pos gone]
      simp
    | none =>
      cases brought : callback processId occurrence with
      | none => simp [packetsOf]
      | some packet =>
        have accepted := causes processId (by rw [brought]; exact Option.some_ne_none _)
        have recorded : repo.processes[processId]? ≠ none := by
          intro gone
          rw [earlier] at before
          simp [gone, accepted] at before
        rw [if_neg recorded]
        simp [packetsOf]

/-! ### Runs -/

/-- At the start there are no processes. -/
theorem ledger_started (config : Config) (db : Db) :
    Ledger platform [] (started platform config db) := by
  have fresh : insertSide (started platform config db) = insertSide (constructed config db) :=
    part_started platform insertSide (fun _ _ => rfl) (fun _ => rfl) config db
  simp only [insertSide, Prod.mk.injEq] at fresh
  obtain ⟨processes, interests, puts⟩ := fresh
  have empty : (constructed config db).processes = ∅ := rfl
  have none : (constructed config db).face.insertInterests = [] := rfl
  refine ⟨?_, ?_, ?_, ?_, ?_⟩
  · intro processId
    simp [processes, empty, acceptedIds]
  · intro processId process record
    simp [processes, empty] at record
  · intro processId expressed
    simp [interests, none] at expressed
  · intro processId brought
    exact absurd rfl brought
  · intro processId
    rw [puts]
    rfl

/-- The run: **every run with distinct process ids keeps the ledger**. -/
theorem ledger_run {config : Config} {db : Db} {occurrences : List Occurrence}
    (quiet : ∀ occurrence ∈ occurrences, occurrence.outcomes.Quiet)
    (distinct : (acceptedIds platform occurrences).Nodup) {repo : FastRepoImpl}
    (reached : (started platform config db).run platform occurrences = some repo) :
    Ledger platform occurrences repo := by
  refine Runs.run_history
    (I := fun occurrences repo => (∀ occurrence ∈ occurrences, occurrence.outcomes.Quiet) →
      (acceptedIds platform occurrences).Nodup → Ledger platform occurrences repo)
    (fun _ _ => ledger_started platform config db) ?_ reached quiet distinct
  intro before occurrence s t ledger step quiet distinct
  rw [acceptedIds_concat, List.nodup_append] at distinct
  refine ledger_step platform (ledger (fun other member => quiet other
    (List.mem_append_left _ member)) distinct.1) (quiet occurrence (by simp)) ?_ step
  intro processId accepted earlier
  exact distinct.2.2 processId earlier processId (by simp [accepted]) rfl

/-- What an event of an insert command sends: the reply to the command, and nothing on a callback. A
command whose parameter cannot be extracted changes nothing else. -/
def Replies (repo : FastRepoImpl) (occurrence : Occurrence) : Prop :=
  match occurrence.event with
  | .insertCommand cmdPrefix interest processId =>
    match BaseHandle.extractParameter platform interest cmdPrefix with
    | .error _ => repo.after platform occurrence =
        repo.replied platform interest (BaseHandle.statusOnly 403)
    | .ok _ => (repo.after platform occurrence).face.sent =
        repo.face.sent ++ [BaseHandle.replyPacket platform interest ⟨processId, 100, 0⟩]
  | .insertData .. | .insertTimeout _ | .insertNack _ =>
    (repo.after platform occurrence).face.sent = repo.face.sent
  | _ => True

theorem replies (repo : FastRepoImpl) {occurrence : Occurrence}
    (quiet : occurrence.outcomes.Quiet)
    (nothing : ∀ (processId : UInt64) (process : ProcessInfo),
      repo.processes[processId]? = some process → process.response.insertNum = 0) :
    Replies platform repo occurrence := by
  obtain ⟨event, outcomes⟩ := occurrence
  cases event with
  | insertCommand cmdPrefix interest processId =>
    unfold Replies
    cases extracted : BaseHandle.extractParameter platform interest cmdPrefix with
    | error exn =>
      simp only [extracted]
      exact final_of_ok (onValidated_rejected platform quiet repo extracted processId)
    | ok parameter =>
      simp only [extracted]
      have after := final_of_ok (onValidated_accepted platform quiet repo extracted processId)
      exact congrArg (fun repo => repo.face.sent) after
  | insertData processId data =>
    show (final (WriteHandle.onDataValidated platform outcomes data processId) repo).face.sent = _
    cases record : repo.processes[processId]? with
    | none => rw [final_of_ok (onDataValidated_late platform repo record data)]
    | some process =>
      rw [final_of_ok (onDataValidated_first platform quiet repo record
        (nothing processId process record) data)]
      show (ite _ _ _ : FastRepoImpl).face.sent = _
      split
      · rfl
      · unfold announced
        split <;> rfl
  | insertTimeout processId => rfl
  | insertNack processId => rfl
  | _ => trivial

/-- A packet that is written for a process, when the write succeeds, is in the store then. -/
theorem stored_after (repo : FastRepoImpl) {outcomes : Outcomes} (quiet : outcomes.Quiet)
    (nothing : ∀ (processId : UInt64) (process : ProcessInfo),
      repo.processes[processId]? = some process → process.response.insertNum = 0)
    {processId : UInt64} (member : processId ∈ repo.processes) (data : Data)
    (succeeds : outcomes.dbPut = true) :
    (repo.after platform ⟨.insertData processId data, outcomes⟩).storage.contents platform.ndn
        (storedName platform.ndn repo.storage.pimpl.renamePrefix data) =
      some (storedData platform.ndn repo.storage.pimpl.renamePrefix data) := by
  obtain ⟨process, record⟩ :=
    Option.isSome_iff_exists.mp (Std.TreeMap.mem_iff_isSome_getElem?.mp member)
  show (final (WriteHandle.onDataValidated platform outcomes data processId)
    repo).storage.contents platform.ndn _ = _
  rw [final_of_ok (onDataValidated_first platform quiet repo record
    (nothing processId process record) data), storage_finish, succeeds,
    StorageEngine.contents_put, Function.update_self]

/-- What the insert protocol guarantees of a run that reaches a state. -/
structure ExactlyOnce (start : FastRepoImpl) (occurrences : List Occurrence)
    (repo : FastRepoImpl) : Prop where
  /-- Each command gets exactly one reply, at once. -/
  replied : ∀ s occurrence, Runs.Takes (step platform) start occurrences s occurrence →
    Replies platform s occurrence
  /-- The packets written for a process are the one its first callback brought, or none. -/
  written : ∀ processId,
    insertPuts repo processId = packetsOf (firstCallback processId occurrences)
  /-- When the write of such a packet succeeds, the packet is in the store then, under its stored
  name. -/
  stored : ∀ s processId data outcomes, Runs.Takes (step platform) start occurrences s
      ⟨.insertData processId data, outcomes⟩ →
    processId ∈ s.processes → outcomes.dbPut = true →
      (s.after platform ⟨.insertData processId data, outcomes⟩).storage.contents platform.ndn
          (storedName platform.ndn s.storage.pimpl.renamePrefix data) =
        some (storedData platform.ndn s.storage.pimpl.renamePrefix data)
  /-- The records are those of the accepted commands without a callback so far. -/
  pending : ∀ processId, processId ∈ repo.processes ↔
    processId ∈ acceptedIds platform occurrences ∧ firstCallback processId occurrences = none
  /-- A callback of one process leaves the record and the writes of every other alone. -/
  isolated : ∀ s occurrence, Runs.Takes (step platform) start occurrences s occurrence →
    ∀ processId other, callback processId occurrence ≠ none → other ≠ processId →
      (s.after platform occurrence).processes[other]? = s.processes[other]? ∧
        insertPuts (s.after platform occurrence) other = insertPuts s other

/-- A callback is for one process. -/
theorem callback_unique {occurrence : Occurrence} {processId other : UInt64}
    (brought : callback processId occurrence ≠ none) (different : other ≠ processId) :
    acceptedId platform occurrence = none ∧ callback other occurrence = none := by
  obtain ⟨event, outcomes⟩ := occurrence
  have apart : ∀ id, (if id = processId then some (none : Option Data) else none) ≠ none →
      ¬ id = other := by
    intro id hit same
    rw [same, if_neg different] at hit
    exact hit rfl
  cases event with
  | insertData id data =>
    refine ⟨rfl, if_neg fun same => ?_⟩
    subst same
    exact brought (if_neg different)
  | insertTimeout id => exact ⟨rfl, if_neg (apart id brought)⟩
  | insertNack id => exact ⟨rfl, if_neg (apart id brought)⟩
  | _ => exact absurd rfl brought

/-- The insert protocol: **in every run with distinct process ids and no throwing callee, each
command is answered once and each accepted command ends exactly once**. -/
theorem exactlyOnce_run (config : Config) (db : Db) {occurrences : List Occurrence}
    (quiet : ∀ occurrence ∈ occurrences, occurrence.outcomes.Quiet)
    (distinct : (acceptedIds platform occurrences).Nodup) {repo : FastRepoImpl}
    (reached : (started platform config db).run platform occurrences = some repo) :
    ExactlyOnce platform (started platform config db) occurrences repo := by
  have ledger := ledger_run platform quiet distinct reached
  have earlier : ∀ s occurrence, Runs.Takes (step platform) (started platform config db)
      occurrences s occurrence → occurrence.outcomes.Quiet ∧
        ∀ (processId : UInt64) (process : ProcessInfo),
          s.processes[processId]? = some process → process.response.insertNum = 0 := by
    rintro s occurrence ⟨before, within, passed⟩
    have inside : before <+: occurrences := (List.prefix_append _ _).trans within
    refine ⟨quiet occurrence (within.subset (by simp)), ?_⟩
    have sublist := (inside.sublist.filterMap (acceptedId platform)).nodup distinct
    exact (ledger_run platform (fun other member => quiet other (inside.subset member)) sublist
      passed).nothing
  refine ⟨fun s occurrence taken => ?_, ledger.puts,
    fun s processId data outcomes taken member succeeds => ?_, ledger.records,
    fun s occurrence taken processId other brought different => ?_⟩
  · obtain ⟨noThrow, nothing⟩ := earlier s occurrence taken
    exact replies platform s noThrow nothing
  · obtain ⟨noThrow, nothing⟩ := earlier s _ taken
    exact stored_after platform s noThrow nothing member data succeeds
  · obtain ⟨noThrow, nothing⟩ := earlier s occurrence taken
    have effect := effect_after platform s noThrow nothing
    obtain ⟨notAccepted, noCallback⟩ := callback_unique platform brought different
    refine ⟨?_, ?_⟩
    · rw [effect.processes other, notAccepted, noCallback]
      simp
    · rw [effect.puts other, noCallback]
      simp [packetsOf]

/-- Two commands under the command prefix `/r`; the second is served first, the first times out and
is served late. -/
def twoCommands : List Occurrence :=
  [⟨.insertCommand (nameOf ["r", "insert"])
      (commandInterest (nameOf ["r", "insert"]) ⟨[ascii "a"]⟩) 1, {}⟩,
    ⟨.insertCommand (nameOf ["r", "insert"])
      (commandInterest (nameOf ["r", "insert"]) ⟨[ascii "b"]⟩) 2, {}⟩,
    ⟨.insertData 2 { name := nameOf ["b"] }, {}⟩,
    ⟨.insertTimeout 1, {}⟩,
    ⟨.insertData 1 { name := nameOf ["a"] }, {}⟩]

theorem exactlyOnce_twoCommands :
    ∃ repo, ExactlyOnce (tlvPlatform false false)
        (started (tlvPlatform false false) { repoPrefixes := [nameOf ["r"]] } ∅) twoCommands repo ∧
      insertPuts repo 2 = [{ name := nameOf ["b"] }] ∧ insertPuts repo 1 = [] := by
  have runs : ((started (tlvPlatform false false) { repoPrefixes := [nameOf ["r"]] } ∅).run
      (tlvPlatform false false) twoCommands).isSome = true := by decide
  have quiet : ∀ occurrence ∈ twoCommands, occurrence.outcomes.Quiet := by
    intro occurrence member callee
    have same : occurrence.outcomes = {} := by
      simp only [twoCommands, List.mem_cons, List.not_mem_nil, or_false] at member
      rcases member with rfl | rfl | rfl | rfl | rfl <;> rfl
    rw [same]
  have once := exactlyOnce_run (tlvPlatform false false) { repoPrefixes := [nameOf ["r"]] } ∅ quiet
    (by decide) (Option.some_get runs).symm
  refine ⟨_, once, ?_, ?_⟩
  · rw [once.written]
    decide
  · rw [once.written]
    decide

end InsertProtocol

end FastRepo
