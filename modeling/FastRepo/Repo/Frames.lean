/-
What the handlers leave alone.

`IgnoresInserts` says that a part of the state is not touched by the elementary changes the insert
command is made of, and `IgnoresPatterns` the same for the patterns and their commands. The handlers
then leave the part alone as well, whether they return or throw. A proof about one protocol picks
its part of the state and gets the handlers of the other protocol from here.
-/

import FastRepo.Repo.System

namespace FastRepo

open Exits FastRepoImpl

variable {platform : Platform} {π : Type} {part : FastRepoImpl → π}

/-! ### Calls, replies, announcements and writes -/

theorem frames_call (outcomes : Outcomes) (callee : Callee) :
    Frames part (call outcomes callee) := fun repo => by rw [final_call]

theorem frames_reply (same : ∀ repo packet, part (send repo packet) = part repo)
    (outcomes : Outcomes) (interest : Interest) (response : RepoCommandResponse) :
    Frames part (BaseHandle.reply platform outcomes interest response) :=
  frames_bind (frames_call outcomes .sign) fun _ =>
    frames_bind (frames_call outcomes .putData) fun _ => frames_modify fun repo => same repo _

theorem frames_dataInsertionSignal
    (same : ∀ repo outcomes name, part (announced repo outcomes name) = part repo)
    (outcomes : Outcomes) (name : Name) : Frames part (dataInsertionSignal outcomes name) := by
  intro repo
  rw [final_dataInsertionSignal]
  split
  · rfl
  · exact same repo outcomes name

theorem frames_put {writer : Writer}
    (same : ∀ repo ok data, part (written platform repo ok writer data).1 = part repo)
    (outcomes : Outcomes) (data : Data) : Frames part (put platform outcomes writer data) := by
  intro repo
  rcases put_cases platform outcomes writer data repo with ⟨exn, threw⟩ | returned
  · rw [final_of_error threw]
  · rw [final_of_ok returned]
    exact same repo outcomes.dbPut data

/-! ### The insert command -/

section Inserts

/-- The elementary changes of the insert command, short of its write, leave the part alone. -/
structure IgnoresRecords (part : FastRepoImpl → π) : Prop where
  send : ∀ repo packet, part (FastRepoImpl.send repo packet) = part repo
  updateResponse : ∀ repo processId change,
    part (FastRepoImpl.updateResponse repo processId change) = part repo
  eraseProcess : ∀ repo processId, part (FastRepoImpl.eraseProcess repo processId) = part repo
  addInsertInterest : ∀ repo interest,
    part (FastRepoImpl.addInsertInterest repo interest) = part repo

/-- The elementary changes of the insert command leave the part alone. -/
structure IgnoresInserts (platform : Platform) (part : FastRepoImpl → π) : Prop extends
    IgnoresRecords part where
  announced : ∀ repo outcomes name,
    part (FastRepoImpl.announced repo outcomes name) = part repo
  written : ∀ repo ok processId data,
    part (FastRepoImpl.written platform repo ok (.insert processId) data).1 = part repo

theorem frames_onValidated (ignores : IgnoresRecords part) (outcomes : Outcomes)
    (interest : Interest) (cmdPrefix : Name) (processId : UInt64) :
    Frames part (WriteHandle.onValidated platform outcomes interest cmdPrefix processId) := by
  unfold WriteHandle.onValidated
  split
  · exact frames_reply ignores.send outcomes interest _
  · refine frames_bind (frames_modify fun repo => ignores.updateResponse repo _ _) fun _ => ?_
    refine frames_bind frames_get fun repo => ?_
    refine frames_bind (frames_reply ignores.send outcomes interest _) fun _ => ?_
    refine frames_bind (frames_modify fun repo => ignores.updateResponse repo _ _) fun _ => ?_
    exact frames_bind (frames_call outcomes _) fun _ => frames_modify fun repo =>
      ignores.addInsertInterest repo _

variable (ignores : IgnoresInserts platform part) (outcomes : Outcomes)

include ignores

theorem frames_onDataValidated (data : Data) (processId : UInt64) :
    Frames part (WriteHandle.onDataValidated platform outcomes data processId) := by
  refine frames_bind frames_get fun repo => ?_
  split
  · exact frames_pure _
  · refine frames_bind ?_ fun _ => frames_modify fun repo => ignores.eraseProcess repo _
    unfold WriteHandle.insertFetched
    split
    · refine frames_bind (frames_put (fun repo ok data => ignores.written repo ok _ data)
        outcomes data) fun n => ?_
      exact frames_bind (frames_modify fun repo => ignores.updateResponse repo _ _) fun _ =>
        frames_dataInsertionSignal ignores.announced outcomes n
    · exact frames_pure _

end Inserts

/-! ### The patterns -/

section Patterns

/-- The elementary changes of patterns that are there leave the part alone. -/
structure IgnoresObjects (platform : Platform) (part : FastRepoImpl → π) : Prop where
  send : ∀ repo packet, part (FastRepoImpl.send repo packet) = part repo
  written : ∀ repo ok instanceId data,
    part (FastRepoImpl.written platform repo ok (.pattern instanceId) data).1 = part repo
  recorded : ∀ repo ok instanceId data,
    part (FastRepoImpl.written platform repo ok (.recorder instanceId) data).1 = part repo
  setInstance : ∀ repo instanceId pattern,
    part (FastRepoImpl.setInstance repo instanceId pattern) = part repo
  erasePattern : ∀ repo fetchPrefix, part (FastRepoImpl.erasePattern repo fetchPrefix) = part repo
  addTimer : ∀ repo timer, part (FastRepoImpl.addTimer repo timer) = part repo
  addPatternInterest : ∀ repo interest,
    part (FastRepoImpl.addPatternInterest repo interest) = part repo

/-- The elementary changes of the patterns and their commands leave the part alone. -/
structure IgnoresPatterns (platform : Platform) (part : FastRepoImpl → π) : Prop extends
    IgnoresObjects platform part where
  announced : ∀ repo outcomes name,
    part (FastRepoImpl.announced repo outcomes name) = part repo
  addInstance : ∀ repo kind, part (FastRepoImpl.addInstance repo kind) = part repo
  addPattern : ∀ repo fetchPrefix instanceId,
    part (FastRepoImpl.addPattern repo fetchPrefix instanceId) = part repo

theorem frames_storeFun {instanceId : InstanceId} (same : ∀ repo ok data,
    part (written platform repo ok (.recorder instanceId) data).1 = part repo) (outcomes : Outcomes)
    (data : Data) : Frames part (NdnrtcPattern.storeFun platform outcomes instanceId data) :=
  frames_bind (frames_put same outcomes data) fun _ => frames_pure _

section Objects

variable (ignores : IgnoresObjects platform part) (outcomes : Outcomes)

include ignores

theorem frames_counterFetch (instanceId : InstanceId) (fetchPrefix : Name) :
    Frames part (CounterPattern.fetch outcomes instanceId fetchPrefix) := by
  refine frames_bind (frames_modify fun repo => ignores.setInstance repo _ _) fun _ => ?_
  refine frames_bind (frames_call outcomes _) fun _ => ?_
  exact frames_bind (frames_modify fun repo => ignores.addTimer repo _) fun _ =>
    frames_modify fun repo => ignores.setInstance repo _ _

theorem frames_doFetch (instanceId : InstanceId) :
    Frames part (CounterPattern.doFetch outcomes instanceId) := by
  refine frames_bind frames_get fun repo => ?_
  split
  · split
    · exact frames_bind (frames_call outcomes _) fun _ => frames_modify fun repo =>
        ignores.addPatternInterest repo _
    · exact frames_pure _
  · exact frames_pure _

theorem frames_onData (instanceId : InstanceId) (data : Data) :
    Frames part (CounterPattern.onData platform outcomes instanceId data) := by
  refine frames_bind frames_get fun repo => ?_
  split
  · refine frames_bind (frames_put (fun repo ok data => ignores.written repo ok _ data) outcomes
      data) fun _ => ?_
    refine frames_bind (frames_modify fun repo => ignores.setInstance repo _ _) fun _ => ?_
    split
    · exact frames_bind (frames_call outcomes _) fun _ => frames_modify fun repo =>
        ignores.addTimer repo _
    · exact frames_modify fun repo => ignores.setInstance repo _ _
  · exact frames_pure _

theorem frames_cancelPattern (fetchPrefix : Name) (instanceId : InstanceId) :
    Frames part (PatternHandle.cancelPattern outcomes fetchPrefix instanceId) := by
  refine frames_bind ?_ fun _ => frames_modify fun repo => ignores.erasePattern repo _
  refine frames_bind frames_get fun repo => ?_
  split
  · exact frames_pure _
  · exact frames_bind (frames_call outcomes _) fun _ => frames_modify fun repo =>
      ignores.setInstance repo _ _
  · exact frames_modify fun repo => ignores.setInstance repo _ _

theorem frames_cancelCommand (interest : Interest) (cmdPrefix : Name) :
    Frames part (PatternHandle.onCancelRequest platform outcomes interest cmdPrefix) := by
  have negative : ∀ code,
      Frames part (BaseHandle.negativeReply platform outcomes interest code) :=
    fun code => frames_reply ignores.send outcomes interest _
  unfold PatternHandle.onCancelRequest
  split
  · exact negative 403
  · refine frames_bind frames_get fun repo => ?_
    split
    · exact negative 402
    · exact frames_bind (frames_cancelPattern ignores outcomes _ _) fun _ => negative 101

theorem frames_removePattern (fetchPrefix : Name) :
    Frames part (PatternHandle.removePattern outcomes fetchPrefix) := by
  refine frames_bind frames_get fun repo => ?_
  split
  · exact frames_pure _
  · exact frames_cancelPattern ignores outcomes _ _

end Objects

variable (ignores : IgnoresPatterns platform part) (outcomes : Outcomes)

include ignores

theorem frames_fetch (kind : PatternKind) (instanceId : InstanceId) (fetchPrefix : Name) :
    Frames part (FetchPattern.fetch platform outcomes kind instanceId fetchPrefix) := by
  cases kind with
  | counter => exact frames_counterFetch ignores.toIgnoresObjects outcomes instanceId fetchPrefix
  | ndnrtc =>
    show Frames part (FetchPattern.fetchNdnrtc platform outcomes instanceId fetchPrefix)
    unfold FetchPattern.fetchNdnrtc
    split
    · exact frames_bind (frames_modify fun repo => ignores.setInstance repo _ _) fun _ =>
        frames_call outcomes _
    · exact frames_pure _
  | gobj => exact frames_pure _

theorem frames_patternCommand (interest : Interest) (cmdPrefix : Name) :
    Frames part (PatternHandle.onInterest platform outcomes interest cmdPrefix) := by
  have negative : ∀ code,
      Frames part (BaseHandle.negativeReply platform outcomes interest code) :=
    fun code => frames_reply ignores.send outcomes interest _
  unfold PatternHandle.onInterest
  split
  · exact negative 403
  · split
    · exact negative 403
    · refine frames_bind frames_get fun repo => ?_
      split
      · exact negative 402
      · split
        · exact negative 404
        · refine frames_bind ?_ fun _ => negative 100
          refine frames_bind frames_get fun repo => ?_
          refine frames_bind (frames_modify fun repo => ignores.addInstance repo _) fun _ => ?_
          refine frames_bind (frames_fetch ignores outcomes _ _ _) fun _ => ?_
          exact frames_bind (frames_modify fun repo => ignores.addPattern repo _ _) fun _ =>
            frames_dataInsertionSignal ignores.announced outcomes _

end Patterns

/-! ### Answers -/

theorem frames_answer (same : ∀ repo packet, part (send repo packet) = part repo)
    (outcomes : Outcomes) (interest : Interest) :
    Frames part (ReadHandle.answer platform outcomes interest) := by
  refine frames_bind frames_get fun repo => ?_
  split
  · exact frames_throw _
  · exact frames_pure _
  · exact frames_bind (frames_call outcomes _) fun _ => frames_modify fun repo => same repo _

/-! ### Events -/

/-- The event belongs to an insert command. -/
def Event.isInsert : Event → Bool
  | .insertCommand .. | .insertData .. | .insertTimeout _ | .insertNack _ => true
  | _ => false

/-- An event of an insert command leaves alone what the insert command ignores. -/
theorem after_of_insert (ignores : IgnoresInserts platform part) (repo : FastRepoImpl)
    {occurrence : Occurrence} (insert : occurrence.event.isInsert = true) :
    part (repo.after platform occurrence) = part repo := by
  obtain ⟨event, outcomes⟩ := occurrence
  cases event with
  | insertCommand cmdPrefix interest processId =>
    exact frames_onValidated ignores.toIgnoresRecords outcomes interest cmdPrefix processId repo
  | insertData processId data => exact frames_onDataValidated ignores outcomes data processId repo
  | insertTimeout processId => exact ignores.eraseProcess repo processId
  | insertNack processId => exact ignores.eraseProcess repo processId
  | _ => cases insert

/-- Every other event leaves alone what the patterns ignore. -/
theorem after_of_not_insert (ignores : IgnoresPatterns platform part)
    (takenSame : ∀ repo event, part (FastRepoImpl.taken repo event) = part repo)
    (repo : FastRepoImpl) {occurrence : Occurrence} (other : occurrence.event.isInsert = false) :
    part (repo.after platform occurrence) = part repo := by
  obtain ⟨event, outcomes⟩ := occurrence
  have taken := takenSame repo event
  cases event with
  | patternCommand cmdPrefix interest =>
    exact frames_patternCommand ignores outcomes interest cmdPrefix repo
  | cancelCommand cmdPrefix interest =>
    exact frames_cancelCommand ignores.toIgnoresObjects outcomes interest cmdPrefix repo
  | removePattern fetchPrefix =>
    exact frames_removePattern ignores.toIgnoresObjects outcomes fetchPrefix repo
  | timer timer =>
    exact (frames_doFetch ignores.toIgnoresObjects outcomes timer.pattern _).trans taken
  | counterData interest data =>
    exact (frames_onData ignores.toIgnoresObjects outcomes interest.pattern data _).trans taken
  | counterTimeout interest => exact taken
  | recorderData instanceId data =>
    exact frames_storeFun (fun repo ok data => ignores.recorded repo ok _ data) outcomes data repo
  | readInterest interest => exact frames_answer ignores.send outcomes interest repo
  | _ => cases other

/-- The event may announce a name. -/
def Event.canAnnounce : Event → Bool
  | .insertData .. | .patternCommand .. => true
  | _ => false

/-- An event that announces nothing leaves alone what records and objects ignore. -/
theorem after_of_not_announcing (records : IgnoresRecords part)
    (objects : IgnoresObjects platform part)
    (takenSame : ∀ repo event, part (FastRepoImpl.taken repo event) = part repo)
    (repo : FastRepoImpl) {occurrence : Occurrence}
    (other : occurrence.event.canAnnounce = false) :
    part (repo.after platform occurrence) = part repo := by
  obtain ⟨event, outcomes⟩ := occurrence
  have taken := takenSame repo event
  cases event with
  | insertCommand cmdPrefix interest processId =>
    exact frames_onValidated records outcomes interest cmdPrefix processId repo
  | insertTimeout processId => exact records.eraseProcess repo processId
  | insertNack processId => exact records.eraseProcess repo processId
  | cancelCommand cmdPrefix interest =>
    exact frames_cancelCommand objects outcomes interest cmdPrefix repo
  | removePattern fetchPrefix => exact frames_removePattern objects outcomes fetchPrefix repo
  | timer timer => exact (frames_doFetch objects outcomes timer.pattern _).trans taken
  | counterData interest data =>
    exact (frames_onData objects outcomes interest.pattern data _).trans taken
  | counterTimeout interest => exact taken
  | recorderData instanceId data =>
    exact frames_storeFun (fun repo ok data => objects.recorded repo ok _ data) outcomes data repo
  | readInterest interest => exact frames_answer objects.send outcomes interest repo
  | _ => cases other

end FastRepo
