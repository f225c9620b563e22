/-
The packets a repo sends.

A command is answered with one packet and an Interest for data with at most one, and no other event
of the model sends anything. Status requests are no events of the model: the packets that the status
namespace publishes for them are made and sent inside the CNL library, and are not among those
counted here. `answerTo` is the packet an event is answered with, read off the state before the
event, and `sentBy` the same when the libraries let it through. `sent_run` says that a run sends
these packets, one after the other, whatever the libraries do, where each of them comes from, and
what its status code says about the entry it is about.
-/

import FastRepo.Repo.FailingExits

namespace FastRepo

open BaseHandle Exits FastRepoImpl PatternHandle

namespace SentPackets

variable (platform : Platform)

/-! ### Answers -/

/-- The response to an insert command. -/
def insertResponse (interest : Interest) (cmdPrefix : Name) (processId : UInt64) :
    RepoCommandResponse :=
  match extractParameter platform interest cmdPrefix with
  | .error _ => statusOnly 403
  | .ok _ => ⟨processId, 100, 0⟩

/-- The status code of the reply to a pattern command. -/
def patternStatus (repo : FastRepoImpl) : Option (Name × Option PatternKind) → UInt64
  | none => 403
  | some (fetchPrefix, kind) =>
    match repo.patterns[fetchPrefix]?, kind with
    | some _, _ => 402
    | none, none => 404
    | none, some _ => 100

/-- The status code of the reply to a cancel command. -/
def cancelStatus (repo : FastRepoImpl) : Option Name → UInt64
  | none => 403
  | some fetchPrefix =>
    match repo.patterns[fetchPrefix]? with
    | none => 402
    | some _ => 101

/-- The packet an event is answered with. -/
def answerTo (repo : FastRepoImpl) : Event → Option Data
  | .insertCommand cmdPrefix interest processId =>
    some (replyPacket platform interest (insertResponse platform interest cmdPrefix processId))
  | .patternCommand cmdPrefix interest =>
    some (replyPacket platform interest
      (statusOnly (patternStatus repo (asksFor platform interest cmdPrefix))))
  | .cancelCommand cmdPrefix interest =>
    some (replyPacket platform interest
      (statusOnly (cancelStatus repo (cancelsFor platform interest cmdPrefix))))
  | .readInterest interest =>
    match ReadHandle.onInterest platform.ndn repo.storage interest with
    | .error _ => none
    | .ok found => found
  | _ => none

/-- Starting the pattern a command asks for does not throw. -/
def StartReturns (repo : FastRepoImpl) (outcomes : Outcomes) :
    Option (Name × Option PatternKind) → Prop
  | some (fetchPrefix, some kind) =>
    repo.patterns[fetchPrefix]? = none →
      FetchPattern.FetchReturns platform outcomes kind fetchPrefix ∧
        SignalReturns outcomes repo
          (platform.ndn.uri.ofUri repo.storage.pimpl.renamePrefix ++ fetchPrefix)
  | _ => True

/-- Stopping the pattern a command asks to end does not throw. -/
def StopReturns (repo : FastRepoImpl) (outcomes : Outcomes) : Option Name → Prop
  | some fetchPrefix =>
    match repo.patterns[fetchPrefix]?.bind fun instanceId => repo.instances[instanceId]? with
    | some (.ndnrtc (some _)) => outcomes.throws .stopRecorder = none
    | _ => True
  | none => True

/-- No call up to the sending of the answer throws. -/
def AnswerReturns (repo : FastRepoImpl) (outcomes : Outcomes) : Event → Prop
  | .insertCommand .. => ReplyReturns outcomes
  | .patternCommand cmdPrefix interest =>
    StartReturns platform repo outcomes (asksFor platform interest cmdPrefix) ∧
      ReplyReturns outcomes
  | .cancelCommand cmdPrefix interest =>
    StopReturns repo outcomes (cancelsFor platform interest cmdPrefix) ∧ ReplyReturns outcomes
  | .readInterest _ => outcomes.throws .putData = none
  | _ => True

instance (repo : FastRepoImpl) (outcomes : Outcomes) (asks : Option (Name × Option PatternKind)) :
    Decidable (StartReturns platform repo outcomes asks) := by
  unfold StartReturns
  split <;> infer_instance

instance (repo : FastRepoImpl) (outcomes : Outcomes) (asks : Option Name) :
    Decidable (StopReturns repo outcomes asks) := by
  unfold StopReturns
  split
  · split <;> infer_instance
  · infer_instance

instance (repo : FastRepoImpl) (outcomes : Outcomes) (event : Event) :
    Decidable (AnswerReturns platform repo outcomes event) :=
  match event with
  | .insertCommand .. => inferInstanceAs (Decidable (ReplyReturns outcomes))
  | .patternCommand .. | .cancelCommand .. => inferInstanceAs (Decidable (_ ∧ _))
  | .readInterest _ => inferInstanceAs (Decidable (outcomes.throws .putData = none))
  | .insertData .. | .insertTimeout _ | .insertNack _ | .removePattern _ | .timer _
  | .counterData .. | .counterTimeout _ | .recorderData .. => instDecidableTrue

/-- What an event sends. -/
def sentBy (repo : FastRepoImpl) (occurrence : Occurrence) : List Data :=
  if AnswerReturns platform repo occurrence.outcomes occurrence.event then
    (answerTo platform repo occurrence.event).toList
  else []

/-! ### Replies -/

section Replies

variable {platform} {outcomes : Outcomes} {repo : FastRepoImpl} {interest : Interest}

/-- A reply that is the whole of a handler sends its packet, or throws. -/
theorem sent_reply (response : RepoCommandResponse) :
    (final (reply platform outcomes interest response) repo).face.sent =
      repo.face.sent ++
        if ReplyReturns outcomes then [replyPacket platform interest response] else [] := by
  by_cases returns : ReplyReturns outcomes
  · rw [if_pos returns, final_of_ok (reply_of_returns platform interest response repo returns)]
    rfl
  · obtain ⟨exn, threw⟩ := reply_of_not_returns platform interest response repo returns
    rw [if_neg returns, final_of_error threw, List.append_nil]

/-- The same for a status code, under any condition that comes to this. -/
theorem sent_negativeReply {code : UInt64} {condition : Prop} [Decidable condition]
    (same : condition ↔ ReplyReturns outcomes) :
    (final (negativeReply platform outcomes interest code) repo).face.sent =
      repo.face.sent ++
        if condition then [replyPacket platform interest (statusOnly code)] else [] := by
  simp only [same]
  exact sent_reply (statusOnly code)

/-- What follows the reply to an insert command sends nothing. -/
theorem sent_onValidated (cmdPrefix : Name) (processId : UInt64) :
    (final (WriteHandle.onValidated platform outcomes interest cmdPrefix processId)
      repo).face.sent = repo.face.sent ++ if ReplyReturns outcomes then
        [replyPacket platform interest (insertResponse platform interest cmdPrefix processId)]
      else [] := by
  unfold insertResponse
  cases extracted : extractParameter platform interest cmdPrefix with
  | error exn =>
    unfold WriteHandle.onValidated
    rw [extracted]
    exact sent_reply (statusOnly 403)
  | ok parameter =>
    have rest : ∀ _ : Unit, Frames (fun repo : FastRepoImpl => repo.face.sent)
        (do
          modify fun repo =>
            repo.updateResponse processId fun response => { response with statusCode := 300 }
          call outcomes .expressInterest
          modify fun repo => repo.addInsertInterest
            ⟨parameter.name.map .generic, WriteHandle.fetchLifetimeMs, processId⟩ :
            Handler Unit) := by
      refine fun _ => frames_bind (frames_modify fun _ => rfl) fun _ => ?_
      exact frames_bind (frames_call outcomes _) fun _ => frames_modify fun _ => rfl
    rw [final, InsertProtocol.onValidated_apply platform repo extracted processId, ← final]
    exact (part_final_bind _ rest _).trans (sent_reply _)

/-- A pattern command sends its reply when starting the pattern returns. -/
theorem sent_onInterest (cmdPrefix : Name) :
    (final (onInterest platform outcomes interest cmdPrefix) repo).face.sent =
      repo.face.sent ++
        if StartReturns platform repo outcomes (asksFor platform interest cmdPrefix) ∧
            ReplyReturns outcomes then
          [replyPacket platform interest
            (statusOnly (patternStatus repo (asksFor platform interest cmdPrefix)))]
        else [] := by
  cases asks : asksFor platform interest cmdPrefix with
  | none =>
    rw [onInterest_undecoded platform outcomes asks]
    exact sent_negativeReply (and_iff_right trivial)
  | some asked =>
    obtain ⟨fetchPrefix, kind⟩ := asked
    cases found : repo.patterns[fetchPrefix]? with
    | some instanceId =>
      have status : patternStatus repo (some (fetchPrefix, kind)) = 402 := by
        simp [patternStatus, found]
      rw [status, final_congr (onInterest_taken platform outcomes asks found)]
      refine sent_negativeReply (and_iff_right ?_)
      cases kind <;> simp [StartReturns, found]
    | none =>
      cases kind with
      | none =>
        have status : patternStatus repo (some (fetchPrefix, none)) = 404 := by
          simp [patternStatus, found]
        rw [status, final_congr (onInterest_unknown platform outcomes asks found)]
        exact sent_negativeReply (and_iff_right trivial)
      | some kind =>
        have status : patternStatus repo (some (fetchPrefix, some kind)) = 100 := by
          simp [patternStatus, found]
        rw [status]
        by_cases starts : StartReturns platform repo outcomes (some (fetchPrefix, some kind)) ∧
            ReplyReturns outcomes
        · rw [if_pos starts]
          exact (FailingExits.answered_iff platform asks found).mpr
            ⟨(starts.1 found).1, (starts.1 found).2, starts.2⟩
        · rw [if_neg starts, List.append_nil]
          by_cases fetches : FetchPattern.FetchReturns platform outcomes kind fetchPrefix
          · obtain ⟨_, threw⟩ := FailingExits.onInterest_unanswered platform asks found fetches
              fun answers => starts ⟨fun _ => ⟨fetches, answers.1⟩, answers.2⟩
            rw [final_of_error threw]
            exact PatternState.sent_started platform outcomes repo kind fetchPrefix
          · obtain ⟨_, _, threw, _, same⟩ :=
              FailingExits.onInterest_unfetched platform asks found fetches
            rw [final_of_error threw, same]

variable (outcomes) in
/-- Ending a pattern throws exactly when the stop of its recorder does, and sends nothing. -/
theorem cancelPattern_apply {fetchPrefix : Name} {instanceId : InstanceId}
    (found : repo.patterns[fetchPrefix]? = some instanceId) :
    (StopReturns repo outcomes (some fetchPrefix) ∧
        cancelPattern outcomes fetchPrefix instanceId repo =
          .ok () (ended repo fetchPrefix instanceId)) ∨
      ¬StopReturns repo outcomes (some fetchPrefix) ∧
        ∃ exn, cancelPattern outcomes fetchPrefix instanceId repo = .error exn repo := by
  have stops : StopReturns repo outcomes (some fetchPrefix) ↔
      ∀ stream, repo.instances[instanceId]? = some (.ndnrtc (some stream)) →
        outcomes.throws .stopRecorder = none := by
    simp only [StopReturns, found, Option.bind_some]
    split
    · rename_i stream object
      exact ⟨fun returns _ _ => returns, fun returns => returns stream object⟩
    · rename_i other
      exact ⟨fun _ stream object => absurd object (other stream), fun _ => trivial⟩
  rw [stops]
  rcases cancelPattern_cases outcomes repo fetchPrefix instanceId with
    returned | ⟨exn, stream, threw, recorder⟩
  · refine Or.inl ⟨fun stream recorder => ?_, returned⟩
    cases stopping : outcomes.throws .stopRecorder with
    | none => rfl
    | some exn =>
      unfold cancelPattern FetchPattern.cancel call at returned
      rw [bind_apply, bind_apply, get_apply] at returned
      simp only [recorder, stopping] at returned
      cases returned
  · refine Or.inr ⟨fun returns => ?_, exn, threw⟩
    unfold cancelPattern FetchPattern.cancel call at threw
    rw [bind_apply, bind_apply, get_apply] at threw
    simp only [recorder, returns stream recorder] at threw
    cases threw

theorem sent_ended (repo : FastRepoImpl) (fetchPrefix : Name) (instanceId : InstanceId) :
    (ended repo fetchPrefix instanceId).face.sent = repo.face.sent := by
  unfold ended FetchPattern.cancelledAt
  cases repo.instances[instanceId]? <;> rfl

/-- A cancel command sends its reply when stopping the pattern returns. -/
theorem sent_onCancelRequest (cmdPrefix : Name) :
    (final (onCancelRequest platform outcomes interest cmdPrefix) repo).face.sent =
      repo.face.sent ++
        if StopReturns repo outcomes (cancelsFor platform interest cmdPrefix) ∧
            ReplyReturns outcomes then
          [replyPacket platform interest
            (statusOnly (cancelStatus repo (cancelsFor platform interest cmdPrefix)))]
        else [] := by
  cases asks : cancelsFor platform interest cmdPrefix with
  | none =>
    rw [onCancelRequest_rejected platform outcomes asks]
    exact sent_negativeReply (and_iff_right trivial)
  | some fetchPrefix =>
    cases found : repo.patterns[fetchPrefix]? with
    | none =>
      have status : cancelStatus repo (some fetchPrefix) = 402 := by simp [cancelStatus, found]
      rw [status, final_congr (onCancelRequest_absent platform outcomes asks found)]
      exact sent_negativeReply (and_iff_right (by simp [StopReturns, found]))
    | some instanceId =>
      have status : cancelStatus repo (some fetchPrefix) = 101 := by simp [cancelStatus, found]
      rw [status, final_congr (onCancelRequest_found platform outcomes asks found), final_bind]
      rcases cancelPattern_apply outcomes found with
        ⟨stops, returned⟩ | ⟨throws, exn, threw⟩
      · rw [returned]
        simp only [stops, true_and]
        refine (sent_negativeReply Iff.rfl).trans ?_
        rw [sent_ended]
      · rw [threw, if_neg fun both => throws both.1, List.append_nil]

end Replies

/-! ### Every event -/

section Step

variable {platform} {repo : FastRepoImpl}

/-- An Interest for data sends what is read. -/
theorem sent_answer (outcomes : Outcomes) (interest : Interest) :
    (final (ReadHandle.answer platform outcomes interest) repo).face.sent =
      repo.face.sent ++ if outcomes.throws .putData = none then
        (answerTo platform repo (.readInterest interest)).toList else [] := by
  have answer : ∀ read, ReadHandle.onInterest platform.ndn repo.storage interest = read →
      answerTo platform repo (.readInterest interest) =
        match read with
        | .error _ => none
        | .ok found => found := by
    rintro read rfl
    rfl
  unfold ReadHandle.answer
  rw [final_get_bind]
  cases read : ReadHandle.onInterest platform.ndn repo.storage interest with
  | error exn =>
    rw [answer _ read, Option.toList_none, ite_self, List.append_nil]
    rfl
  | ok found =>
    rw [answer _ read]
    cases found with
    | none =>
      rw [Option.toList_none, ite_self, List.append_nil]
      rfl
    | some data =>
      show (final (call outcomes .putData >>= fun _ => modify fun repo => repo.send data)
        repo).face.sent = _
      unfold call
      cases outcomes.throws .putData with
      | none => rfl
      | some exn => exact (List.append_nil _).symm

theorem sent_onDataValidated (outcomes : Outcomes) (data : Data) (processId : UInt64) :
    (final (WriteHandle.onDataValidated platform outcomes data processId) repo).face.sent =
      repo.face.sent := by
  refine (frames_bind frames_get fun s => ?_ : Frames (fun repo : FastRepoImpl => repo.face.sent)
    (WriteHandle.onDataValidated platform outcomes data processId)) repo
  split
  · exact frames_pure _
  · refine frames_bind ?_ fun _ => frames_modify fun _ => rfl
    unfold WriteHandle.insertFetched
    split
    · refine frames_bind (frames_put (fun _ _ _ => rfl) outcomes data) fun n => ?_
      refine frames_bind (frames_modify fun _ => rfl) fun _ => ?_
      exact frames_dataInsertionSignal (part_announced _ fun _ _ _ _ => rfl) outcomes n
    · exact frames_pure _

theorem sent_doFetch (outcomes : Outcomes) (instanceId : InstanceId) :
    (final (CounterPattern.doFetch outcomes instanceId) repo).face.sent = repo.face.sent := by
  rcases CounterPattern.doFetch_cases outcomes instanceId repo with same | ⟨_, _, same⟩
  · rw [same]
  · rw [same]
    rfl

theorem sent_onData (outcomes : Outcomes) (instanceId : InstanceId) (data : Data) :
    (final (CounterPattern.onData platform outcomes instanceId data) repo).face.sent =
      repo.face.sent := by
  rcases CounterPattern.onData_cases platform outcomes instanceId data repo with
    same | ⟨_, _, _, _, same | same⟩
  · rw [same]
  · rw [same]
    rfl
  · rw [same]
    rfl

theorem sent_removePattern (outcomes : Outcomes) (fetchPrefix : Name) :
    (final (removePattern outcomes fetchPrefix) repo).face.sent = repo.face.sent := by
  cases found : repo.patterns[fetchPrefix]? with
  | none => rw [final_of_ok (removePattern_absent outcomes found)]
  | some instanceId =>
    rw [final_congr (removePattern_found outcomes found)]
    rcases cancelPattern_apply outcomes found with ⟨_, returned⟩ | ⟨_, _, threw⟩
    · rw [final_of_ok returned, sent_ended]
    · rw [final_of_error threw]

/-- One event: **it sends the packet it is answered with, when the libraries let it through, and
nothing else**. -/
theorem sent_after (repo : FastRepoImpl) (occurrence : Occurrence) :
    (repo.after platform occurrence).face.sent =
      repo.face.sent ++ sentBy platform repo occurrence := by
  obtain ⟨event, outcomes⟩ := occurrence
  have silent : ∀ {next : FastRepoImpl}, next.face.sent = repo.face.sent →
      answerTo platform repo event = none →
        next.face.sent = repo.face.sent ++ sentBy platform repo ⟨event, outcomes⟩ := by
    intro next same none
    simp [sentBy, same, none]
  cases event with
  | insertCommand cmdPrefix interest processId => exact sent_onValidated cmdPrefix processId
  | patternCommand cmdPrefix interest => exact sent_onInterest cmdPrefix
  | cancelCommand cmdPrefix interest => exact sent_onCancelRequest cmdPrefix
  | readInterest interest => exact sent_answer outcomes interest
  | insertData processId data => exact silent (sent_onDataValidated outcomes data processId) rfl
  | insertTimeout processId => exact silent rfl rfl
  | insertNack processId => exact silent rfl rfl
  | removePattern fetchPrefix => exact silent (sent_removePattern outcomes fetchPrefix) rfl
  | timer timer => exact silent (sent_doFetch outcomes timer.pattern) rfl
  | counterData interest data => exact silent (sent_onData outcomes interest.pattern data) rfl
  | counterTimeout interest => exact silent rfl rfl
  | recorderData instanceId data =>
    have same : Frames (fun repo => repo.face.sent)
        (NdnrtcPattern.storeFun platform outcomes instanceId data) :=
      frames_storeFun (fun _ _ _ => rfl) outcomes data
    exact silent (same repo) rfl

end Step

/-! ### What a reply says -/

/-- The Interest of a command. -/
def commandOf : Event → Option Interest
  | .insertCommand _ interest _ | .patternCommand _ interest | .cancelCommand _ interest =>
    some interest
  | _ => none

/-- What the response to a command says about the repo before and after it. -/
inductive Tells (repo next : FastRepoImpl) : Event → RepoCommandResponse → Prop where
  /-- An accepted insert command has its record, which says that the fetch is under way. -/
  | accepted {cmdPrefix : Name} {interest : Interest} {parameter : RepoCommandParameter}
    {processId : UInt64} (extracted : extractParameter platform interest cmdPrefix = .ok parameter)
    (record : next.processes[processId]? = some ⟨⟨processId, 300, 0⟩⟩) :
    Tells repo next (.insertCommand cmdPrefix interest processId) ⟨processId, 100, 0⟩
  /-- A started pattern had no entry, and has one now. Its object is as `fetch` left it. -/
  | started {cmdPrefix fetchPrefix : Name} {interest : Interest} {kind : PatternKind}
    (asks : asksFor platform interest cmdPrefix = some (fetchPrefix, some kind))
    (absent : repo.patterns[fetchPrefix]? = none)
    (entry : next.patterns = repo.patterns.insert fetchPrefix repo.instances.length)
    (object : next.instances[repo.instances.length]? =
      some (FetchPattern.fetching platform kind fetchPrefix)) :
    Tells repo next (.patternCommand cmdPrefix interest) (statusOnly 100)
  /-- A cancelled pattern had an entry, and has none now. -/
  | ended {cmdPrefix fetchPrefix : Name} {interest : Interest} {instanceId : InstanceId}
    (asks : cancelsFor platform interest cmdPrefix = some fetchPrefix)
    (found : repo.patterns[fetchPrefix]? = some instanceId)
    (erased : next.patterns = repo.patterns.erase fetchPrefix)
    (object : next.instances[instanceId]? =
      repo.instances[instanceId]?.map FetchPattern.cancelled) :
    Tells repo next (.cancelCommand cmdPrefix interest) (statusOnly 101)
  /-- A command that is refused leaves the patterns and the records alone. -/
  | refused {event : Event} {code : UInt64} (negative : code ∈ [402, 403, 404])
    (patterns : next.patterns = repo.patterns) (instances : next.instances = repo.instances)
    (processes : next.processes = repo.processes) : Tells repo next event (statusOnly code)

section Tells

variable {platform} {outcomes : Outcomes} {repo : FastRepoImpl} {interest : Interest}
  {cmdPrefix : Name}

/-- A handler that does nothing but refuse. -/
theorem tells_negativeReply {event : Event} {code : UInt64} (negative : code ∈ [402, 403, 404]) :
    Tells platform repo (final (negativeReply platform outcomes interest code) repo) event
      (statusOnly code) := by
  rcases sendsAtMost_negativeReply platform outcomes interest code repo with same | ⟨_, same⟩
  · rw [same]
    exact .refused negative rfl rfl rfl
  · rw [same]
    exact .refused negative rfl rfl rfl

/-- The record of an accepted insert command once the reply is sent. -/
theorem record_onValidated {parameter : RepoCommandParameter} (processId : UInt64)
    (extracted : extractParameter platform interest cmdPrefix = .ok parameter)
    (replies : ReplyReturns outcomes) :
    (final (WriteHandle.onValidated platform outcomes interest cmdPrefix processId)
      repo).processes[processId]? = some ⟨⟨processId, 300, 0⟩⟩ := by
  have rest : Frames FastRepoImpl.processes
      (do
        call outcomes .expressInterest
        modify fun repo => repo.addInsertInterest
          ⟨parameter.name.map .generic, WriteHandle.fetchLifetimeMs, processId⟩ : Handler Unit) :=
    frames_bind (frames_call outcomes _) fun _ => frames_modify fun _ => rfl
  rw [final, InsertProtocol.onValidated_apply platform repo extracted processId, ← final, final_bind,
    reply_of_returns platform interest _ _ replies]
  simp only [final_modify_bind]
  rw [rest, InsertProtocol.processes_updateResponse, if_pos rfl]
  have record : ((repo.updateResponse processId
      (WriteHandle.initialResponse processId)).replied platform interest
        ⟨processId, 100, 0⟩).processes[processId]? = some ⟨⟨processId, 100, 0⟩⟩ := by
    show (repo.updateResponse processId _).processes[processId]? = _
    rw [InsertProtocol.processes_updateResponse, if_pos rfl]
    rfl
  rw [record]
  rfl

theorem tells_insertCommand (processId : UInt64) (replies : ReplyReturns outcomes) :
    Tells platform repo
      (final (WriteHandle.onValidated platform outcomes interest cmdPrefix processId) repo)
      (.insertCommand cmdPrefix interest processId)
      (insertResponse platform interest cmdPrefix processId) := by
  unfold insertResponse
  cases extracted : extractParameter platform interest cmdPrefix with
  | error exn =>
    unfold WriteHandle.onValidated
    rw [extracted]
    exact tells_negativeReply (by decide)
  | ok parameter => exact .accepted extracted (record_onValidated processId extracted replies)

theorem tells_patternCommand
    (starts : StartReturns platform repo outcomes (asksFor platform interest cmdPrefix))
    (replies : ReplyReturns outcomes) :
    Tells platform repo (final (onInterest platform outcomes interest cmdPrefix) repo)
      (.patternCommand cmdPrefix interest)
      (statusOnly (patternStatus repo (asksFor platform interest cmdPrefix))) := by
  cases asks : asksFor platform interest cmdPrefix with
  | none =>
    rw [onInterest_undecoded platform outcomes asks]
    exact tells_negativeReply (by decide)
  | some asked =>
    obtain ⟨fetchPrefix, kind⟩ := asked
    cases found : repo.patterns[fetchPrefix]? with
    | some instanceId =>
      rw [final_congr (onInterest_taken platform outcomes asks found)]
      have status : patternStatus repo (some (fetchPrefix, kind)) = 402 := by
        simp [patternStatus, found]
      rw [status]
      exact tells_negativeReply (by decide)
    | none =>
      cases kind with
      | none =>
        rw [final_congr (onInterest_unknown platform outcomes asks found)]
        have status : patternStatus repo (some (fetchPrefix, none)) = 404 := by
          simp [patternStatus, found]
        rw [status]
        exact tells_negativeReply (by decide)
      | some kind =>
        have status : patternStatus repo (some (fetchPrefix, some kind)) = 100 := by
          simp [patternStatus, found]
        rw [asks] at starts
        obtain ⟨fetches, signals⟩ := starts found
        rw [status, final_of_ok
          (FailingExits.onInterest_answered platform asks found fetches ⟨signals, replies⟩)]
        obtain ⟨entry, object⟩ := FailingExits.entry_of_started platform
          (rfl : PatternState.patternSide ((PatternHandle.started platform outcomes repo kind
            fetchPrefix).replied platform interest (statusOnly 100)) = _)
        exact .started asks found entry object

theorem object_ended (repo : FastRepoImpl) (fetchPrefix : Name) (instanceId : InstanceId) :
    (ended repo fetchPrefix instanceId).instances[instanceId]? =
      repo.instances[instanceId]?.map FetchPattern.cancelled := by
  unfold ended FetchPattern.cancelledAt
  cases found : repo.instances[instanceId]? with
  | none => exact found
  | some pattern =>
    obtain ⟨bound, _⟩ := List.getElem?_eq_some_iff.mp found
    exact List.getElem?_set_self bound

theorem tells_cancelCommand
    (stops : StopReturns repo outcomes (cancelsFor platform interest cmdPrefix)) :
    Tells platform repo (final (onCancelRequest platform outcomes interest cmdPrefix) repo)
      (.cancelCommand cmdPrefix interest)
      (statusOnly (cancelStatus repo (cancelsFor platform interest cmdPrefix))) := by
  cases asks : cancelsFor platform interest cmdPrefix with
  | none =>
    rw [onCancelRequest_rejected platform outcomes asks]
    exact tells_negativeReply (by decide)
  | some fetchPrefix =>
    cases found : repo.patterns[fetchPrefix]? with
    | none =>
      rw [final_congr (onCancelRequest_absent platform outcomes asks found)]
      have status : cancelStatus repo (some fetchPrefix) = 402 := by simp [cancelStatus, found]
      rw [status]
      exact tells_negativeReply (by decide)
    | some instanceId =>
      have status : cancelStatus repo (some fetchPrefix) = 101 := by simp [cancelStatus, found]
      rw [asks] at stops
      rw [status, final_congr (onCancelRequest_found platform outcomes asks found), final_bind]
      rcases cancelPattern_apply outcomes found with
        ⟨_, returned⟩ | ⟨throws, _⟩
      · rw [returned]
        have object := object_ended repo fetchPrefix instanceId
        have erased := ended_patterns repo fetchPrefix instanceId
        rcases sendsAtMost_negativeReply platform outcomes interest 101
          (ended repo fetchPrefix instanceId) with same | ⟨_, same⟩
        · rw [← same] at object erased
          exact .ended asks found erased object
        · refine .ended asks found ?_ ?_
          · exact (congrArg FastRepoImpl.patterns same).trans erased
          · exact (congrArg (fun repo => repo.instances[instanceId]?) same).trans object
      · exact absurd stops throws

variable (platform) in
/-- Where a packet comes from: it answers an Interest for data as it was read, or it is the reply
to a command, and what its response says is so. -/
inductive Sends (repo next : FastRepoImpl) : Event → Data → Prop where
  | read {interest : Interest} {packet : Data} (stale : interest.mustBeFresh = false)
    (found : repo.storage.read platform.ndn interest = .ok (some packet)) :
    Sends repo next (.readInterest interest) packet
  | reply {event : Event} {interest : Interest} {response : RepoCommandResponse}
    (command : commandOf event = some interest) (tells : Tells platform repo next event response) :
    Sends repo next event (replyPacket platform interest response)

/-- One event: **what it sends was read, or says the truth**. -/
theorem sends_of_mem {occurrence : Occurrence} {packet : Data}
    (member : packet ∈ sentBy platform repo occurrence) :
    Sends platform repo (repo.after platform occurrence) occurrence.event packet := by
  obtain ⟨event, outcomes⟩ := occurrence
  unfold sentBy at member
  split at member
  · rename_i returns
    have answer := Option.mem_toList.mp member
    cases event with
    | insertCommand cmdPrefix interest processId =>
      cases answer
      exact .reply rfl (tells_insertCommand processId returns)
    | patternCommand cmdPrefix interest =>
      cases answer
      exact .reply rfl (tells_patternCommand returns.1 returns.2)
    | cancelCommand cmdPrefix interest =>
      cases answer
      exact .reply rfl (tells_cancelCommand returns.1)
    | readInterest interest =>
      have read : ReadHandle.onInterest platform.ndn repo.storage interest =
          .ok (some packet) := by
        simp only [answerTo] at answer
        split at answer
        · cases answer
        · rename_i found read
          rw [read, answer]
      unfold ReadHandle.onInterest at read
      split at read
      · rename_i stale
        exact .read stale read
      · cases read
    | _ => cases answer
  · cases member

end Tells

/-! ### Runs -/

section Run

variable {platform} {start last : FastRepoImpl} {occurrences : List Occurrence}

/-- A run sends, one after the other, the packets its events are answered with. -/
theorem sent_of_run (reached : start.run platform occurrences = some last) :
    last.face.sent =
      start.face.sent ++ Runs.outputs (step platform) (sentBy platform) start occurrences := by
  refine Runs.appends_outputs (fun repo => repo.face.sent) (fun repo occurrence next took => ?_)
    reached
  obtain ⟨_, rfl⟩ := (step_eq_some platform).mp took
  exact sent_after repo occurrence

variable {config : Config} {db : Db}

theorem sent_of_started
    (reached : (started platform config db).run platform occurrences = some last) :
    last.face.sent =
      Runs.outputs (step platform) (sentBy platform) (started platform config db) occurrences := by
  have none : (started platform config db).face.sent = [] :=
    part_started platform (fun repo => repo.face.sent) (fun _ _ => rfl) (fun _ => rfl) config db
  rw [sent_of_run reached, none, List.nil_append]

/-- A packet that a run sends is sent by one of its events. -/
theorem sends_of_sent
    (reached : (started platform config db).run platform occurrences = some last) {packet : Data}
    (member : packet ∈ last.face.sent) :
    ∃ repo occurrence,
      Runs.Takes (step platform) (started platform config db) occurrences repo occurrence ∧
        Sends platform repo (repo.after platform occurrence) occurrence.event packet := by
  rw [sent_of_started reached] at member
  obtain ⟨repo, occurrence, taken, sent⟩ := Runs.mem_outputs member
  exact ⟨repo, occurrence, taken, sends_of_mem sent⟩

/-- The packets: **a repo sends, one after the other, the packets its events are answered with, each
when no call up to its sending throws; and each was read from the storage for an Interest of the
run, or it is the reply to a command of the run and tells truly what the command did**. -/
theorem sent_run
    (reached : (started platform config db).run platform occurrences = some last) :
    last.face.sent = Runs.outputs (step platform) (sentBy platform) (started platform config db)
        occurrences ∧
      ∀ packet ∈ last.face.sent, ∃ repo occurrence,
        Runs.Takes (step platform) (started platform config db) occurrences repo occurrence ∧
          Sends platform repo (repo.after platform occurrence) occurrence.event packet :=
  ⟨sent_of_started reached, fun _ member => sends_of_sent reached member⟩

/-- A run with one command, which starts a counter pattern. -/
def startOnce : List Occurrence :=
  [⟨.patternCommand (nameOf ["r", "pattern"]) FailingExits.counterForP, {}⟩]

/-- The run sends one packet, and it is the reply to the command. -/
theorem sent_startOnce : ∃ last,
    (started (tlvPlatform false false) {} ∅).run (tlvPlatform false false) startOnce = some last ∧
      last.face.sent =
        [replyPacket (tlvPlatform false false) FailingExits.counterForP (statusOnly 100)] ∧
      ∃ repo occurrence, Runs.Takes (step (tlvPlatform false false))
          (started (tlvPlatform false false) {} ∅) startOnce repo occurrence ∧
        Sends (tlvPlatform false false) repo (repo.after (tlvPlatform false false) occurrence)
          occurrence.event
          (replyPacket (tlvPlatform false false) FailingExits.counterForP (statusOnly 100)) := by
  have ran : ((started (tlvPlatform false false) {} ∅).run (tlvPlatform false false)
    startOnce).isSome = true := by decide
  obtain ⟨exactly, each⟩ := sent_run (Option.some_get ran).symm
  refine ⟨_, (Option.some_get ran).symm, exactly.trans (by decide), each _ ?_⟩
  rw [exactly]
  decide

end Run

end SentPackets

end FastRepo
