/-
What the command handlers leave behind when they throw.

No handler undoes what it did before an exception. The insert command makes the record of its
process first, and its callback erases the record last, so every exit by an exception leaves the
record behind: `noLeak_iff`. The pattern command enters its pattern in the map once `fetch` has
returned, before it announces the prefix and replies: `patternStart` says what each exit leaves, and
`atomicStart_iff` when a client without an answer may ask again.
-/

import FastRepo.Repo.CallbackLifetime
import FastRepo.Repo.InsertProtocol
import FastRepo.Repo.StoreState

namespace FastRepo

open BaseHandle CallbackLifetime Exits FastRepoImpl PatternHandle PatternState

namespace FailingExits

variable (platform : Platform)

/-! ### The insert command -/

section Insert

variable {outcomes : Outcomes} {repo : FastRepoImpl} {processId : UInt64}

/-- A program that throws leaves no record of the process, and the other records as they were. -/
def LeavesNoRecord (program : Handler Unit) (repo : FastRepoImpl) (processId : UInt64) : Prop :=
  ∀ exn next, program repo = .error exn next →
    next.processes[processId]? = none ∧
      ∀ other, other ≠ processId → next.processes[other]? = repo.processes[other]?

/-- Nothing that follows the creation of the record throws. -/
def CommandReturns (outcomes : Outcomes) : Prop :=
  ReplyReturns outcomes ∧ outcomes.throws .expressInterest = none

/-- The name that the packet of an insert command is announced under: the one it is stored under,
and the empty name when the write of the database fails. -/
def insertedName (repo : FastRepoImpl) (outcomes : Outcomes) (data : Data) : Name :=
  if outcomes.dbPut then storedName platform.ndn repo.storage.pimpl.renamePrefix data else []

/-- A packet for a process that has inserted nothing is written and announced without an exception. -/
def DataReturns (repo : FastRepoImpl) (outcomes : Outcomes) (processId : UInt64) (data : Data) :
    Prop :=
  ∀ process, repo.processes[processId]? = some process → process.response.insertNum = 0 →
    outcomes.throws .storagePut = none ∧
      SignalReturns outcomes repo (insertedName platform repo outcomes data)

theorem written_insertedName (writer : Writer) (data : Data) :
    (repo.written platform outcomes.dbPut writer data).2 =
      insertedName platform repo outcomes data := by
  unfold insertedName
  cases outcomes.dbPut with
  | true => exact written_name platform repo writer data
  | false => exact (StoreState.written_failed platform repo writer data).1

/-- A program that returns leaves nothing behind by an exception. -/
theorem leavesNoRecord_of_ok {program : Handler Unit} {next : FastRepoImpl}
    (returned : program repo = .ok () next) : LeavesNoRecord program repo processId := by
  intro exn other threw
  rw [returned] at threw
  cases threw

/-- A program that throws while there is a record leaks it. -/
theorem not_leavesNoRecord {program : Handler Unit} {exn : Exn} {next : FastRepoImpl}
    (threw : program repo = .error exn next) (there : next.processes[processId]? ≠ none) :
    ¬LeavesNoRecord program repo processId := fun clean => there (clean exn next threw).1

/-- A record whose response is changed is there. -/
theorem record_updateResponse (repo : FastRepoImpl) (processId : UInt64)
    (change : RepoCommandResponse → RepoCommandResponse) :
    (repo.updateResponse processId change).processes[processId]? ≠ none := by
  rw [InsertProtocol.processes_updateResponse, if_pos rfl]
  exact Option.some_ne_none _

section Command

variable {interest : Interest} {cmdPrefix : Name} {parameter : RepoCommandParameter}
  (extracted : extractParameter platform interest cmdPrefix = .ok parameter)

include extracted

/-- An accepted command leaves its record behind exactly when it throws. -/
theorem leavesNoRecord_command_iff :
    LeavesNoRecord (WriteHandle.onValidated platform outcomes interest cmdPrefix processId) repo
      processId ↔ CommandReturns outcomes := by
  have apply : WriteHandle.onValidated platform outcomes interest cmdPrefix processId repo = _ :=
    InsertProtocol.onValidated_apply platform repo extracted processId
  by_cases replies : ReplyReturns outcomes
  · rw [bind_apply, reply_of_returns platform _ _ _ replies] at apply
    simp only [bind_apply, modify_apply] at apply
    cases asking : outcomes.throws .expressInterest with
    | none =>
      rw [call, asking] at apply
      exact iff_of_true (leavesNoRecord_of_ok apply) ⟨replies, asking⟩
    | some exn =>
      rw [call, asking] at apply
      refine iff_of_false (not_leavesNoRecord apply (record_updateResponse _ _ _)) fun returns => ?_
      rw [returns.2] at asking
      cases asking
  · obtain ⟨exn, threw⟩ := reply_of_not_returns platform interest ⟨processId, 100, 0⟩
      (repo.updateResponse processId (WriteHandle.initialResponse processId)) replies
    rw [bind_apply, threw] at apply
    refine iff_of_false (not_leavesNoRecord apply (record_updateResponse _ _ _)) fun returns => ?_
    exact replies returns.1

end Command

/-- The callback leaves the record behind exactly when it throws. -/
theorem leavesNoRecord_data_iff (data : Data) :
    LeavesNoRecord (WriteHandle.onDataValidated platform outcomes data processId) repo processId ↔
      DataReturns platform repo outcomes processId data := by
  by_cases waiting : ∃ process, repo.processes[processId]? = some process ∧
      process.response.insertNum = 0
  · obtain ⟨process, record, nothing⟩ := waiting
    have apply : WriteHandle.onDataValidated platform outcomes data processId repo = _ :=
      InsertProtocol.onDataValidated_apply platform repo record nothing data
    have iffReturns : DataReturns platform repo outcomes processId data ↔
        outcomes.throws .storagePut = none ∧
          SignalReturns outcomes repo (insertedName platform repo outcomes data) :=
      ⟨fun returns => returns process record nothing, fun returns _ _ _ => returns⟩
    rw [iffReturns, ← written_insertedName platform (.insert processId)]
    rw [bind_apply, put_apply] at apply
    cases writing : outcomes.throws .storagePut with
    | some exn =>
      simp only [writing] at apply
      exact iff_of_false (not_leavesNoRecord apply (by rw [record]; exact Option.some_ne_none _))
        fun returns => by cases returns.1
    | none =>
      simp only [writing, bind_apply, modify_apply] at apply
      have sameSignal (n : Name) : SignalReturns outcomes
          ((repo.written platform outcomes.dbPut (.insert processId) data).1.updateResponse
            processId fun response => { response with insertNum := 1 }) n ↔
          SignalReturns outcomes repo n := Iff.rfl
      rw [← sameSignal]
      by_cases signals : SignalReturns outcomes
          ((repo.written platform outcomes.dbPut (.insert processId) data).1.updateResponse
            processId fun response => { response with insertNum := 1 })
          (repo.written platform outcomes.dbPut (.insert processId) data).2
      · rw [dataInsertionSignal_of_returns signals] at apply
        exact iff_of_true (leavesNoRecord_of_ok apply) ⟨rfl, signals⟩
      · obtain ⟨exn, threw⟩ := dataInsertionSignal_of_not_returns signals
        rw [threw] at apply
        refine iff_of_false (not_leavesNoRecord apply ?_) fun returns => signals returns.2
        rw [part_announced (fun repo => repo.processes) fun _ _ _ _ => rfl]
        exact record_updateResponse _ _ _
  · have returned : ∃ next,
        WriteHandle.onDataValidated platform outcomes data processId repo = .ok () next := by
      cases record : repo.processes[processId]? with
      | none => exact ⟨_, InsertProtocol.onDataValidated_late platform repo record data⟩
      | some process =>
        have counted : process.response.insertNum ≠ 0 := fun nothing =>
          waiting ⟨process, record, nothing⟩
        refine ⟨repo.eraseProcess processId, ?_⟩
        unfold WriteHandle.onDataValidated
        rw [bind_apply, get_apply]
        simp only [record]
        rw [WriteHandle.insertFetched, if_neg counted]
        rfl
    obtain ⟨_, returned⟩ := returned
    exact iff_of_true (leavesNoRecord_of_ok returned) fun process record nothing =>
      absurd ⟨process, record, nothing⟩ waiting

/-- Insert processes: **an insert command and its callback leave no record behind by an exception
exactly when none of the calls they make after the record throws**. -/
theorem noLeak_iff (outcomes : Outcomes) (repo : FastRepoImpl) (processId : UInt64) :
    (∀ interest cmdPrefix parameter,
      extractParameter platform interest cmdPrefix = .ok parameter →
        (LeavesNoRecord (WriteHandle.onValidated platform outcomes interest cmdPrefix processId)
          repo processId ↔ CommandReturns outcomes)) ∧
    ∀ data,
      LeavesNoRecord (WriteHandle.onDataValidated platform outcomes data processId) repo
        processId ↔ DataReturns platform repo outcomes processId data :=
  ⟨fun _ _ _ extracted => leavesNoRecord_command_iff platform extracted,
    leavesNoRecord_data_iff platform⟩

end Insert

/-- A command that asks to insert `/a`. -/
def insertA : Interest := commandInterest (nameOf ["r", "insert"]) ⟨[ascii "a"]⟩

/-- The key chain throws. -/
def unsigned : Outcomes :=
  { throws := fun callee => if callee = .sign then some (.other "no key") else none }

/-- When the reply cannot be signed, the record stays. -/
theorem leaks_unsigned :
    extractParameter (tlvPlatform false false) insertA (nameOf ["r", "insert"]) =
        .ok ⟨[ascii "a"]⟩ ∧
      ¬LeavesNoRecord (WriteHandle.onValidated (tlvPlatform false false) unsigned insertA
        (nameOf ["r", "insert"]) 1) smallRepo 1 := by
  have extracted : extractParameter (tlvPlatform false false) insertA (nameOf ["r", "insert"]) =
      .ok ⟨[ascii "a"]⟩ := rfl
  refine ⟨extracted, ?_⟩
  rw [leavesNoRecord_command_iff (tlvPlatform false false) extracted]
  exact fun returns => by cases returns.1.1

/-- With a reply that is sent, the command returns and nothing is left behind by an exception. -/
theorem noLeak_signed :
    LeavesNoRecord (WriteHandle.onValidated (tlvPlatform false false) {} insertA
      (nameOf ["r", "insert"]) 1) smallRepo 1 :=
  ((noLeak_iff (tlvPlatform false false) {} smallRepo 1).1 insertA (nameOf ["r", "insert"])
    ⟨[ascii "a"]⟩ rfl).mpr ⟨⟨rfl, rfl⟩, rfl⟩

/-! ### The pattern command -/

section Pattern

/-- Neither the announcement of the pattern nor the reply after it throws. -/
def AnswerReturns (outcomes : Outcomes) (repo : FastRepoImpl) (fetchPrefix : Name) : Prop :=
  SignalReturns outcomes repo
      (platform.ndn.uri.ofUri repo.storage.pimpl.renamePrefix ++ fetchPrefix) ∧
    ReplyReturns outcomes

instance (outcomes : Outcomes) (repo : FastRepoImpl) (fetchPrefix : Name) :
    Decidable (AnswerReturns platform outcomes repo fetchPrefix) :=
  inferInstanceAs (Decidable (_ ∧ _))

variable (outcomes : Outcomes) (repo : FastRepoImpl) (interest : Interest)
  (cmdPrefix fetchPrefix : Name)

/-- A command for a new pattern is answered 100 and enters the pattern, or it throws and leaves the
map as it was. -/
def AtomicStart : Prop :=
  (∃ next, onInterest platform outcomes interest cmdPrefix repo = .ok () next ∧
    next.face.sent = repo.face.sent ++ [replyPacket platform interest (statusOnly 100)] ∧
    next.patterns = repo.patterns.insert fetchPrefix repo.instances.length) ∨
  ∃ exn next, onInterest platform outcomes interest cmdPrefix repo = .error exn next ∧
    next.patterns = repo.patterns

variable {outcomes repo interest cmdPrefix fetchPrefix} {kind : PatternKind}

theorem sent_replied (kind : PatternKind) :
    ((PatternHandle.started platform outcomes repo kind fetchPrefix).replied platform interest
      (statusOnly 100)).face.sent =
      repo.face.sent ++ [replyPacket platform interest (statusOnly 100)] :=
  congrArg (· ++ _) (sent_started platform outcomes repo kind fetchPrefix)

/-- The entry and the object of a pattern that was started. -/
theorem entry_of_started {next : FastRepoImpl}
    (side : patternSide next =
      patternSide (PatternHandle.started platform outcomes repo kind fetchPrefix)) :
    next.patterns = repo.patterns.insert fetchPrefix repo.instances.length ∧
      next.instances[repo.instances.length]? =
        some (FetchPattern.fetching platform kind fetchPrefix) := by
  rw [patternSide_patternStarted] at side
  simp only [patternSide, Prod.mk.injEq] at side
  obtain ⟨patterns, instances, _⟩ := side
  rw [patterns, instances, List.getElem?_concat_length]
  exact ⟨rfl, rfl⟩

section Start

variable (asks : asksFor platform interest cmdPrefix = some (fetchPrefix, some kind))
  (absent : repo.patterns[fetchPrefix]? = none)

include asks

/-- A command whose pattern is in the map is answered 402. -/
theorem onInterest_retry {next : FastRepoImpl}
    (patterns : next.patterns = repo.patterns.insert fetchPrefix repo.instances.length)
    (again : Outcomes) :
    onInterest platform again interest cmdPrefix next =
      negativeReply platform again interest 402 next := by
  have found : next.patterns[fetchPrefix]? = some repo.instances.length := by
    rw [patterns, Std.TreeMap.getElem?_insert_self]
  exact onInterest_taken platform again asks found

include absent

/-- A `fetch` that throws leaves no entry and sends nothing. -/
theorem onInterest_unfetched
    (throws : ¬FetchPattern.FetchReturns platform outcomes kind fetchPrefix) :
    ∃ exn next, onInterest platform outcomes interest cmdPrefix repo = .error exn next ∧
      next.patterns = repo.patterns ∧ next.face.sent = repo.face.sent := by
  have apply := onInterest_known platform outcomes asks absent
  obtain ⟨exn, next, threw, _, rfl⟩ := startPattern_of_not_returns platform repo throws
  rw [bind_apply, threw] at apply
  exact ⟨exn, _, apply, rfl, rfl⟩

variable (fetches : FetchPattern.FetchReturns platform outcomes kind fetchPrefix)

include fetches

/-- Once the pattern is entered, the command announces it and replies. -/
theorem onInterest_fetched :
    onInterest platform outcomes interest cmdPrefix repo =
      (dataInsertionSignal outcomes
          (platform.ndn.uri.ofUri repo.storage.pimpl.renamePrefix ++ fetchPrefix) >>= fun _ =>
        reply platform outcomes interest (statusOnly 100) : Handler Unit)
        (entered platform repo kind fetchPrefix) := by
  rw [onInterest_known platform outcomes asks absent, bind_apply,
    startPattern_of_returns platform repo fetches, bind_apply]
  rfl

theorem onInterest_answered (answers : AnswerReturns platform outcomes repo fetchPrefix) :
    onInterest platform outcomes interest cmdPrefix repo =
      .ok () ((PatternHandle.started platform outcomes repo kind fetchPrefix).replied platform
        interest (statusOnly 100)) := by
  obtain ⟨signals, replies⟩ := answers
  have announces : SignalReturns outcomes (entered platform repo kind fetchPrefix)
    (platform.ndn.uri.ofUri repo.storage.pimpl.renamePrefix ++ fetchPrefix) := signals
  rw [onInterest_fetched platform asks absent fetches, bind_apply,
    dataInsertionSignal_of_returns announces]
  exact reply_of_returns platform interest _ _ replies

/-- When the announcement or the reply throws, the pattern has been started all the same. -/
theorem onInterest_unanswered (throws : ¬AnswerReturns platform outcomes repo fetchPrefix) :
    ∃ exn, onInterest platform outcomes interest cmdPrefix repo =
      .error exn (PatternHandle.started platform outcomes repo kind fetchPrefix) := by
  rw [onInterest_fetched platform asks absent fetches, bind_apply]
  by_cases signals : SignalReturns outcomes (entered platform repo kind fetchPrefix)
      (platform.ndn.uri.ofUri repo.storage.pimpl.renamePrefix ++ fetchPrefix)
  · rw [dataInsertionSignal_of_returns signals]
    exact reply_of_not_returns platform interest _ _ fun replies => throws ⟨signals, replies⟩
  · obtain ⟨exn, threw⟩ := dataInsertionSignal_of_not_returns signals
    have slots : repo.insertionSlots ≠ 0 := fun none => signals (Or.inl none)
    rw [threw, PatternHandle.started, if_neg slots]
    exact ⟨exn, rfl⟩

end Start

/-- A command for a new pattern is answered 100 exactly when nothing it calls throws. -/
theorem answered_iff
    (asks : asksFor platform interest cmdPrefix = some (fetchPrefix, some kind))
    (absent : repo.patterns[fetchPrefix]? = none) :
    (final (onInterest platform outcomes interest cmdPrefix) repo).face.sent =
        repo.face.sent ++ [replyPacket platform interest (statusOnly 100)] ↔
      FetchPattern.FetchReturns platform outcomes kind fetchPrefix ∧
        AnswerReturns platform outcomes repo fetchPrefix := by
  have silent {next : FastRepoImpl} {exn : Exn} (packet : Data)
      (threw : onInterest platform outcomes interest cmdPrefix repo = .error exn next)
      (same : next.face.sent = repo.face.sent) :
      (final (onInterest platform outcomes interest cmdPrefix) repo).face.sent ≠
        repo.face.sent ++ [packet] := by
    rw [final_of_error threw, same]
    simp
  by_cases fetches : FetchPattern.FetchReturns platform outcomes kind fetchPrefix
  · by_cases answers : AnswerReturns platform outcomes repo fetchPrefix
    · rw [final_of_ok (onInterest_answered platform asks absent fetches answers)]
      exact iff_of_true (sent_replied platform kind) ⟨fetches, answers⟩
    · obtain ⟨_, threw⟩ := onInterest_unanswered platform asks absent fetches answers
      refine iff_of_false (silent _ threw (sent_started platform outcomes repo kind fetchPrefix)) ?_
      exact fun both => answers both.2
  · obtain ⟨_, _, threw, _, sent⟩ := onInterest_unfetched platform asks absent fetches
    exact iff_of_false (silent _ threw sent) fun both => fetches both.1

/-- Atomicity: **a command for a new pattern is answered 100 with its entry, or throws and leaves the
map alone, exactly when `fetch` throws, or neither the announcement nor the reply after it does**. -/
theorem atomicStart_iff
    (asks : asksFor platform interest cmdPrefix = some (fetchPrefix, some kind))
    (absent : repo.patterns[fetchPrefix]? = none) :
    AtomicStart platform outcomes repo interest cmdPrefix fetchPrefix ↔
      (FetchPattern.FetchReturns platform outcomes kind fetchPrefix →
        AnswerReturns platform outcomes repo fetchPrefix) := by
  have entry : (PatternHandle.started platform outcomes repo kind fetchPrefix).patterns =
    repo.patterns.insert fetchPrefix repo.instances.length := (entry_of_started platform rfl).1
  by_cases fetches : FetchPattern.FetchReturns platform outcomes kind fetchPrefix
  · by_cases answers : AnswerReturns platform outcomes repo fetchPrefix
    · refine iff_of_true (Or.inl ⟨_, onInterest_answered platform asks absent fetches answers,
        sent_replied platform kind, entry⟩) fun _ => answers
    · obtain ⟨exn, threw⟩ := onInterest_unanswered platform asks absent fetches answers
      refine iff_of_false ?_ fun returns => answers (returns fetches)
      unfold AtomicStart
      rw [threw]
      rintro (⟨_, returned, _⟩ | ⟨_, _, same, patterns⟩)
      · cases returned
      · cases same
        have found := congrArg (fun entries => entries[fetchPrefix]?) (entry.symm.trans patterns)
        simp only [Std.TreeMap.getElem?_insert_self, absent] at found
        cases found
  · obtain ⟨exn, next, threw, patterns, _⟩ := onInterest_unfetched platform asks absent fetches
    exact iff_of_true (Or.inr ⟨exn, next, threw, patterns⟩) fun returns => absurd returns fetches

/-- Pattern start: **when `fetch` throws, a command for a new pattern leaves the map alone and sends
nothing. Otherwise its pattern is entered as `fetch` left it, whatever the announcement and the
reply do: when neither throws the command is answered 100, and when one does nothing is sent and a
retry is answered 402, because the entry is there**. Whether `fetch` set the pattern to work is up
to its kind (`FetchPattern.Fetches`). -/
theorem patternStart
    (asks : asksFor platform interest cmdPrefix = some (fetchPrefix, some kind))
    (absent : repo.patterns[fetchPrefix]? = none) :
    (¬FetchPattern.FetchReturns platform outcomes kind fetchPrefix →
      ∃ exn next, onInterest platform outcomes interest cmdPrefix repo = .error exn next ∧
        next.patterns = repo.patterns ∧ next.face.sent = repo.face.sent) ∧
    (FetchPattern.FetchReturns platform outcomes kind fetchPrefix →
      ∃ next, final (onInterest platform outcomes interest cmdPrefix) repo = next ∧
        next.patterns = repo.patterns.insert fetchPrefix repo.instances.length ∧
        next.instances[repo.instances.length]? =
          some (FetchPattern.fetching platform kind fetchPrefix) ∧
        (AnswerReturns platform outcomes repo fetchPrefix →
          onInterest platform outcomes interest cmdPrefix repo = .ok () next ∧
            next.face.sent =
              repo.face.sent ++ [replyPacket platform interest (statusOnly 100)]) ∧
        (¬AnswerReturns platform outcomes repo fetchPrefix →
          (∃ exn, onInterest platform outcomes interest cmdPrefix repo = .error exn next) ∧
            next.face.sent = repo.face.sent ∧
            ∀ again, onInterest platform again interest cmdPrefix next =
              negativeReply platform again interest 402 next)) := by
  refine ⟨onInterest_unfetched platform asks absent, fun fetches => ⟨_, rfl, ?_⟩⟩
  by_cases answers : AnswerReturns platform outcomes repo fetchPrefix
  · have returned := onInterest_answered platform asks absent fetches answers
    rw [final_of_ok returned]
    obtain ⟨entry, object⟩ := entry_of_started platform (rfl : patternSide
      ((PatternHandle.started platform outcomes repo kind fetchPrefix).replied platform interest
        (statusOnly 100)) =
          patternSide (PatternHandle.started platform outcomes repo kind fetchPrefix))
    exact ⟨entry, object, fun _ => ⟨returned, sent_replied platform kind⟩,
      fun throws => absurd answers throws⟩
  · obtain ⟨exn, threw⟩ := onInterest_unanswered platform asks absent fetches answers
    rw [final_of_error threw]
    obtain ⟨entry, object⟩ := entry_of_started platform (rfl : patternSide
      (PatternHandle.started platform outcomes repo kind fetchPrefix) = _)
    exact ⟨entry, object, fun returns => absurd returns answers, fun _ => ⟨⟨exn, threw⟩,
      sent_started platform outcomes repo kind fetchPrefix, onInterest_retry platform asks entry⟩⟩

end Pattern

/-- The command that starts a counter pattern for `/p`. -/
def counterForP : Interest :=
  commandInterest (nameOf ["r", "pattern"]) (patternParameter (ascii "counter") [ascii "p"])

/-- When the reply cannot be signed, the entry stays, and the same command sent again is refused. -/
theorem not_atomicStart_unsigned :
    asksFor (tlvPlatform false false) counterForP (nameOf ["r", "pattern"]) =
        some (nameOf ["p"], some .counter) ∧
      smallRepo.patterns[nameOf ["p"]]? = none ∧
      ¬AtomicStart (tlvPlatform false false) unsigned smallRepo counterForP
        (nameOf ["r", "pattern"]) (nameOf ["p"]) ∧
      (final (onInterest (tlvPlatform false false) {} counterForP (nameOf ["r", "pattern"]))
        (final (onInterest (tlvPlatform false false) unsigned counterForP (nameOf ["r", "pattern"]))
          smallRepo)).face.sent =
        [replyPacket (tlvPlatform false false) counterForP (statusOnly 402)] := by
  have asks : asksFor (tlvPlatform false false) counterForP (nameOf ["r", "pattern"]) =
    some (nameOf ["p"], some .counter) := by decide
  have absent : smallRepo.patterns[nameOf ["p"]]? = none := by decide
  refine ⟨asks, absent, ?_, by decide⟩
  rw [atomicStart_iff (tlvPlatform false false) asks absent]
  exact fun returns => by cases (returns rfl).2.1

/-- The command is answered 100 when its reply is sent. -/
theorem patternStart_signed :
    ∃ next, onInterest (tlvPlatform false false) {} counterForP (nameOf ["r", "pattern"])
        smallRepo = .ok () next ∧
      next.patterns = smallRepo.patterns.insert (nameOf ["p"]) smallRepo.instances.length ∧
      next.face.sent = smallRepo.face.sent ++
        [replyPacket (tlvPlatform false false) counterForP (statusOnly 100)] := by
  have asks : asksFor (tlvPlatform false false) counterForP (nameOf ["r", "pattern"]) =
    some (nameOf ["p"], some .counter) := by decide
  have absent : smallRepo.patterns[nameOf ["p"]]? = none := by decide
  obtain ⟨next, _, entry, _, answered, _⟩ :=
    (patternStart (tlvPlatform false false) asks absent).2 (rfl : FetchPattern.FetchReturns
      (tlvPlatform false false) {} .counter (nameOf ["p"]))
  obtain ⟨returned, sent⟩ := answered ⟨Or.inr (Or.inr rfl), rfl, rfl⟩
  exact ⟨next, returned, entry, sent⟩

end FailingExits

end FastRepo
