/-
The insert processes, whatever ids are drawn and whatever throws.

`generateProcessId` may draw the id of a process that is not over, and a callee may throw in any
handler. What the repo has about one process id is its `Slot`: the packets the record counts, and
those that were written. `moves_after` lists what an event can do to a slot.

* `atMostOnce_run`: in every run at most one packet is written for each accepted command.
* `slots_run`: when nothing throws, each process id is a small machine of its own, which the events
  about the id drive and no other event touches.
-/

import FastRepo.Repo.FailingExits

namespace FastRepo

open BaseHandle Exits FastRepoImpl InsertProtocol

namespace InsertSlots

variable (platform : Platform)

/-! ### Slots -/

/-- What the repo has about a process id: how many packets its record counts, if there is one, and
the packets that were written for it. -/
structure Slot where
  counted : Option UInt64 := none
  writes : List Data := []
deriving DecidableEq, Repr

/-- The slot of a process id in a state. -/
def slotOf (repo : FastRepoImpl) (processId : UInt64) : Slot :=
  ⟨repo.processes[processId]?.map fun process => process.response.insertNum,
    insertPuts repo processId⟩

/-- How many packets can still be written before the next command: one, when the record has counted
none. -/
def Slot.credit (slot : Slot) : Nat := if slot.counted = some 0 then 1 else 0

/-- What an event does to a slot. A packet that is written closes the slot or, when announcing it
throws, leaves a record that has counted it. -/
inductive Moves (occurrence : Occurrence) (processId : UInt64) : Slot → Slot → Prop where
  | still (slot : Slot) (other : acceptedId platform occurrence ≠ some processId) :
    Moves occurrence processId slot slot
  | opened (slot : Slot) (accepted : acceptedId platform occurrence = some processId) :
    Moves occurrence processId slot ⟨some 0, slot.writes⟩
  | wrote (writes : List Data) (data : Data) (counted : Option UInt64)
    (brings : callback processId occurrence = some (some data))
    (left : counted = none ∨ counted = some 1) :
    Moves occurrence processId ⟨some 0, writes⟩ ⟨counted, writes ++ [data]⟩
  | closed (slot : Slot) (brought : callback processId occurrence ≠ none) :
    Moves occurrence processId slot ⟨none, slot.writes⟩

/-! ### What the handlers do to a slot -/

section Handlers

theorem slotOf_congr {repo other : FastRepoImpl} (processes : repo.processes = other.processes)
    (puts : repo.puts = other.puts) (processId : UInt64) :
    slotOf repo processId = slotOf other processId := by
  unfold slotOf insertPuts
  rw [processes, puts]

theorem slotOf_updateResponse (repo : FastRepoImpl) (processId other : UInt64)
    (change : RepoCommandResponse → RepoCommandResponse) :
    slotOf (repo.updateResponse processId change) other =
      if other = processId then
        ⟨some (change (repo.processes[processId]?.getD {}).response).insertNum,
          insertPuts repo processId⟩
      else slotOf repo other := by
  unfold slotOf
  rw [processes_updateResponse]
  split
  · rename_i same
    rw [same]
    rfl
  · rfl

theorem slotOf_eraseProcess (repo : FastRepoImpl) (processId other : UInt64) :
    slotOf (repo.eraseProcess processId) other =
      if other = processId then ⟨none, insertPuts repo processId⟩ else slotOf repo other := by
  unfold slotOf
  rw [processes_eraseProcess]
  split
  · rename_i same
    rw [same]
    rfl
  · rfl

theorem insertPuts_written (repo : FastRepoImpl) (ok : Bool) (processId other : UInt64)
    (data : Data) : insertPuts (repo.written platform ok (.insert processId) data).1 other =
      insertPuts repo other ++ if other = processId then [data] else [] := by
  by_cases same : other = processId
  · simp [insertPuts, written, same]
  · simp [insertPuts, written, same, Ne.symm same]

/-- The slots of a state after a packet was written and counted. -/
theorem slotOf_counted (repo : FastRepoImpl) (ok : Bool) (processId other : UInt64) (data : Data) :
    slotOf ((repo.written platform ok (.insert processId) data).1.updateResponse processId
        fun response => { response with insertNum := 1 }) other =
      if other = processId then ⟨some 1, insertPuts repo processId ++ [data]⟩
      else slotOf repo other := by
  rw [slotOf_updateResponse]
  split
  · rw [insertPuts_written, if_pos rfl]
  · rename_i different
    unfold slotOf
    rw [insertPuts_written, if_neg different, List.append_nil]
    rfl

theorem slotOf_announced (repo : FastRepoImpl) (outcomes : Outcomes) (name : Name)
    (processId : UInt64) :
    slotOf (repo.announced outcomes name) processId = slotOf repo processId :=
  slotOf_congr (part_announced (fun repo => repo.processes) (fun _ _ _ _ => rfl) repo outcomes name)
    (part_announced (fun repo => repo.puts) (fun _ _ _ _ => rfl) repo outcomes name) processId

/-- The slots of a state after a packet was written, counted and announced, and the record erased. -/
theorem slotOf_finish (repo : FastRepoImpl) (outcomes : Outcomes) (processId : UInt64) (data : Data)
    (other : UInt64) : slotOf (finish platform repo outcomes data processId) other =
      if other = processId then ⟨none, insertPuts repo processId ++ [data]⟩
      else slotOf repo other := by
  have announcing : ∀ (counted : FastRepoImpl) (n : Name) (other : UInt64),
      slotOf (if counted.insertionSlots = 0 then counted else counted.announced outcomes n) other =
        slotOf counted other := by
    intro counted n other
    split
    · rfl
    · exact slotOf_announced counted outcomes n other
  have counts := fun other => (announcing ((repo.written platform outcomes.dbPut (.insert processId)
    data).1.updateResponse processId fun response => { response with insertNum := 1 })
      (repo.written platform outcomes.dbPut (.insert processId) data).2 other).trans
        (slotOf_counted platform repo outcomes.dbPut processId other data)
  unfold finish
  rw [slotOf_eraseProcess]
  split
  · have written := counts processId
    rw [if_pos rfl] at written
    exact congrArg (Slot.mk none) (congrArg Slot.writes written)
  · rename_i different
    exact (counts other).trans (if_neg different)

variable {platform} {outcomes : Outcomes} {repo : FastRepoImpl} {processId : UInt64}

/-- A command that cannot be extracted leaves the slots alone. -/
theorem slotOf_rejected {interest : Interest} {cmdPrefix : Name} {exn : Exn}
    (failed : extractParameter platform interest cmdPrefix = .error exn) (other : UInt64) :
    slotOf (final (WriteHandle.onValidated platform outcomes interest cmdPrefix processId) repo)
      other = slotOf repo other := by
  unfold WriteHandle.onValidated negativeReply
  rw [failed]
  by_cases returns : ReplyReturns outcomes
  · rw [final_of_ok (reply_of_returns platform interest _ repo returns)]
    rfl
  · obtain ⟨exn, threw⟩ := reply_of_not_returns platform interest (statusOnly 403) repo returns
    rw [final_of_error threw]

/-- A command whose parameter can be extracted opens its slot, whatever throws after that. -/
theorem slotOf_accepted {interest : Interest} {cmdPrefix : Name} {parameter : RepoCommandParameter}
    (extracted : extractParameter platform interest cmdPrefix = .ok parameter) (other : UInt64) :
    slotOf (final (WriteHandle.onValidated platform outcomes interest cmdPrefix processId) repo)
      other = if other = processId then ⟨some 0, insertPuts repo processId⟩
        else slotOf repo other := by
  have recorded := slotOf_updateResponse repo processId other
    (WriteHandle.initialResponse processId)
  have apply : WriteHandle.onValidated platform outcomes interest cmdPrefix processId repo = _ :=
    onValidated_apply platform repo extracted processId
  by_cases returns : ReplyReturns outcomes
  · rw [bind_apply, reply_of_returns platform _ _ _ returns] at apply
    simp only [bind_apply, modify_apply] at apply
    have fetching : slotOf (((repo.updateResponse processId
        (WriteHandle.initialResponse processId)).replied platform interest
          ⟨processId, 100, 0⟩).updateResponse processId
            fun response => { response with statusCode := 300 }) other =
        if other = processId then ⟨some 0, insertPuts repo processId⟩
        else slotOf repo other := by
      rw [slotOf_updateResponse]
      split
      · show Slot.mk (some ((repo.updateResponse processId
          (WriteHandle.initialResponse processId)).processes[processId]?.getD {}).response.insertNum)
            (insertPuts repo processId) = _
        rw [processes_updateResponse, if_pos rfl]
        rfl
      · rename_i different
        exact recorded.trans (if_neg different)
    cases asking : outcomes.throws .expressInterest with
    | none =>
      rw [call, asking] at apply
      rw [final_of_ok apply]
      exact fetching
    | some exn =>
      rw [call, asking] at apply
      rw [final_of_error apply]
      exact fetching
  · obtain ⟨exn, threw⟩ := reply_of_not_returns platform interest ⟨processId, 100, 0⟩
      (repo.updateResponse processId (WriteHandle.initialResponse processId)) returns
    rw [bind_apply, threw] at apply
    rw [final_of_error apply]
    exact recorded

/-- A packet for a process without a record leaves the slots alone. -/
theorem slotOf_late (absent : repo.processes[processId]? = none) (data : Data) (other : UInt64) :
    slotOf (final (WriteHandle.onDataValidated platform outcomes data processId) repo) other =
      slotOf repo other := by
  rw [final_of_ok (onDataValidated_late platform repo absent data)]

/-- A packet for a record that has counted one erases the record. -/
theorem slotOf_again {process : ProcessInfo} (record : repo.processes[processId]? = some process)
    (something : process.response.insertNum ≠ 0) (data : Data) (other : UInt64) :
    slotOf (final (WriteHandle.onDataValidated platform outcomes data processId) repo) other =
      slotOf (repo.eraseProcess processId) other := by
  have erased : WriteHandle.onDataValidated platform outcomes data processId repo =
      .ok () (repo.eraseProcess processId) := by
    unfold WriteHandle.onDataValidated
    rw [bind_apply, get_apply]
    simp only [record]
    rw [WriteHandle.insertFetched, if_neg something]
    rfl
  rw [final_of_ok erased]

/-- The first packet for a record is written or, when the storage throws, nothing happens. -/
theorem slotOf_first {process : ProcessInfo} (record : repo.processes[processId]? = some process)
    (nothing : process.response.insertNum = 0) (data : Data) :
    (∀ other, slotOf (final (WriteHandle.onDataValidated platform outcomes data processId) repo)
      other = slotOf repo other) ∨
    ∃ counted, (counted = none ∨ counted = some 1) ∧ ∀ other,
      slotOf (final (WriteHandle.onDataValidated platform outcomes data processId) repo) other =
        if other = processId then ⟨counted, insertPuts repo processId ++ [data]⟩
        else slotOf repo other := by
  have apply : WriteHandle.onDataValidated platform outcomes data processId repo = _ :=
    onDataValidated_apply platform repo record nothing data
  rw [bind_apply, put_apply] at apply
  cases writing : outcomes.throws .storagePut with
  | some exn =>
    simp only [writing] at apply
    rw [final_of_error apply]
    exact Or.inl fun _ => rfl
  | none =>
    simp only [writing, bind_apply, modify_apply] at apply
    have counts := slotOf_counted platform repo outcomes.dbPut processId
    refine Or.inr ?_
    by_cases signals : SignalReturns outcomes
        ((repo.written platform outcomes.dbPut (.insert processId) data).1.updateResponse
          processId fun response => { response with insertNum := 1 })
        (repo.written platform outcomes.dbPut (.insert processId) data).2
    · rw [dataInsertionSignal_of_returns signals] at apply
      rw [final_of_ok apply]
      exact ⟨none, Or.inl rfl, slotOf_finish platform repo outcomes processId data⟩
    · obtain ⟨exn, threw⟩ := dataInsertionSignal_of_not_returns signals
      rw [threw] at apply
      rw [final_of_error apply]
      refine ⟨some 1, Or.inr rfl, fun other => ?_⟩
      rw [slotOf_announced]
      exact counts other data

end Handlers

section Step

variable {platform} {repo : FastRepoImpl} {occurrence : Occurrence} {processId : UInt64}

theorem moves_erase {ended : UInt64} (notAccepted : acceptedId platform occurrence = none)
    (brought : ended = processId → callback processId occurrence ≠ none) :
    Moves platform occurrence processId (slotOf repo processId)
      (slotOf (repo.eraseProcess ended) processId) := by
  rw [slotOf_eraseProcess]
  split
  · rename_i same
    subst same
    exact .closed (slotOf repo processId) (brought rfl)
  · refine .still _ ?_
    rw [notAccepted]
    exact (Option.some_ne_none processId).symm

/-- One event: **it leaves a slot alone, opens it for an accepted command, writes one packet into an
open slot, or closes it**, whatever throws. -/
theorem moves_after (repo : FastRepoImpl) (occurrence : Occurrence) (processId : UInt64) :
    Moves platform occurrence processId (slotOf repo processId)
      (slotOf (repo.after platform occurrence) processId) := by
  cases insert : occurrence.event.isInsert with
  | false =>
    have same := after_of_not_insert (ignoresPatterns_insertSide platform) taken_insertSide repo
      insert
    simp only [insertSide, Prod.mk.injEq] at same
    obtain ⟨processes, _, puts⟩ := same
    have still : slotOf (repo.after platform occurrence) processId = slotOf repo processId := by
      unfold slotOf
      rw [processes, puts]
    rw [still]
    refine .still _ ?_
    rw [acceptedId_of_other platform insert]
    exact (Option.some_ne_none processId).symm
  | true =>
    obtain ⟨event, outcomes⟩ := occurrence
    cases event with
    | insertCommand cmdPrefix interest drawn =>
      show Moves platform _ processId _ (slotOf (final (WriteHandle.onValidated platform outcomes
        interest cmdPrefix drawn) repo) processId)
      cases extracted : extractParameter platform interest cmdPrefix with
      | error exn =>
        rw [slotOf_rejected extracted]
        exact .still _ (by simp [acceptedId, extracted])
      | ok parameter =>
        rw [slotOf_accepted extracted]
        split
        · rename_i same
          subst same
          exact .opened (slotOf repo processId) (by simp [acceptedId, extracted])
        · rename_i different
          exact .still _ (by simp [acceptedId, extracted, Ne.symm different])
    | insertData arrived data =>
      show Moves platform _ processId _ (slotOf (final (WriteHandle.onDataValidated platform
        outcomes data arrived) repo) processId)
      cases record : repo.processes[arrived]? with
      | none =>
        rw [slotOf_late record]
        exact .still _ (by simp [acceptedId])
      | some process =>
        by_cases nothing : process.response.insertNum = 0
        · rcases slotOf_first record nothing data with same | ⟨counted, left, changed⟩
          · rw [same]
            exact .still _ (by simp [acceptedId])
          · rw [changed]
            split
            · rename_i same
              subst same
              have waiting : slotOf repo processId = ⟨some 0, insertPuts repo processId⟩ := by
                simp [slotOf, record, nothing]
              rw [waiting]
              exact .wrote _ data counted (by simp [callback]) left
            · exact .still _ (by simp [acceptedId])
        · rw [slotOf_again record nothing, slotOf_eraseProcess]
          split
          · rename_i same
            subst same
            exact .closed (slotOf repo processId) (by simp [callback])
          · exact .still _ (by simp [acceptedId])
    | insertTimeout ended => exact moves_erase rfl fun same => by simp [callback, same]
    | insertNack ended => exact moves_erase rfl fun same => by simp [callback, same]
    | _ => cases insert

end Step

/-! ### At most once -/

section AtMostOnce

/-- The packet an event brings for a process id. -/
def brought (processId : UInt64) (occurrence : Occurrence) : Option Data :=
  (callback processId occurrence).join

/-- The writes for a process id: there are at most as many as accepted commands drew the id, with one
left for an open slot, and they are among the packets that were brought for it, in their order. -/
structure AtMostOnce (occurrences : List Occurrence) (processId : UInt64) (slot : Slot) : Prop where
  most : slot.writes.length + slot.credit ≤ (acceptedIds platform occurrences).count processId
  brings : slot.writes.Sublist (occurrences.filterMap (brought processId))

variable {platform} {occurrences : List Occurrence} {occurrence : Occurrence}
  {processId : UInt64} {slot next : Slot}

theorem atMostOnce_moves (before : AtMostOnce platform occurrences processId slot)
    (moves : Moves platform occurrence processId slot next) :
    AtMostOnce platform (occurrences ++ [occurrence]) processId next := by
  have counts : (acceptedIds platform (occurrences ++ [occurrence])).count processId =
      (acceptedIds platform occurrences).count processId +
        (acceptedId platform occurrence).toList.count processId := by
    rw [acceptedIds_concat, List.count_append]
  have grows : (occurrences.filterMap (brought processId)).Sublist
      ((occurrences ++ [occurrence]).filterMap (brought processId)) := by
    rw [List.filterMap_append]
    exact List.sublist_append_left _ _
  obtain ⟨most, brings⟩ := before
  have inside := brings.trans grows
  cases moves with
  | still _ other => exact ⟨by omega, inside⟩
  | opened _ accepted =>
    have one : (acceptedId platform occurrence).toList.count processId = 1 := by
      rw [accepted]
      simp
    refine ⟨?_, inside⟩
    show slot.writes.length + 1 ≤ _
    omega
  | wrote writes data counted written left =>
    refine ⟨?_, ?_⟩
    · have spent : Slot.credit ⟨counted, writes ++ [data]⟩ = 0 := by
        rcases left with rfl | rfl <;> rfl
      have had : Slot.credit ⟨some 0, writes⟩ = 1 := rfl
      rw [had] at most
      rw [spent, List.length_append, List.length_singleton]
      simp only at most
      omega
    · rw [List.filterMap_append]
      refine brings.append ?_
      simp [brought, written]
  | closed _ ended =>
    refine ⟨?_, inside⟩
    show slot.writes.length + 0 ≤ _
    omega

variable {config : Config} {db : Db} {last : FastRepoImpl}

theorem slotOf_started (config : Config) (db : Db) (processId : UInt64) :
    slotOf (started platform config db) processId = {} := by
  have fresh : ((started platform config db).processes, (started platform config db).puts) =
      (∅, []) :=
    part_started platform (fun repo => (repo.processes, repo.puts)) (fun _ _ => rfl) (fun _ => rfl)
      config db
  obtain ⟨processes, puts⟩ := Prod.mk.inj fresh
  unfold slotOf insertPuts
  rw [processes, puts, Std.TreeMap.getElem?_emptyc]
  rfl

/-- At most once: **in every run, whatever process ids are drawn and whatever throws, the packets
written for a process id are at most as many as the accepted commands that drew it, and they are
packets that were brought for it, each once and in their order**. -/
theorem atMostOnce_run
    (reached : (started platform config db).run platform occurrences = some last)
    (processId : UInt64) :
    AtMostOnce platform occurrences processId (slotOf last processId) := by
  refine Runs.run_history (I := fun occurrences repo =>
    AtMostOnce platform occurrences processId (slotOf repo processId)) ?_
    (fun occurrences occurrence repo next before took => ?_) reached
  · rw [slotOf_started]
    exact ⟨Nat.zero_le _, List.nil_sublist _⟩
  · obtain ⟨_, rfl⟩ := (step_eq_some platform).mp took
    exact atMostOnce_moves before (moves_after repo occurrence processId)

end AtMostOnce

/-! ### The machine of a process id -/

section Machine

/-- What can happen to a process id. -/
inductive SlotEvent where
  | command
  | packet (data : Data)
  | loss
deriving DecidableEq, Repr

/-- What an event of the run is to a process id. -/
def about (processId : UInt64) (occurrence : Occurrence) : Option SlotEvent :=
  if acceptedId platform occurrence = some processId then some .command
  else (callback processId occurrence).map fun packet =>
    packet.elim .loss .packet

/-- A command opens the slot, and the first packet or loss closes it. -/
def Slot.next (slot : Slot) : SlotEvent → Slot
  | .command => ⟨some 0, slot.writes⟩
  | .packet data => ⟨none, if slot.counted = none then slot.writes else slot.writes ++ [data]⟩
  | .loss => ⟨none, slot.writes⟩

variable {platform} {occurrences : List Occurrence} {occurrence : Occurrence}
  {repo last : FastRepoImpl} {config : Config} {db : Db}

/-- The slots of a run without exceptions count no packets. -/
theorem counted_foldl (events : List SlotEvent) :
    (events.foldl Slot.next {}).counted = none ∨ (events.foldl Slot.next {}).counted = some 0 := by
  induction events using List.reverseRecOn with
  | nil => exact Or.inl rfl
  | append_singleton events event _ =>
    rw [List.foldl_append, List.foldl_cons, List.foldl_nil]
    cases event with
    | command => exact Or.inr rfl
    | packet data => exact Or.inl rfl
    | loss => exact Or.inl rfl

theorem slotOf_effect (processId : UInt64)
    (effect : Effect platform repo (repo.after platform occurrence) occurrence) :
    slotOf (repo.after platform occurrence) processId =
      (about platform processId occurrence).toList.foldl Slot.next (slotOf repo processId) := by
  have puts := effect.puts processId
  have processes := effect.processes processId
  unfold slotOf about
  rw [processes, puts]
  by_cases accepted : acceptedId platform occurrence = some processId
  · rw [if_pos accepted, if_pos accepted, callback_of_accepted platform accepted]
    simp [Slot.next, packetsOf]
  · rw [if_neg accepted, if_neg accepted]
    cases brings : callback processId occurrence with
    | none => simp [packetsOf]
    | some packet =>
      cases packet with
      | none => simp [Slot.next, packetsOf]
      | some data =>
        cases record : repo.processes[processId]? <;> simp [Slot.next, packetsOf]

/-- Independence: **in a run without exceptions each process id is a machine of its own, which only
the commands that drew the id and the callbacks for it drive**, also when several commands draw the
same id. -/
theorem slots_run (quiet : ∀ occurrence ∈ occurrences, occurrence.outcomes.Quiet)
    (reached : (started platform config db).run platform occurrences = some last)
    (processId : UInt64) :
    slotOf last processId =
      (occurrences.filterMap (about platform processId)).foldl Slot.next {} := by
  refine Runs.run_history (I := fun occurrences repo =>
    (∀ occurrence ∈ occurrences, occurrence.outcomes.Quiet) → ∀ processId, slotOf repo processId =
      (occurrences.filterMap (about platform processId)).foldl Slot.next {})
    (fun _ processId => slotOf_started config db processId)
    (fun occurrences occurrence repo next before took quiet processId => ?_) reached quiet processId
  obtain ⟨_, rfl⟩ := (step_eq_some platform).mp took
  have slots := before fun other member => quiet other (List.mem_append_left _ member)
  have effect := effect_after platform repo (quiet occurrence (by simp))
    fun processId process record => ?_
  · rw [slotOf_effect processId effect, slots processId, List.filterMap_append, List.foldl_append,
      List.filterMap_cons, List.filterMap_nil]
    cases about platform processId occurrence <;> rfl
  · have counted := counted_foldl (occurrences.filterMap (about platform processId))
    rw [← slots processId] at counted
    simpa [slotOf, record] using counted

end Machine

/-! ### Two commands under one id -/

/-- The commands for `/a` and `/b` draw the same process id, and both packets arrive. -/
def sameId : List Occurrence :=
  [⟨.insertCommand (nameOf ["r", "insert"])
      (commandInterest (nameOf ["r", "insert"]) ⟨[ascii "a"]⟩) 1, {}⟩,
    ⟨.insertCommand (nameOf ["r", "insert"])
      (commandInterest (nameOf ["r", "insert"]) ⟨[ascii "b"]⟩) 1, {}⟩,
    ⟨.insertData 1 { name := nameOf ["a"] }, {}⟩,
    ⟨.insertData 1 { name := nameOf ["b"] }, {}⟩]

/-- The run in which announcing the first packet throws. -/
def sameIdThrowing : List Occurrence :=
  sameId.map fun occurrence =>
    { occurrence with outcomes.throws := fun callee =>
        if callee = .registerPrefix then some (.runtimeError "no connection") else none }

/-- Both commands were accepted, and one packet is written: the second one is lost. -/
theorem slots_sameId : ∃ last : FastRepoImpl,
    (started (tlvPlatform false false) { repoPrefixes := [nameOf ["r"]] } ∅).run
      (tlvPlatform false false) sameId = some last ∧
    slotOf last 1 = ⟨none, [{ name := nameOf ["a"] }]⟩ := by
  have ran : ((started (tlvPlatform false false) { repoPrefixes := [nameOf ["r"]] } ∅).run
    (tlvPlatform false false) sameId).isSome = true := by decide
  have quiet : ∀ occurrence ∈ sameId, occurrence.outcomes.Quiet := by
    intro occurrence member callee
    have same : occurrence.outcomes = {} := by
      simp only [sameId, List.mem_cons, List.not_mem_nil, or_false] at member
      rcases member with rfl | rfl | rfl | rfl <;> rfl
    rw [same]
  refine ⟨_, (Option.some_get ran).symm, (slots_run quiet (Option.some_get ran).symm 1).trans ?_⟩
  decide

/-- The first packet is written and its announcement throws, so its record stays; the second packet
is not written all the same. -/
theorem atMostOnce_sameId : ∃ last : FastRepoImpl,
    (started (tlvPlatform false false) { repoPrefixes := [nameOf ["r"]] } ∅).run
      (tlvPlatform false false) sameIdThrowing = some last ∧
    (slotOf last 1).writes = [{ name := nameOf ["a"] }] ∧
    (slotOf last 1).writes.length + (slotOf last 1).credit ≤ 2 := by
  have ran : ((started (tlvPlatform false false) { repoPrefixes := [nameOf ["r"]] } ∅).run
      (tlvPlatform false false) sameIdThrowing).map (fun repo => (slotOf repo 1).writes) =
    some [{ name := nameOf ["a"] }] := by decide
  obtain ⟨last, reached, written⟩ := Option.map_eq_some_iff.mp ran
  exact ⟨last, reached, written, (atMostOnce_run reached 1).most⟩

end InsertSlots

end FastRepo
