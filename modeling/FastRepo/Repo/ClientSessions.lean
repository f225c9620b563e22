/-
Sessions of the example clients with a running repo.

A client of `pattern-fetch.cpp` or of `pattern-cancel.cpp` sends one command, and ends with the first
packet that answers it or with a timeout. `World` is a repo and what its clients were told. The
network may lose, delay and repeat the commands, and a packet that was sent may reach a client late.

* `agreement`: what a client is told is what the repo did for its command.
* `stillHeld`: a fetch that was reported started is active until something ends it.
* `grants_le`: of the clients that fetch one prefix, at most one more is told that its fetch started
  than fetches of the prefix were ended.
-/

import FastRepo.Repo.ClientCommands
import FastRepo.Repo.Restarts
import FastRepo.Repo.SentPackets
import FastRepo.Repo.StatusIsolation
import Mathlib.Data.List.Perm.Subperm

namespace FastRepo

open BaseHandle FastRepoImpl PatternHandle PatternState SentPackets

/-- What the clients use of `ProtobufTlv`: the two encodings, and the decoding of a response. It
gives what the message holds after the call, and the exception that ended the call. -/
structure SessionCodec (platform : Platform) extends ClientCodec platform where
  decodeResponse : Bytes → RepoCommandResponse × Option Exn
  decodeResponse_encodeResponse : ∀ response,
    decodeResponse (platform.encodeResponse response) = (response, none)

namespace ClientSessions

variable {platform : Platform} (codec : SessionCodec platform)

/-! ### The clients -/

/-- Which of the two programs a client runs. -/
inductive Program where
  | fetch (patternName : Bytes)
  | cancel
deriving DecidableEq, Repr

/-- A client: its program, its arguments, and what `makeCommandInterest` appends to its command. -/
structure Client where
  program : Program
  repoCommandPrefix : Name
  fetchName : Name
  signature : Name
deriving DecidableEq, Repr

/-- The calls of the callbacks of a client: `onInsertStarted` or `onCancelSucceed`, and
`onFailed`. -/
inductive Callback where
  | succeeded
  | failed
deriving DecidableEq, Repr

namespace Client

/-- The command Interest the client expresses. -/
def interest (client : Client) : Interest :=
  match client.program with
  | .fetch patternName =>
    codec.fetchInterest client.repoCommandPrefix patternName client.fetchName client.signature
  | .cancel => codec.cancelInterest client.repoCommandPrefix client.fetchName client.signature

/-- The command, as it reaches the handle whose filter it is for. -/
def command (client : Client) : Event :=
  match client.program with
  | .fetch _ =>
    .patternCommand (filterPrefix client.repoCommandPrefix "pattern") (client.interest codec)
  | .cancel =>
    .cancelCommand (filterPrefix client.repoCommandPrefix "cancel") (client.interest codec)

/-- The status code that is a success. -/
def successCode (client : Client) : UInt64 :=
  match client.program with
  | .fetch _ => 100
  | .cancel => 101

end Client

theorem commandOf_command (client : Client) :
    commandOf (client.command codec) = some (client.interest codec) := by
  unfold Client.command
  cases client.program <;> rfl

/-- What the two `OnData` functions do with a reply. A decoding that throws is a failure, and the
status code is looked at all the same. -/
def requestOnData (successCode : UInt64) (data : Data) : List Callback :=
  let decoded := codec.decodeResponse data.content
  (match decoded.2 with
    | some _ => [.failed]
    | none => []) ++
    [if decoded.1.statusCode = successCode then .succeeded else .failed]

/-- `requestFetchOnData`. -/
def requestFetchOnData (data : Data) : List Callback := requestOnData codec 100 data

/-- `requestCancelOnData`. -/
def requestCancelOnData (data : Data) : List Callback := requestOnData codec 101 data

/-- `requestFetchOnTimeout` and `requestCancelOnTimeout`. -/
def requestOnTimeout : List Callback := [.failed]

/-- The function a client has for the reply to its Interest. -/
def Client.onData (client : Client) (data : Data) : List Callback :=
  match client.program with
  | .fetch _ => requestFetchOnData codec data
  | .cancel => requestCancelOnData codec data

theorem onData_reply (client : Client) (interest : Interest) (response : RepoCommandResponse) :
    client.onData codec (replyPacket platform interest response) =
      [if response.statusCode = client.successCode then .succeeded else .failed] := by
  have decoded : codec.decodeResponse (replyPacket platform interest response).content =
      (response, none) := codec.decodeResponse_encodeResponse response
  unfold Client.onData Client.successCode
  cases client.program <;>
    simp [requestFetchOnData, requestCancelOnData, requestOnData, decoded]

/-! ### A repo and its clients -/

/-- A repo, and the callbacks of the clients that have ended. -/
structure World where
  repo : FastRepoImpl
  told : List (Client × List Callback) := []

/-- What happens: an event of the repo, or a packet or the timeout for a client. -/
inductive Action where
  | repo (occurrence : Occurrence)
  | data (client : Client) (packet : Data)
  | timeout (client : Client)

/-- The events of the repo. -/
def Action.occurrence : Action → Option Occurrence
  | .repo occurrence => some occurrence
  | _ => none

variable (clients : List Client)

/-- The client has expressed its Interest, and has not ended. -/
def Waiting (world : World) (client : Client) : Prop :=
  client ∈ clients ∧ client ∉ world.told.map Prod.fst

instance (world : World) (client : Client) : Decidable (Waiting clients world client) :=
  inferInstanceAs (Decidable (_ ∧ _))

/-- The client ends with these callbacks. -/
def World.tell (world : World) (client : Client) (callbacks : List Callback) : World :=
  { world with told := world.told ++ [(client, callbacks)] }

/-- One action. A packet reaches a client when it was sent and the Interest of the client is a prefix
of its name. -/
def step (world : World) : Action → Option World
  | .repo occurrence =>
    (world.repo.step platform occurrence).map fun repo => { world with repo := repo }
  | .data client packet =>
    if Waiting clients world client ∧ packet ∈ world.repo.face.sent ∧
        (client.interest codec).name <+: packet.name then
      some (world.tell client (client.onData codec packet))
    else none
  | .timeout client =>
    if Waiting clients world client then some (world.tell client requestOnTimeout) else none

/-- A run of a repo with its clients. -/
def run (world : World) (actions : List Action) : Option World :=
  Runs.run (step codec clients) world actions

/-- A repo at the start of its event loop, and no client told anything. -/
def opened (platform : Platform) (config : Config) (db : Db) : World :=
  { repo := started platform config db }

/-- The packet the network brings with an event, which may be stored. -/
def brought : Event → Option Data
  | .insertData _ data | .counterData _ data | .recorderData _ data => some data
  | _ => none

/-- Nobody forges the command of a client, which its signature makes unique: what carries its Interest
name is the command itself, on its way to its handle, and no packet that is or comes to be stored
has a name under it. -/
structure Unforged (config : Config) (db : Db) (actions : List Action) : Prop where
  commands : ∀ client ∈ clients, ∀ occurrence ∈ actions.filterMap Action.occurrence,
    ∀ interest, commandOf occurrence.event = some interest →
      (client.interest codec).name <+: interest.name → occurrence.event = client.command codec
  packets : ∀ client ∈ clients, ∀ occurrence ∈ actions.filterMap Action.occurrence,
    ∀ data, brought occurrence.event = some data →
      ¬(client.interest codec).name <+: storedName platform.ndn config.renamePrefix data
  stored : ∀ client ∈ clients, ∀ n data, Restarts.contentsOf platform db n = some data →
    ¬(client.interest codec).name <+: data.name

/-! ### The repo of a world -/

section Repo

variable {codec clients} {world last : World} {actions : List Action}

/-- Seen on its repo, a run is a run of the repo. -/
theorem run_repo (reached : run codec clients world actions = some last) :
    world.repo.run platform (actions.filterMap Action.occurrence) = some last.repo := by
  refine Runs.run_project World.repo Action.occurrence (fun world action next took => ?_) reached
  cases action with
  | repo occurrence =>
    obtain ⟨repo, stepped, rfl⟩ := Option.map_eq_some_iff.mp took
    exact stepped
  | data client packet =>
    simp only [step, Option.ite_none_right_eq_some, Option.some.injEq] at took
    rw [← took.2]
    rfl
  | timeout client =>
    simp only [step, Option.ite_none_right_eq_some, Option.some.injEq] at took
    rw [← took.2]
    rfl

/-- What a client was told comes from a timeout or from a packet that was sent and answers its
Interest. -/
def Told (codec : SessionCodec platform) (clients : List Client) (world : World)
    (entry : Client × List Callback) : Prop :=
  entry.1 ∈ clients ∧ (entry.2 = requestOnTimeout ∨
    ∃ packet ∈ world.repo.face.sent, (entry.1.interest codec).name <+: packet.name ∧
      entry.2 = entry.1.onData codec packet)

/-- What was sent stays sent. -/
theorem told_mono {entry : Client × List Callback} (told : Told codec clients world entry)
    (grows : world.repo.face.sent ⊆ last.repo.face.sent) : Told codec clients last entry := by
  refine ⟨told.1, told.2.imp_right ?_⟩
  rintro ⟨packet, sent, answers, same⟩
  exact ⟨packet, grows sent, answers, same⟩

theorem told_step {action : Action} (told : ∀ entry ∈ world.told, Told codec clients world entry)
    (took : step codec clients world action = some last) :
    ∀ entry ∈ last.told, Told codec clients last entry := by
  intro entry member
  cases action with
  | repo occurrence =>
    obtain ⟨repo, stepped, rfl⟩ := Option.map_eq_some_iff.mp took
    obtain ⟨_, rfl⟩ := (step_eq_some platform).mp stepped
    refine told_mono (told entry member) ?_
    show world.repo.face.sent ⊆ (world.repo.after platform occurrence).face.sent
    rw [sent_after]
    exact List.subset_append_left _ _
  | data client packet =>
    simp only [step, Option.ite_none_right_eq_some, Option.some.injEq] at took
    obtain ⟨⟨waiting, sent, answers⟩, rfl⟩ := took
    rcases List.mem_append.mp member with earlier | new
    · exact told entry earlier
    · rw [List.mem_singleton.mp new]
      exact ⟨waiting.1, Or.inr ⟨packet, sent, answers, rfl⟩⟩
  | timeout client =>
    simp only [step, Option.ite_none_right_eq_some, Option.some.injEq] at took
    obtain ⟨waiting, rfl⟩ := took
    rcases List.mem_append.mp member with earlier | new
    · exact told entry earlier
    · rw [List.mem_singleton.mp new]
      exact ⟨waiting.1, Or.inl rfl⟩

variable {config : Config} {db : Db}

theorem told_run (reached : run codec clients (opened platform config db) actions = some last) :
    ∀ entry ∈ last.told, Told codec clients last entry :=
  Runs.run_invariant (I := fun world => ∀ entry ∈ world.told, Told codec clients world entry)
    (by simp [opened]) (fun _ _ _ told took => told_step told took) reached

end Repo

/-! ### Where the packet for a client comes from -/

section Origin

variable {config : Config} {db : Db} {occurrences : List Occurrence} {last : FastRepoImpl}

/-- A packet that is handed to the storage was brought by the event. -/
theorem brought_of_handedOver {repo : FastRepoImpl} {event : Event} {data : Data}
    (handed : StoreHistory.handedOver repo event = some data) : brought event = some data := by
  cases event with
  | insertData processId packet =>
    simp only [StoreHistory.handedOver] at handed
    split at handed
    · split at handed
      · exact handed
      · cases handed
    · cases handed
  | counterData interest packet =>
    simp only [StoreHistory.handedOver] at handed
    split at handed
    · exact handed
    · cases handed
  | recorderData instanceId packet => exact handed
  | _ => cases handed

/-- A packet in the store of a run was there at its start, or was brought by an event of the run and
is stored under its stored name. -/
theorem origin_stored (reached : (started platform config db).run platform occurrences = some last)
    {n : Name} {packet : Data} (found : last.storage.contents platform.ndn n = some packet) :
    Restarts.contentsOf platform db n = some packet ∨
      ∃ occurrence ∈ occurrences, ∃ data, brought occurrence.event = some data ∧
        packet.name = storedName platform.ndn config.renamePrefix data := by
  rw [StoreHistory.contents_of_run reached, Restarts.contents_started] at found
  rcases LastWrite.mem_of_writeAll Data.name found with ⟨written, _⟩ | before
  · obtain ⟨repo, occurrence, taken, stores⟩ := Runs.mem_outputs written
    obtain ⟨earlier, within, passed⟩ := taken
    have rename := (Prod.mk.inj (StatusIsolation.statusSide_run platform config db passed)).2
    unfold StoreHistory.storedBy at stores
    split at stores
    · obtain ⟨data, handed, rfl⟩ := List.mem_map.mp stores
      refine Or.inr ⟨occurrence, within.subset (by simp), data,
        brought_of_handedOver (Option.mem_toList.mp handed), ?_⟩
      rw [storedData_name, rename]
    · cases stores
  · exact Or.inl before

/-- A packet that answers a client is the reply to its command. -/
theorem origin_reply {codec : SessionCodec platform} {clients : List Client}
    {actions : List Action} {world : World}
    (unforged : Unforged codec clients config db actions)
    (reached : run codec clients (opened platform config db) actions = some world)
    {client : Client} (member : client ∈ clients) {packet : Data}
    (sent : packet ∈ world.repo.face.sent)
    (answers : (client.interest codec).name <+: packet.name) :
    ∃ repo occurrence response,
      Runs.Takes (FastRepoImpl.step platform) (started platform config db)
        (actions.filterMap Action.occurrence) repo occurrence ∧
      occurrence.event = client.command codec ∧
      packet = replyPacket platform (client.interest codec) response ∧
      Tells platform repo (repo.after platform occurrence) (client.command codec) response := by
  obtain ⟨repo, occurrence, taken, sends⟩ := sends_of_sent (run_repo reached) sent
  generalize same : occurrence.event = event at sends
  cases sends with
  | read stale read =>
    exfalso
    obtain ⟨earlier, within, passed⟩ := taken
    obtain ⟨n, stored⟩ := StorageEngine.exists_contents_of_read platform.ndn read
    rcases origin_stored passed stored with before | ⟨other, handled, data, brings, named⟩
    · exact unforged.stored client member _ packet before answers
    · rw [named] at answers
      exact unforged.packets client member other
        (within.subset (List.mem_append_left _ handled)) data brings answers
  | reply command tells =>
    rename_i interest response
    obtain ⟨earlier, within, _⟩ := id taken
    have own := unforged.commands client member occurrence (within.subset (by simp)) interest
      (by rw [same]; exact command) answers
    rw [same] at own
    subst own
    rw [commandOf_command, Option.some.injEq] at command
    subst command
    exact ⟨repo, occurrence, response, taken, same, rfl, tells⟩

end Origin

/-! ### Agreement -/

variable (platform) in
/-- What a success of the client means for the repo: a fetch had no entry and has one now, with its
object as `fetch` leaves it, and a cancel had an entry and has none now, with its object stopped. -/
def Granted (client : Client) (repo next : FastRepoImpl) : Prop :=
  match client.program with
  | .fetch patternName => ∃ kind,
    PatternFactory.create platform [.generic patternName] = some kind ∧
      repo.patterns[fetchPrefixOf client.fetchName]? = none ∧
      next.patterns =
        repo.patterns.insert (fetchPrefixOf client.fetchName) repo.instances.length ∧
      next.instances[repo.instances.length]? =
        some (FetchPattern.fetching platform kind (fetchPrefixOf client.fetchName))
  | .cancel => ∃ instanceId,
    repo.patterns[fetchPrefixOf client.fetchName]? = some instanceId ∧
      next.patterns = repo.patterns.erase (fetchPrefixOf client.fetchName) ∧
      next.instances[instanceId]? = repo.instances[instanceId]?.map FetchPattern.cancelled

section Agreement

variable {codec} {clients} {client : Client} {repo next : FastRepoImpl}

/-- A refusal has no success code. -/
theorem not_success {code : UInt64} (negative : code ∈ [402, 403, 404]) :
    code ≠ client.successCode := by
  have codes : client.successCode ∈ [100, 101] := by
    unfold Client.successCode
    cases client.program <;> simp
  rintro rfl
  simp only [List.mem_cons, List.not_mem_nil, or_false] at negative codes
  rcases codes with same | same <;> rw [same] at negative <;> revert negative <;> decide

/-- A response with the success code is a grant. -/
theorem granted_of_tells {response : RepoCommandResponse}
    (tells : Tells platform repo next (client.command codec) response)
    (success : response.statusCode = client.successCode) :
    Granted platform client repo next := by
  unfold Granted
  unfold Client.command at tells
  cases program : client.program with
  | fetch patternName =>
    have interest : client.interest codec = codec.fetchInterest client.repoCommandPrefix
        patternName client.fetchName client.signature := by rw [Client.interest, program]
    simp only [program] at tells ⊢
    cases tells with
    | started asks absent entry object =>
      rw [interest, asksFor_fetchInterest] at asks
      simp only [Option.some.injEq, Prod.mk.injEq] at asks
      obtain ⟨rfl, known⟩ := asks
      exact ⟨_, known, absent, entry, object⟩
    | refused negative => exact absurd success (not_success negative)
  | cancel =>
    have interest : client.interest codec = codec.cancelInterest client.repoCommandPrefix
        client.fetchName client.signature := by rw [Client.interest, program]
    simp only [program] at tells ⊢
    cases tells with
    | ended asks found erased object =>
      rw [interest, cancelsFor_cancelInterest] at asks
      cases asks
      exact ⟨_, found, erased, object⟩
    | refused negative => exact absurd success (not_success negative)

variable {config : Config} {db : Db} {actions : List Action} {world : World}

/-- A client is told of a failure, or of what the repo replied to its command. -/
theorem reply_of_told (unforged : Unforged codec clients config db actions)
    (reached : run codec clients (opened platform config db) actions = some world)
    {callbacks : List Callback} (told : (client, callbacks) ∈ world.told) :
    callbacks = [.failed] ∨ ∃ repo occurrence response,
      Runs.Takes (FastRepoImpl.step platform) (started platform config db)
        (actions.filterMap Action.occurrence) repo occurrence ∧
      occurrence.event = client.command codec ∧
      Tells platform repo (repo.after platform occurrence) (client.command codec) response ∧
      callbacks = [if response.statusCode = client.successCode then .succeeded else .failed] := by
  obtain ⟨member, timeout | ⟨packet, sent, answers, same⟩⟩ := told_run reached _ told
  · exact Or.inl timeout
  · obtain ⟨repo, occurrence, response, taken, event, rfl, tells⟩ :=
      origin_reply unforged reached member sent answers
    refine Or.inr ⟨repo, occurrence, response, taken, event, tells, ?_⟩
    exact same.trans (onData_reply codec client _ response)

/-- Agreement: **every client is told one result, and one that is told of a success had its command
granted by the repo at a step of the run**, however the network loses, delays and repeats commands
and replies, and whatever the libraries of the repo do. -/
theorem agreement (unforged : Unforged codec clients config db actions)
    (reached : run codec clients (opened platform config db) actions = some world)
    {callbacks : List Callback} (told : (client, callbacks) ∈ world.told) :
    callbacks = [.failed] ∨ callbacks = [.succeeded] ∧ ∃ repo occurrence,
      Runs.Takes (FastRepoImpl.step platform) (started platform config db)
        (actions.filterMap Action.occurrence) repo occurrence ∧
      occurrence.event = client.command codec ∧
      Granted platform client repo (repo.after platform occurrence) := by
  rcases reply_of_told unforged reached told with
    failed | ⟨repo, occurrence, response, taken, event, tells, same⟩
  · exact Or.inl failed
  · by_cases success : response.statusCode = client.successCode
    · rw [same, if_pos success]
      exact Or.inr ⟨rfl, repo, occurrence, taken, event, granted_of_tells tells success⟩
    · rw [same, if_neg success]
      exact Or.inl rfl

/-- A client that was told of a success had its command granted. -/
theorem granted_of_told (unforged : Unforged codec clients config db actions)
    (reached : run codec clients (opened platform config db) actions = some world)
    (told : (client, [Callback.succeeded]) ∈ world.told) : ∃ repo occurrence,
      Runs.Takes (FastRepoImpl.step platform) (started platform config db)
        (actions.filterMap Action.occurrence) repo occurrence ∧
      occurrence.event = client.command codec ∧
      Granted platform client repo (repo.after platform occurrence) := by
  rcases reply_of_told unforged reached told with
    failed | ⟨repo, occurrence, response, taken, event, tells, same⟩
  · cases failed
  · by_cases success : response.statusCode = client.successCode
    · exact ⟨repo, occurrence, taken, event, granted_of_tells tells success⟩
    · rw [if_neg success] at same
      cases (List.cons.inj same).1

end Agreement

/-! ### What a grant is worth later -/

section Later

/-- An event that does not ask to end an entry leaves it there. -/
theorem entry_kept {repo : FastRepoImpl} {occurrence : Occurrence} {fetchPrefix : Name}
    (enabled : repo.Enabled occurrence.event) (here : repo.patterns[fetchPrefix]? ≠ none)
    (other : cancelTarget platform occurrence.event ≠ some fetchPrefix) :
    (repo.after platform occurrence).patterns[fetchPrefix]? ≠ none := by
  cases target : cancelTarget platform occurrence.event with
  | none =>
    cases growth_of_no_target platform enabled target with
    | kept kept => rwa [kept.patterns]
    | started kind newPrefix started =>
      rw [started.patterns, Lookup.getElem?_insert]
      split
      · exact Option.some_ne_none _
      · exact here
  | some ended =>
    have different : fetchPrefix ≠ ended := fun same => other (by rw [target, same])
    cases found : repo.patterns[ended]? with
    | none =>
      have same := patternSide_of_sendsAtMost (sendsAtMost_of_target_absent platform target found)
      rw [(kept_of_same same).patterns]
      exact here
    | some instanceId =>
      rcases after_of_target_found platform target found with gone | ⟨same, _⟩
      · rw [gone.patterns, Lookup.getElem?_erase, if_neg different]
        exact here
      · rw [same]
        exact here

variable {codec} {clients} {client : Client} {config : Config} {db : Db} {actions : List Action}
  {world : World}

/-- A fetch that a client was told has started: **its entry was made at a step of the run, and it is
there still unless a later step asked to end it**. -/
theorem stillHeld (unforged : Unforged codec clients config db actions)
    (reached : run codec clients (opened platform config db) actions = some world)
    {patternName : Bytes} (fetches : client.program = .fetch patternName)
    (told : (client, [Callback.succeeded]) ∈ world.told) :
    ∃ before occurrence rest made,
      actions.filterMap Action.occurrence = before ++ [occurrence] ++ rest ∧
      occurrence.event = client.command codec ∧
      (started platform config db).run platform (before ++ [occurrence]) = some made ∧
      made.patterns[fetchPrefixOf client.fetchName]? ≠ none ∧
      (world.repo.patterns[fetchPrefixOf client.fetchName]? ≠ none ∨
        ∃ repo later, Runs.Takes (FastRepoImpl.step platform) made rest repo later ∧
          cancelTarget platform later.event = some (fetchPrefixOf client.fetchName)) := by
  obtain ⟨repo, occurrence, taken, event, granted⟩ := granted_of_told unforged reached told
  obtain ⟨made, before, rest, split, passed, stepped, onwards⟩ := taken.rest (run_repo reached)
  simp only [Granted, fetches] at granted
  obtain ⟨kind, _, _, entry, _⟩ := granted
  rw [((step_eq_some platform).mp stepped).2] at entry
  have here : made.patterns[fetchPrefixOf client.fetchName]? ≠ none := by
    rw [entry, Lookup.getElem?_insert, if_pos rfl]
    exact Option.some_ne_none _
  refine ⟨before, occurrence, rest, made, split, event, passed, here, ?_⟩
  refine Runs.holds_or_broken
    (P := fun repo => repo.patterns[fetchPrefixOf client.fetchName]? ≠ none)
    (B := fun _ later => cancelTarget platform later.event = some (fetchPrefixOf client.fetchName))
    here (fun repo later next held took other => ?_) onwards
  obtain ⟨enabled, rfl⟩ := (step_eq_some platform).mp took
  exact entry_kept enabled held other

/-- A fetch prefix has an entry. -/
def isActive (fetchPrefix : Name) (repo : FastRepoImpl) : Bool :=
  repo.patterns[fetchPrefix]?.isSome

/-- The events of the repo that ended the entry of a fetch prefix. -/
def endings (platform : Platform) (config : Config) (db : Db) (actions : List Action)
    (fetchPrefix : Name) : List Occurrence :=
  Runs.falls (FastRepoImpl.step platform) (isActive fetchPrefix) (started platform config db)
    (actions.filterMap Action.occurrence)

/-- One holder: **of the clients that ask to fetch one prefix, with whatever patterns and under
whatever command prefixes, at most one more is told that its fetch has started than entries of the
prefix were ended**. -/
theorem grants_le (unforged : Unforged codec clients config db actions)
    (reached : run codec clients (opened platform config db) actions = some world)
    (holders : List Client) (distinct : (holders.map fun client => client.interest codec).Nodup)
    (fetchPrefix : Name)
    (holds : ∀ client ∈ holders, (∃ patternName, client.program = .fetch patternName) ∧
      fetchPrefixOf client.fetchName = fetchPrefix ∧
      (client, [Callback.succeeded]) ∈ world.told) :
    holders.length ≤ (endings platform config db actions fetchPrefix).length + 1 := by
  have ran : (started platform config db).run platform (actions.filterMap Action.occurrence) =
    some world.repo := run_repo reached
  have counts := Runs.length_rises (isActive fetchPrefix) ran
  generalize made : Runs.rises _ (isActive fetchPrefix) _ _ = beginnings at counts
  have fresh : (holders.map fun client => client.command codec).Nodup := by
    refine List.Nodup.of_map commandOf ?_
    have same : (holders.map fun client => client.command codec).map commandOf =
        (holders.map fun client => client.interest codec).map some := by
      simp [Function.comp_def, commandOf_command]
    rw [same]
    exact distinct.map fun _ _ => Option.some.inj
  have among : (holders.map fun client => client.command codec) ⊆
      beginnings.map Occurrence.event := by
    intro event member
    obtain ⟨client, held, rfl⟩ := List.mem_map.mp member
    obtain ⟨⟨patternName, fetches⟩, rfl, told⟩ := holds client held
    obtain ⟨repo, occurrence, taken, event, granted⟩ := granted_of_told unforged reached told
    obtain ⟨next, stepped, _⟩ := taken.next ran
    simp only [Granted, fetches] at granted
    obtain ⟨kind, _, absent, entry, _⟩ := granted
    rw [((step_eq_some platform).mp stepped).2] at entry
    rw [← event, ← made]
    refine List.mem_map_of_mem (Runs.mem_rises taken ?_ stepped ?_)
    · rw [isActive, absent]
      rfl
    · rw [isActive, entry, Lookup.getElem?_insert, if_pos rfl]
      rfl
  have fits := (fresh.subperm among).length_le
  rw [List.length_map, List.length_map] at fits
  have last : (isActive fetchPrefix world.repo).toNat ≤ 1 := Bool.toNat_le _
  have falls : (endings platform config db actions fetchPrefix).length =
    (Runs.falls (FastRepoImpl.step platform) (isActive fetchPrefix) (started platform config db)
      (actions.filterMap Action.occurrence)).length := rfl
  omega

end Later

/-! ### Two clients that fetch one prefix -/

/-- The clients with the codec of `tlvPlatform`. -/
def tlvSessionCodec (haveLibNdnrtc haveLibCnlCpp : Bool) :
    SessionCodec (tlvPlatform haveLibNdnrtc haveLibCnlCpp) where
  toClientCodec := tlvCodec haveLibNdnrtc haveLibCnlCpp
  decodeResponse := CommandTlv.decodeResponse
  decodeResponse_encodeResponse := CommandTlv.decodeResponse_encodeResponse

/-- A client that asks to fetch `/p` with a counter pattern. -/
def fetcher (signature : String) : Client :=
  ⟨.fetch (ascii "counter"), nameOf ["r"], nameOf ["p"], nameOf [signature]⟩

/-- The packet that tells the client of its success. -/
def startedReply (client : Client) : Data :=
  replyPacket (tlvPlatform false false) (client.interest (tlvSessionCodec false false))
    (statusOnly 100)

/-- The first fetch is started and ended, then the second one is started; both clients are told. -/
def twoFetches : List Action :=
  [.repo ⟨(fetcher "s").command (tlvSessionCodec false false), {}⟩,
    .repo ⟨.removePattern (nameOf ["p"]), {}⟩,
    .repo ⟨(fetcher "t").command (tlvSessionCodec false false), {}⟩,
    .data (fetcher "s") (startedReply (fetcher "s")),
    .data (fetcher "t") (startedReply (fetcher "t"))]

/-- The config of the run. -/
def oneFilter : Config := { repoPrefixes := [nameOf ["r"]] }

theorem unforged_twoFetches :
    Unforged (tlvSessionCodec false false) [fetcher "s", fetcher "t"] oneFilter ∅ twoFetches := by
  refine ⟨?_, ?_, ?_⟩
  · intro client member occurrence handled interest command answers
    simp only [twoFetches, List.filterMap_cons, Action.occurrence, List.filterMap_nil,
      List.mem_cons, List.not_mem_nil, or_false] at member handled
    rcases member with rfl | rfl <;> rcases handled with rfl | rfl | rfl <;>
      first
        | rfl
        | (cases command; done)
        | (rw [commandOf_command, Option.some.injEq] at command
           subst command
           revert answers
           decide)
  · intro client _ occurrence handled data brings
    simp only [twoFetches, List.filterMap_cons, Action.occurrence, List.filterMap_nil,
      List.mem_cons, List.not_mem_nil, or_false] at handled
    rcases handled with rfl | rfl | rfl <;> cases brings
  · intro client _ n data found
    rw [Restarts.contentsOf_empty] at found
    cases found

/-- The world the run ends in. -/
def bothTold : World :=
  (run (tlvSessionCodec false false) [fetcher "s", fetcher "t"]
    (opened (tlvPlatform false false) oneFilter ∅) twoFetches).getD
      (opened (tlvPlatform false false) oneFilter ∅)

theorem run_twoFetches :
    run (tlvSessionCodec false false) [fetcher "s", fetcher "t"]
      (opened (tlvPlatform false false) oneFilter ∅) twoFetches = some bothTold := by
  have ran : (run (tlvSessionCodec false false) [fetcher "s", fetcher "t"]
    (opened (tlvPlatform false false) oneFilter ∅) twoFetches).isSome = true := by decide
  obtain ⟨world, same⟩ := Option.isSome_iff_exists.mp ran
  rw [bothTold, same, Option.getD_some]

theorem told_twoFetches :
    bothTold.told = [(fetcher "s", [.succeeded]), (fetcher "t", [.succeeded])] := by decide

/-- The success that the second client was told was granted by the repo. -/
theorem agreement_twoFetches : ∃ repo occurrence,
    Runs.Takes (FastRepoImpl.step (tlvPlatform false false))
      (started (tlvPlatform false false) oneFilter ∅)
      (twoFetches.filterMap Action.occurrence) repo occurrence ∧
    occurrence.event = (fetcher "t").command (tlvSessionCodec false false) ∧
    Granted (tlvPlatform false false) (fetcher "t") repo
      (repo.after (tlvPlatform false false) occurrence) := by
  rcases agreement unforged_twoFetches run_twoFetches
    (told_twoFetches ▸ (by simp) : (fetcher "t", [Callback.succeeded]) ∈ bothTold.told) with
    failed | ⟨_, granted⟩
  · cases failed
  · exact granted

/-- The fetch of the first client was ended after it had started. -/
theorem stillHeld_twoFetches : ∃ before occurrence rest made,
    twoFetches.filterMap Action.occurrence = before ++ [occurrence] ++ rest ∧
      occurrence.event = (fetcher "s").command (tlvSessionCodec false false) ∧
      (started (tlvPlatform false false) oneFilter ∅).run (tlvPlatform false false)
        (before ++ [occurrence]) = some made ∧
      made.patterns[nameOf ["p"]]? ≠ none := by
  obtain ⟨before, occurrence, rest, made, split, event, passed, here, _⟩ :=
    stillHeld unforged_twoFetches run_twoFetches
      (rfl : (fetcher "s").program = .fetch (ascii "counter"))
      (told_twoFetches ▸ (by simp) : (fetcher "s", [Callback.succeeded]) ∈ bothTold.told)
  exact ⟨before, occurrence, rest, made, split, event, passed, here⟩

/-- Both clients were told of a success, so the entry was ended in between. -/
theorem grants_twoFetches :
    1 ≤ (endings (tlvPlatform false false) oneFilter ∅ twoFetches (nameOf ["p"])).length := by
  have bound := grants_le unforged_twoFetches run_twoFetches
    [fetcher "s", fetcher "t"] (by decide) (nameOf ["p"]) (by
      intro client member
      simp only [List.mem_cons, List.not_mem_nil, or_false] at member
      rcases member with rfl | rfl
      · exact ⟨⟨_, rfl⟩, rfl, told_twoFetches ▸ (by simp)⟩
      · exact ⟨⟨_, rfl⟩, rfl, told_twoFetches ▸ (by simp)⟩)
  exact Nat.le_of_succ_le_succ bound

end ClientSessions

end FastRepo
