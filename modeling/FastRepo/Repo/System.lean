/-
The events of a running repo.

The repo runs in one event loop. An event is a command, a call from inside the process, or a
callback of the face, and it runs one handler to its end. A callback is enabled by what the repo has
asked of the face: a pending timer fires once, an outstanding Interest of a counter pattern is
answered or times out once, and the callbacks of an insert command may come any number of times once
its Interest was expressed. What the recorder of an ndnrtc pattern fetches is not the repo's to see:
any packet may come from it at any time. A handler that throws ends there, and the loop goes on.
-/

import FastRepo.Handles.PatternHandle
import FastRepo.Handles.ReadHandle
import FastRepo.Handles.WriteHandle
import FastRepo.Lib.Runs

namespace FastRepo

open Exits

/-- What can happen. A command comes with the prefix its filter was set for, and an insert command
with the process id that is generated for it. -/
inductive Event where
  | insertCommand (cmdPrefix : Name) (interest : Interest) (processId : UInt64)
  | insertData (processId : UInt64) (data : Data)
  | insertTimeout (processId : UInt64)
  | insertNack (processId : UInt64)
  | patternCommand (cmdPrefix : Name) (interest : Interest)
  | cancelCommand (cmdPrefix : Name) (interest : Interest)
  | removePattern (fetchPrefix : Name)
  | timer (timer : Timer)
  | counterData (interest : PatternInterest) (data : Data)
  | counterTimeout (interest : PatternInterest)
  | recorderData (instanceId : InstanceId) (data : Data)
  | readInterest (interest : Interest)
deriving DecidableEq, Repr

/-- An event, and what the libraries do while it is handled. -/
structure Occurrence where
  event : Event
  outcomes : Outcomes := {}

variable (platform : Platform)

/-- `ReadHandle::onInterest` as a handler: read, and put what was read to the face. -/
def ReadHandle.answer (outcomes : Outcomes) (interest : Interest) : Handler Unit := do
  let repo ← get
  match ReadHandle.onInterest platform.ndn repo.storage interest with
  | .error exn => throw exn
  | .ok none => pure ()
  | .ok (some data) => do
    call outcomes .putData
    modify fun repo => repo.send data

namespace FastRepoImpl

/-- The event can happen: for a callback, the repo has asked for it. Data answers an Interest when
the Interest name is a prefix of its name. The recorder of an ndnrtc pattern may still hand over a
packet when it was told to stop, so any ndnrtc pattern may: a run is not asked whether `extractInfo`
declined its prefix. -/
def Enabled (repo : FastRepoImpl) : Event → Prop
  | .insertData processId _ | .insertTimeout processId | .insertNack processId =>
    ∃ interest ∈ repo.face.insertInterests, interest.processId = processId
  | .timer timer => timer ∈ repo.face.timers
  | .counterData interest data =>
    interest ∈ repo.face.patternInterests ∧ interest.name <+: data.name
  | .counterTimeout interest => interest ∈ repo.face.patternInterests
  | .recorderData instanceId _ =>
    (repo.instances[instanceId]?.map FetchPattern.kind) = some .ndnrtc
  | _ => True

instance (repo : FastRepoImpl) (event : Event) : Decidable (repo.Enabled event) := by
  cases event <;> unfold Enabled <;> infer_instance

/-- The face hands out a timer or an Interest of a counter pattern: it is pending no more. -/
def taken (repo : FastRepoImpl) : Event → FastRepoImpl
  | .timer timer => { repo with face.timers := repo.face.timers.erase timer }
  | .counterData interest _ | .counterTimeout interest =>
    { repo with face.patternInterests := repo.face.patternInterests.erase interest }
  | _ => repo

/-- The handler of an event. A counter pattern does not ask to hear of timeouts. -/
def handler (outcomes : Outcomes) : Event → Handler Unit
  | .insertCommand cmdPrefix interest processId =>
    WriteHandle.onValidated platform outcomes interest cmdPrefix processId
  | .insertData processId data => WriteHandle.onDataValidated platform outcomes data processId
  | .insertTimeout processId | .insertNack processId => WriteHandle.onTimeout processId
  | .patternCommand cmdPrefix interest =>
    PatternHandle.onInterest platform outcomes interest cmdPrefix
  | .cancelCommand cmdPrefix interest =>
    PatternHandle.onCancelRequest platform outcomes interest cmdPrefix
  | .removePattern fetchPrefix => PatternHandle.removePattern outcomes fetchPrefix
  | .timer timer => CounterPattern.doFetch outcomes timer.pattern
  | .counterData interest data => CounterPattern.onData platform outcomes interest.pattern data
  | .counterTimeout _ => pure ()
  | .recorderData instanceId data => NdnrtcPattern.storeFun platform outcomes instanceId data
  | .readInterest interest => ReadHandle.answer platform outcomes interest

/-- The state an event leaves behind. -/
def after (repo : FastRepoImpl) (occurrence : Occurrence) : FastRepoImpl :=
  final (handler platform occurrence.outcomes occurrence.event) (repo.taken occurrence.event)

/-- One event of the loop. -/
def step (repo : FastRepoImpl) (occurrence : Occurrence) : Option FastRepoImpl :=
  if repo.Enabled occurrence.event then some (repo.after platform occurrence) else none

/-- A run of the loop. -/
def run (repo : FastRepoImpl) (occurrences : List Occurrence) : Option FastRepoImpl :=
  Runs.run (step platform) repo occurrences

theorem step_eq_some {repo next : FastRepoImpl} {occurrence : Occurrence} :
    repo.step platform occurrence = some next ↔
      repo.Enabled occurrence.event ∧ repo.after platform occurrence = next := by
  unfold step
  split <;> simp [*]

/-- What every event leaves true stays true in a run. -/
theorem run_invariant {I : FastRepoImpl → Prop} {start last : FastRepoImpl} (initial : I start)
    (keeps : ∀ repo occurrence, I repo → I (repo.after platform occurrence))
    {occurrences : List Occurrence} (reached : start.run platform occurrences = some last) :
    I last := by
  refine Runs.run_invariant initial (fun repo occurrence next holds step => ?_) reached
  obtain ⟨_, rfl⟩ := (step_eq_some platform).mp step
  exact keeps repo occurrence holds

end FastRepoImpl

end FastRepo
