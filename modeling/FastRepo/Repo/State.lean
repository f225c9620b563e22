/-
The state of a running repo, and what its handlers are made of.

`FastRepoImpl` gathers the members of the class of that name and of its handles. The face is what
the repo has asked of it: pending timers, outstanding Interests, packets sent and prefixes listened
for. A handler is a program over this state that can throw; what the libraries do on a call, throw
or succeed, is an input of the handler, `Outcomes`.
-/

import FastRepo.Handles.Command
import FastRepo.Lib.Exits

namespace FastRepo

/-! ### Fetch patterns -/

/-- An instance of a fetch pattern, numbered in the order of creation. -/
abbrev InstanceId := Nat

/-- `CounterPattern`. -/
structure CounterPattern where
  running : Bool := false
  counter : Nat := 0
  fetchPrefix : Name := []
deriving DecidableEq, Repr

/-- A pattern object. An ndnrtc pattern holds the stream prefix of its recorder, if it has one; the
object handler of a generalized object pattern is commented out and leaves no state. -/
inductive FetchPattern where
  | counter (state : CounterPattern)
  | ndnrtc (streamRecorder : Option Name)
  | gobj
deriving DecidableEq, Repr

/-! ### The face -/

/-- A pending `callLater` of a counter pattern: it runs `doFetch`. -/
structure Timer where
  delayMs : Nat
  pattern : InstanceId
deriving DecidableEq, Repr

/-- An outstanding Interest of a counter pattern. -/
structure PatternInterest where
  name : Name
  lifetimeMs : Nat
  pattern : InstanceId
deriving DecidableEq, Repr

/-- An Interest an insert command has expressed. -/
structure InsertInterest where
  name : Name
  lifetimeMs : Nat
  processId : UInt64
deriving DecidableEq, Repr

/-- The commands an interest filter is set for. -/
inductive Command where
  | insert
  | pattern
  | cancel
deriving DecidableEq, Repr

/-- What the repo has asked of its face. The Interests of insert commands are never taken off: their
callbacks may come late and more than once. A prefix is among the `dataListeners` once its
registration has returned. -/
structure Face where
  timers : List Timer := []
  patternInterests : List PatternInterest := []
  insertInterests : List InsertInterest := []
  sent : List Data := []
  dataListeners : List Name := []
  commandFilters : List (Name × Command) := []

/-! ### The repo -/

/-- `Config`. -/
structure Config where
  readOnly : Bool := false
  renamePrefix : Bytes := []
  dataPrefixes : List Name := []
  repoPrefixes : List Name := []
deriving DecidableEq, Repr

/-- `WriteHandle::ProcessInfo`. -/
structure ProcessInfo where
  response : RepoCommandResponse := {}
deriving DecidableEq, Repr

/-- Who calls `StorageEngine::put`: the write handle for a process, a counter pattern, or the
recorder of an ndnrtc pattern. -/
inductive Writer where
  | insert (processId : UInt64)
  | pattern (instanceId : InstanceId)
  | recorder (instanceId : InstanceId)
deriving DecidableEq, Repr

/-- The writer is a recorder, which is code of the ndnrtc library. -/
def Writer.isRecorder : Writer → Bool
  | .recorder _ => true
  | _ => false

/-- A call of `StorageEngine::put` and the name it returned. -/
structure Put where
  writer : Writer
  data : Data
  name : Name
deriving DecidableEq, Repr

/-- The functions that are registered as status report sources. -/
inductive ReportSource where
  | repo
  | patternHandle
deriving DecidableEq, Repr

/-- `StatusHandle`: the report sources, and the namespaces made by `listen`, the last of which is
`statusNamespace_`. -/
structure StatusHandle where
  statusReportSources : List ReportSource := []
  statusNamespaces : List Name := []
deriving DecidableEq, Repr

/-- `FastRepoImpl`. A pattern object stays in `instances` when it has been destroyed, as if it were
kept alive until its last callback: what a callback then finds in its place is its last state. In
the source that callback uses freed memory, so a run is an idealization from there on.
`insertionSlots` counts the slots connected to each of the two `onDataInsertion` signals; `puts` is
the history of the writes, and `passedToListen` that of the calls of `ReadHandle::listen`. -/
structure FastRepoImpl where
  config : Config
  storage : StorageEngine
  processes : Std.TreeMap UInt64 ProcessInfo := ∅
  patterns : Std.TreeMap Name InstanceId := ∅
  instances : List FetchPattern := []
  statusHandle : StatusHandle := {}
  insertionSlots : Nat := 0
  face : Face := {}
  puts : List Put := []
  passedToListen : List Name := []

/-! ### Handlers -/

/-- A handler: what it did before an exception stays done. -/
abbrev Handler := EStateM Exn FastRepoImpl

/-- The calls into the libraries that can throw. -/
inductive Callee where
  | sign
  | putData
  | expressInterest
  | callLater
  | registerPrefix
  | storagePut
  | startRecorder
  | stopRecorder
deriving DecidableEq, Repr

/-- What the libraries do during one event: whether a write of the database succeeds, and which
calls throw. -/
structure Outcomes where
  dbPut : Bool := true
  throws : Callee → Option Exn := fun _ => none

/-- No callee throws. -/
def Outcomes.Quiet (outcomes : Outcomes) : Prop := ∀ callee, outcomes.throws callee = none

/-- A call into a library. -/
def call (outcomes : Outcomes) (callee : Callee) : Handler Unit :=
  match outcomes.throws callee with
  | some exn => throw exn
  | none => pure ()

theorem call_quiet {outcomes : Outcomes} (quiet : outcomes.Quiet) (callee : Callee) :
    call outcomes callee = pure () := by
  rw [call, quiet callee]

theorem final_call (outcomes : Outcomes) (callee : Callee) (repo : FastRepoImpl) :
    Exits.final (call outcomes callee) repo = repo := by
  unfold call
  cases outcomes.throws callee <;> rfl

end FastRepo
