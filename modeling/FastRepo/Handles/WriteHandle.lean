/-
The insert command.

A command creates the record of its process, is answered, and expresses the fetch Interest. The
first callback of the process ends it: data is written and announced, a timeout writes nothing.
-/

import FastRepo.Handles.BaseHandle

namespace FastRepo

namespace FastRepoImpl

/-- `m_processes[processId]`: the record of a process, made when there is none, with its response
changed. -/
def updateResponse (repo : FastRepoImpl) (processId : UInt64)
    (change : RepoCommandResponse → RepoCommandResponse) : FastRepoImpl :=
  { repo with
    processes := repo.processes.insert processId
      ⟨change (repo.processes[processId]?.getD {}).response⟩ }

/-- Add the Interest an insert command has expressed. -/
def addInsertInterest (repo : FastRepoImpl) (interest : InsertInterest) : FastRepoImpl :=
  { repo with face.insertInterests := repo.face.insertInterests ++ [interest] }

/-- `m_processes.erase(processId)`. -/
def eraseProcess (repo : FastRepoImpl) (processId : UInt64) : FastRepoImpl :=
  { repo with processes := repo.processes.erase processId }

end FastRepoImpl

namespace WriteHandle

variable (platform : Platform)

/-- The lifetime of the Interests that fetch data. -/
def fetchLifetimeMs : Nat := 4000

/-- The response of a process when it is made: status 100, and nothing inserted. -/
def initialResponse (processId : UInt64) (response : RepoCommandResponse) : RepoCommandResponse :=
  { response with statusCode := 100, processId := processId, insertNum := 0 }

/-- `WriteHandle::processSingleInsertCommand`, with the process id that was generated. -/
def processSingleInsertCommand (outcomes : Outcomes) (interest : Interest)
    (parameter : RepoCommandParameter) (processId : UInt64) : Handler Unit := do
  modify fun repo => repo.updateResponse processId (initialResponse processId)
  let repo ← get
  BaseHandle.reply platform outcomes interest (repo.processes[processId]?.getD {}).response
  modify fun repo => repo.updateResponse processId fun response => { response with statusCode := 300 }
  call outcomes .expressInterest
  modify fun repo =>
    repo.addInsertInterest ⟨parameter.name.map .generic, fetchLifetimeMs, processId⟩

/-- `WriteHandle::onValidated`, which `onInterest` calls at once. -/
def onValidated (outcomes : Outcomes) (interest : Interest) (cmdPrefix : Name)
    (processId : UInt64) : Handler Unit :=
  match BaseHandle.extractParameter platform interest cmdPrefix with
  | .error _ => BaseHandle.negativeReply platform outcomes interest 403
  | .ok parameter => processSingleInsertCommand platform outcomes interest parameter processId

/-- `WriteHandle::onTimeout`, which is the callback for a nack as well. -/
def onTimeout (processId : UInt64) : Handler Unit :=
  modify fun repo => repo.eraseProcess processId

/-- Write the fetched packet, count it and announce its name, unless the process has inserted a
packet. -/
def insertFetched (outcomes : Outcomes) (data : Data) (processId : UInt64)
    (process : ProcessInfo) : Handler Unit :=
  if process.response.insertNum = 0 then do
    let n ← FastRepoImpl.put platform outcomes (.insert processId) data
    modify fun repo =>
      repo.updateResponse processId fun response => { response with insertNum := 1 }
    FastRepoImpl.dataInsertionSignal outcomes n
  else pure ()

/-- `WriteHandle::onDataValidated`, which `onData` calls at once. -/
def onDataValidated (outcomes : Outcomes) (data : Data) (processId : UInt64) : Handler Unit := do
  let repo ← get
  match repo.processes[processId]? with
  | none => pure ()
  | some process => do
    insertFetched platform outcomes data processId process
    modify fun repo => repo.eraseProcess processId

end WriteHandle

end FastRepo
