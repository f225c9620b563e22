/-
What the command handles share: replying, and writing to the storage.

For each program there is what it does when no callee throws, and what it may leave behind when one
does. `stored_of_ok` names what a successful write leaves.
-/

import FastRepo.Repo.Listening
import FastRepo.Storage.PacketStore

namespace FastRepo

open Exits

variable (platform : Platform)

/-! ### Replies -/

namespace FastRepoImpl

/-- The repo after `Face::putData`. -/
def send (repo : FastRepoImpl) (packet : Data) : FastRepoImpl :=
  { repo with face.sent := repo.face.sent ++ [packet] }

/-- The repo after a reply. -/
def replied (repo : FastRepoImpl) (interest : Interest) (response : RepoCommandResponse) :
    FastRepoImpl :=
  repo.send (BaseHandle.replyPacket platform interest response)

end FastRepoImpl

namespace BaseHandle

/-- `BaseHandle::reply`: sign the packet and send it. -/
def reply (outcomes : Outcomes) (interest : Interest) (response : RepoCommandResponse) :
    Handler Unit := do
  call outcomes .sign
  call outcomes .putData
  modify fun repo => repo.send (replyPacket platform interest response)

/-- `BaseHandle::negativeReply`. -/
def negativeReply (outcomes : Outcomes) (interest : Interest) (statusCode : UInt64) :
    Handler Unit :=
  reply platform outcomes interest (statusOnly statusCode)

/-- Neither the signing nor the sending throws. -/
def ReplyReturns (outcomes : Outcomes) : Prop :=
  outcomes.throws .sign = none ∧ outcomes.throws .putData = none

instance (outcomes : Outcomes) : Decidable (ReplyReturns outcomes) :=
  inferInstanceAs (Decidable (_ ∧ _))

section Reply

variable {outcomes : Outcomes} (interest : Interest) (response : RepoCommandResponse)
  (repo : FastRepoImpl)

theorem reply_of_returns (returns : ReplyReturns outcomes) :
    reply platform outcomes interest response repo =
      .ok () (repo.replied platform interest response) := by
  unfold reply call
  rw [returns.1, returns.2]
  rfl

/-- A reply that throws sends nothing. -/
theorem reply_of_not_returns (throws : ¬ReplyReturns outcomes) :
    ∃ exn, reply platform outcomes interest response repo = .error exn repo := by
  unfold reply call
  cases signing : outcomes.throws .sign with
  | some exn => exact ⟨exn, rfl⟩
  | none =>
    cases sending : outcomes.throws .putData with
    | some exn => exact ⟨exn, rfl⟩
    | none => exact absurd ⟨signing, sending⟩ throws

variable (outcomes) in
/-- A reply sends one packet or, when it throws, nothing. -/
theorem final_reply :
    final (reply platform outcomes interest response) repo = repo ∨
      final (reply platform outcomes interest response) repo =
        repo.replied platform interest response := by
  by_cases returns : ReplyReturns outcomes
  · exact Or.inr (final_of_ok (reply_of_returns platform interest response repo returns))
  · obtain ⟨exn, threw⟩ := reply_of_not_returns platform interest response repo returns
    exact Or.inl (final_of_error threw)

end Reply

theorem reply_quiet {outcomes : Outcomes} (quiet : outcomes.Quiet) (interest : Interest)
    (response : RepoCommandResponse) (repo : FastRepoImpl) :
    reply platform outcomes interest response repo =
      .ok () (repo.replied platform interest response) :=
  reply_of_returns platform interest response repo ⟨quiet .sign, quiet .putData⟩

end BaseHandle

/-! ### Writes -/

namespace FastRepoImpl

/-- The repo after a call of `StorageEngine::put`, and the name the call returned. -/
def written (repo : FastRepoImpl) (ok : Bool) (writer : Writer) (data : Data) :
    FastRepoImpl × Name :=
  let result := repo.storage.put platform.ndn data ok
  ({ repo with
    storage := result.1
    puts := repo.puts ++ [⟨writer, data, result.2⟩] }, result.2)

/-- A call of `StorageEngine::put` by a handle. -/
def put (outcomes : Outcomes) (writer : Writer) (data : Data) : Handler Name := do
  call outcomes .storagePut
  let repo ← get
  set (repo.written platform outcomes.dbPut writer data).1
  pure (repo.written platform outcomes.dbPut writer data).2

theorem put_apply (outcomes : Outcomes) (writer : Writer) (data : Data) (repo : FastRepoImpl) :
    put platform outcomes writer data repo =
      match outcomes.throws .storagePut with
      | some exn => .error exn repo
      | none => .ok (repo.written platform outcomes.dbPut writer data).2
          (repo.written platform outcomes.dbPut writer data).1 := by
  unfold put call
  cases outcomes.throws .storagePut <;> rfl

theorem put_quiet {outcomes : Outcomes} (quiet : outcomes.Quiet) (writer : Writer) (data : Data)
    (repo : FastRepoImpl) :
    put platform outcomes writer data repo =
      .ok (repo.written platform outcomes.dbPut writer data).2
        (repo.written platform outcomes.dbPut writer data).1 := by
  rw [put_apply, quiet .storagePut]

/-- A write happens and returns the stored name, or throws and does nothing. -/
theorem put_cases (outcomes : Outcomes) (writer : Writer) (data : Data) (repo : FastRepoImpl) :
    (∃ exn, put platform outcomes writer data repo = .error exn repo) ∨
      put platform outcomes writer data repo =
        .ok (repo.written platform outcomes.dbPut writer data).2
          (repo.written platform outcomes.dbPut writer data).1 := by
  rw [put_apply]
  cases outcomes.throws .storagePut with
  | some exn => exact Or.inl ⟨exn, rfl⟩
  | none => exact Or.inr rfl

/-- A successful write returns the name the packet is stored under. -/
theorem written_name (repo : FastRepoImpl) (writer : Writer) (data : Data) :
    (repo.written platform true writer data).2 =
      storedName platform.ndn repo.storage.pimpl.renamePrefix data :=
  StorageEngine.put_name platform.ndn repo.storage data

/-- A write leaves the rename prefix of the engine alone. -/
theorem written_renamePrefix (repo : FastRepoImpl) (ok : Bool) (writer : Writer) (data : Data) :
    (repo.written platform ok writer data).1.storage.pimpl.renamePrefix =
      repo.storage.pimpl.renamePrefix := by
  unfold written StorageEngine.put StorageEngineImpl.put
  split <;> split <;> rfl

end FastRepoImpl

end FastRepo
