/-
The store across restarts.

A session is one life of the process: it opens the database the last session left, and may end after
any event. `contents_of_sessions` says that a chain of sessions acts on the store by everything the
sessions stored, one after the other, and `exactRead_sessions` that a packet stays retrievable in
every later session, under whatever config it runs.
-/

import FastRepo.Repo.StoreHistory
import FastRepo.Storage.Rescan

namespace FastRepo

open FastRepoImpl StoreHistory

namespace Restarts

variable (platform : Platform)

/-- One life of the process: its config, and what happens until it ends. -/
structure Session where
  config : Config
  occurrences : List Occurrence

namespace Session

/-- The repo at the end of a session on a database. -/
def repo (session : Session) (db : Db) : Option FastRepoImpl :=
  (started platform session.config db).run platform session.occurrences

/-- What a session stores. -/
def history (session : Session) (db : Db) : List Data :=
  StoreHistory.history platform (started platform session.config db) session.occurrences

end Session

/-- The database a session leaves to the next one. -/
def serve (db : Db) (session : Session) : Option Db :=
  (session.repo platform db).map fun repo => repo.storage.pimpl.db

/-- What a chain of sessions stores, in order. -/
def history (db : Db) (sessions : List Session) : List Data :=
  Runs.outputs (serve platform) (fun db session => session.history platform db) db sessions

/-- The contents of a database. -/
def contentsOf (db : Db) : PacketStore :=
  (StorageEngine.openedOn db []).contents platform.ndn

/-- The database holds encoded packets under their names. -/
def WellStored (db : Db) : Prop := (StorageEngine.openedOn db []).WellStored platform.ndn

section Sessions

variable {platform} {db last : Db} {session : Session} {sessions : List Session}

theorem contents_started (config : Config) (db : Db) :
    (started platform config db).storage.contents platform.ndn = contentsOf platform db :=
  contents_congr (started_db config db).1

theorem wellStored_empty : WellStored platform ∅ :=
  StorageEngine.wellStored_opened platform.ndn []

theorem wellStored_started (well : WellStored platform db) (config : Config) :
    (started platform config db).storage.WellStored platform.ndn :=
  wellStored_congr (started_db config db).1 well

/-- One session overwrites the contents with what it stores. -/
theorem contents_serve {next : Db} (served : serve platform db session = some next) :
    contentsOf platform next =
      LastWrite.writeAll Data.name (contentsOf platform db) (session.history platform db) := by
  obtain ⟨repo, reached, rfl⟩ := Option.map_eq_some_iff.mp served
  have stored := contents_of_run reached
  rw [contents_started] at stored
  exact (contents_congr rfl).trans stored

theorem wellStored_serve {next : Db} (well : WellStored platform db)
    (served : serve platform db session = some next) : WellStored platform next := by
  obtain ⟨repo, reached, rfl⟩ := Option.map_eq_some_iff.mp served
  exact wellStored_congr rfl (wellStored_run (wellStored_started well session.config) reached)

/-- Durability: **a chain of sessions leaves the contents it started on, overwritten by everything
its sessions stored**, wherever each of them ends. -/
theorem contents_of_sessions (served : Runs.run (serve platform) db sessions = some last) :
    contentsOf platform last =
      LastWrite.writeAll Data.name (contentsOf platform db) (history platform db sessions) :=
  Runs.abstracts_outputs (I := fun _ => True) (contentsOf platform) trivial
    (fun _ _ _ _ _ => trivial) (fun _ _ _ _ served => contents_serve served) served

theorem wellStored_sessions (well : WellStored platform db)
    (served : Runs.run (serve platform) db sessions = some last) : WellStored platform last :=
  Runs.run_invariant well (fun _ _ _ well served => wellStored_serve well served) served

theorem contentsOf_empty (n : Name) : contentsOf platform ∅ n = none :=
  StorageEngine.contents_opened platform.ndn [] n

/-- Reads across restarts: **after any chain of sessions that began on an empty database, in every
state of the next session, an Interest for one name is answered with the last packet any of them
stored under it**, whatever the configs of the sessions are. -/
theorem exactRead_sessions (served : Runs.run (serve platform) ∅ sessions = some db)
    {repo : FastRepoImpl} (reached : session.repo platform db = some repo) {interest : Interest}
    {outcomes : Outcomes} (exact : interest.canBePrefix = false)
    (stale : interest.mustBeFresh = false) (returns : outcomes.throws .putData = none) :
    (repo.after platform ⟨.readInterest interest, outcomes⟩).face.sent =
      repo.face.sent ++ (((history platform ∅ sessions ++ session.history platform db).filter
        fun data => data.name = interest.name).getLast?).toList := by
  have well := wellStored_started (wellStored_sessions wellStored_empty served) session.config
  rw [sent_exactRead (wellStored_run well reached) exact stale returns, contents_of_run reached,
    contents_started, contents_of_sessions served, LastWrite.writeAll_apply,
    LastWrite.writeAll_apply, contentsOf_empty, Option.or_none, List.filter_append,
    List.getLast?_append]
  rfl

/-- What a session stored under its rename prefix is read in the next one, which has none. -/
theorem exactRead_nextSession : ∃ (db : Db) (repo : FastRepoImpl),
    Runs.run (serve (tlvPlatform false false)) ∅
        [⟨renamingConfig, RuntimeCoverage.insertAndFetch⟩] = some db ∧
      (⟨{}, []⟩ : Session).repo (tlvPlatform false false) db = some repo ∧
      (repo.after (tlvPlatform false false)
          ⟨.readInterest { name := nameOf ["x", "a"], canBePrefix := false }, {}⟩).face.sent =
        repo.face.sent ++ [storedData ndnTlv (ascii "/x") { name := nameOf ["a"] }] := by
  have served : (Runs.run (serve (tlvPlatform false false)) ∅
      [⟨renamingConfig, RuntimeCoverage.insertAndFetch⟩]).isSome = true := by decide
  have stored : history (tlvPlatform false false) ∅
      [⟨renamingConfig, RuntimeCoverage.insertAndFetch⟩] =
      [storedData ndnTlv (ascii "/x") { name := nameOf ["a"] },
        storedData ndnTlv (ascii "/x") { name := nameOf ["p", "0"] }] := by decide
  have reopened : (⟨{}, []⟩ : Session).repo (tlvPlatform false false) (Option.get _ served) =
    some _ := rfl
  refine ⟨_, _, (Option.some_get served).symm, reopened,
    (exactRead_sessions (Option.some_get served).symm reopened rfl rfl rfl).trans ?_⟩
  rw [stored]
  congr 1

end Sessions

end Restarts

end FastRepo
