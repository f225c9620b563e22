/-
What a repo serves of the packets earlier sessions stored.

The packets are all there after a restart, but the listeners are gone: the repo listens for its
configured prefixes, for those the scan of the database returns, and for the names this session
announces. `served_iff` says which of the stored names it serves, at any time.
-/

import FastRepo.Repo.FetchedData
import FastRepo.Repo.Registrations
import FastRepo.Repo.Restarts
import FastRepo.Storage.KeyScan

namespace FastRepo

open FastRepoImpl FetchedData PrefixCover Registrations Restarts

namespace ServedLater

variable {platform : Platform} {db : Db} {sessions : List Session} {session : Session}
  {repo : FastRepoImpl} {n : Name}

variable (platform) in
/-- The names of the packets a chain of sessions stored, on an empty database at first. -/
def storedNames (sessions : List Session) : List Name :=
  (history platform ∅ sessions).map Data.name

/-! ### The database between two sessions -/

/-- A name is in the database exactly when some session stored a packet under it. -/
theorem isSome_contentsOf (served : Runs.run (serve platform) ∅ sessions = some db) (n : Name) :
    (contentsOf platform db n).isSome = true ↔ n ∈ storedNames platform sessions := by
  rw [contents_of_sessions served, LastWrite.isSome_writeAll, contentsOf_empty]
  exact or_iff_left Bool.false_ne_true

/-- The keys of the database are the URIs of the names that were stored. -/
theorem keysAre_storedNames (served : Runs.run (serve platform) ∅ sessions = some db) :
    StorageEngineImpl.KeysAre platform.ndn db (storedNames platform sessions) := by
  have well : (StorageEngine.openedOn db []).WellStored platform.ndn :=
    wellStored_sessions wellStored_empty served
  intro key
  constructor
  · rintro ⟨value, member⟩
    obtain ⟨data, rfl, rfl⟩ := well key value (Std.TreeMap.mem_toList_iff_getElem?_eq_some.mp member)
    refine ⟨data.name, (isSome_contentsOf served data.name).mp ?_, rfl⟩
    rw [contentsOf, StoreHistory.contents_of_mem member]
    rfl
  · rintro ⟨n, stored, rfl⟩
    obtain ⟨data, found⟩ := Option.isSome_iff_exists.mp ((isSome_contentsOf served n).mpr stored)
    exact ⟨_, StoreHistory.mem_of_contents well found⟩

/-! ### A later session -/

/-- What was stored before a session is stored all through it. -/
theorem isSome_contents (served : Runs.run (serve platform) ∅ sessions = some db)
    (reached : session.repo platform db = some repo) (stored : n ∈ storedNames platform sessions) :
    (repo.storage.contents platform.ndn n).isSome = true := by
  rw [StoreHistory.contents_of_run reached, contents_started, LastWrite.isSome_writeAll]
  exact Or.inr ((isSome_contentsOf served n).mpr stored)

/-- A stored packet is served exactly when it is listened for. -/
theorem serves_iff_covered (served : Runs.run (serve platform) ∅ sessions = some db)
    (reached : session.repo platform db = some repo) (stored : n ∈ storedNames platform sessions) :
    Serves platform repo n ↔ Covered repo.face.dataListeners n := by
  have well := StoreHistory.wellStored_run
    (wellStored_started (wellStored_sessions wellStored_empty served) session.config) reached
  obtain ⟨packet, found⟩ := Option.isSome_iff_exists.mp (isSome_contents served reached stored)
  refine ⟨And.left, fun listens => ⟨listens, packet,
    StorageEngine.contents_name platform.ndn well found, fun outcomes returns => ?_⟩⟩
  rw [StoreHistory.sent_exactRead well rfl rfl returns, found]
  rfl

/-- The scan of the database covers a stored name exactly when a nonempty prefix of it is not
continued by the stored names in exactly one way. -/
theorem covered_scanned_iff (served : Runs.run (serve platform) ∅ sessions = some db)
    (generic : ∀ n ∈ storedNames platform sessions, ∀ component ∈ n, component.IsGeneric)
    (config : Config) (stored : n ∈ storedNames platform sessions) (nonempty : n ≠ []) :
    Covered (scanned platform config db) n ↔
      ∃ q, q ≠ [] ∧ q <+: n ∧ ¬ContinuedOnce (storedNames platform sessions) q :=
  have fresh : (constructed config db).storage.pimpl.keysTrie = {} := rfl
  StorageEngineImpl.scan_covers_iff fresh (keysAre_storedNames served) generic stored nonempty

/-- Restarts: **at any time of a session whose registrations return, a packet that earlier sessions
stored is served exactly when a configured prefix covers it, a nonempty prefix of its name is not
continued by the stored names in exactly one way, or a name this session announced covers it**,
whatever the configs of the sessions were and wherever they ended. -/
theorem served_iff (served : Runs.run (serve platform) ∅ sessions = some db)
    (generic : ∀ n ∈ storedNames platform sessions, ∀ component ∈ n, component.IsGeneric)
    (registers : ∀ occurrence ∈ session.occurrences,
      occurrence.outcomes.throws .registerPrefix = none)
    (reached : session.repo platform db = some repo) (stored : n ∈ storedNames platform sessions)
    (nonempty : n ≠ []) :
    Serves platform repo n ↔
      Covered session.config.dataPrefixes n ∨
        (∃ q, q ≠ [] ∧ q <+: n ∧ ¬ContinuedOnce (storedNames platform sessions) q) ∨
        Covered (allHeard platform (started platform session.config db) session.occurrences) n := by
  have listeners : repo.face.dataListeners = _ :=
    (listening_run registers reached).trans (Prod.mk.inj (registered_run reached)).2
  rw [serves_iff_covered served reached stored, listeners, covered_addAll_iff, covered_append,
    covered_append, covered_scanned_iff served generic session.config stored nonempty, or_assoc]

/-! ### A packet that a restart hides -/

/-- A session that inserts `/a` and `/a/b`. -/
def parentFirst : Session :=
  ⟨{ repoPrefixes := [nameOf ["r"]] }, inserting [nameOf ["a"], nameOf ["a", "b"]]⟩

theorem storedNames_parentFirst : storedNames (tlvPlatform false false) [parentFirst] =
    [nameOf ["a"], nameOf ["a", "b"]] := by decide

/-- `/a` is still in the database, and the next session does not serve it. -/
theorem hidden_parentFirst : ∃ (db : Db) (repo : FastRepoImpl),
    Runs.run (serve (tlvPlatform false false)) ∅ [parentFirst] = some db ∧
      (⟨{}, []⟩ : Session).repo (tlvPlatform false false) db = some repo ∧
      ¬Serves (tlvPlatform false false) repo (nameOf ["a"]) := by
  have served : (Runs.run (serve (tlvPlatform false false)) ∅ [parentFirst]).isSome = true := by
    decide
  have reopened : (⟨{}, []⟩ : Session).repo (tlvPlatform false false) (Option.get _ served) =
    some _ := rfl
  refine ⟨_, _, (Option.some_get served).symm, reopened, fun serves => ?_⟩
  have covered := (served_iff (Option.some_get served).symm
    (by rw [storedNames_parentFirst]; decide) (by decide) reopened
    (by rw [storedNames_parentFirst]; decide) (by decide)).mp serves
  rw [storedNames_parentFirst] at covered
  rcases covered with ⟨_, configured, _⟩ | ⟨q, nonempty, extension, notOnce⟩ | ⟨_, announced, _⟩
  · cases configured
  · have same : q = nameOf ["a"] := by
      rcases List.prefix_concat_iff.mp (show q <+: [] ++ [_] from extension) with whole | none
      · exact whole
      · exact absurd (List.prefix_nil.mp none) nonempty
    subst same
    refine notOnce ⟨.generic (ascii "b"), fun d => ⟨?_, ?_⟩⟩
    · rintro ⟨n, member, within⟩
      simp only [List.mem_cons, List.not_mem_nil, or_false] at member
      rcases member with rfl | rfl
      · have bound := within.length_le
        rw [List.length_append, List.length_singleton] at bound
        omega
      · simpa [nameOf] using within
    · rintro rfl
      exact ⟨nameOf ["a", "b"], by decide, List.prefix_rfl⟩
  · cases announced

end ServedLater

end FastRepo
