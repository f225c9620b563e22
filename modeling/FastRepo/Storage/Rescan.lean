/-
Scanning again.

An engine keeps its trie from one scan to the next, and a scan inserts the keys of the database on
top of it. Nothing is ever deleted from the database, so the kept trie has no path that the current
keys do not have (`TrieWithinKeys`), and a scan delivers what a new trie would: `rescan_perm`.
-/

import FastRepo.Lib.Runs
import FastRepo.Ndn.WireTlv
import FastRepo.Storage.LongestPrefixes
import FastRepo.Storage.PacketStore

namespace FastRepo

/-! ### Sequences of calls -/

/-- A successful put, or a scan. -/
inductive EngineCall where
  | put (data : Data)
  | scanForLongestPrefixes
deriving DecidableEq, Repr

namespace StorageEngine

variable (ndn : NdnCpp)

/-- An engine that was just opened on a database. -/
def openedOn (db : Db) (renamePrefix : Bytes) : StorageEngine :=
  { pimpl := { db := db, renamePrefix := renamePrefix } }

/-- The engine after one call. Every call can be made. -/
def step (engine : StorageEngine) : EngineCall → Option StorageEngine
  | .put data => some (engine.put ndn data true).1
  | .scanForLongestPrefixes => some (engine.scanForLongestPrefixes ndn).1

theorem exists_run (engine : StorageEngine) (calls : List EngineCall) :
    ∃ last, Runs.run (step ndn) engine calls = some last := by
  induction calls generalizing engine with
  | nil => exact ⟨engine, rfl⟩
  | cons call calls ih => cases call <;> exact ih _

/-! ### The kept trie -/

/-- The paths a key leaves in the trie. -/
def keyPaths (db : Db) : List (List Bytes) :=
  db.toList.map fun entry => pieces entry.1

/-- The trie has no paths but those of the keys of the database. -/
structure TrieWithinKeys (engine : StorageEngine) : Prop where
  plain : engine.pimpl.keysTrie.head.Plain
  within : ∀ q, engine.pimpl.keysTrie.head.HasPath q →
    q = [] ∨ ∃ path ∈ keyPaths engine.pimpl.db, q <+: path

theorem mem_keyPaths {db : Db} {path : List Bytes} :
    path ∈ keyPaths db ↔ ∃ key ∈ db, pieces key = path := by
  rw [keyPaths, List.mem_map]
  constructor
  · rintro ⟨entry, member, same⟩
    refine ⟨entry.1, Std.TreeMap.mem_iff_isSome_getElem?.mpr ?_, same⟩
    rw [Std.TreeMap.mem_toList_iff_getElem?_eq_some.mp member]
    rfl
  · rintro ⟨key, member, same⟩
    exact ⟨(key, db[key]), Std.TreeMap.mem_toList_iff_getElem?_eq_some.mpr
      (Std.TreeMap.getElem?_eq_some_getElem member), same⟩

/-- A put keeps the keys that are there. -/
theorem keyPaths_put (engine : StorageEngine) (data : Data) {path : List Bytes}
    (known : path ∈ keyPaths engine.pimpl.db) :
    path ∈ keyPaths (engine.put ndn data true).1.pimpl.db := by
  obtain ⟨key, member, same⟩ := mem_keyPaths.mp known
  refine mem_keyPaths.mpr ⟨key, ?_, same⟩
  rw [put_db]
  exact Std.TreeMap.mem_insert.mpr (Or.inr member)

/-- A scan inserts the paths of the keys into the trie that was kept. -/
theorem head_buildKeyTrie (engine : StorageEngine) :
    engine.pimpl.buildKeyTrie.keysTrie.head =
      engine.pimpl.keysTrie.head.insertAll (keyPaths engine.pimpl.db) := by
  have keys : engine.pimpl.buildKeyTrie.keysTrie =
      (engine.pimpl.db.toList.map Prod.fst).foldl NameTrie.insert engine.pimpl.keysTrie := by
    rw [List.foldl_map]
    rfl
  rw [keys, NameTrie.head_foldl_insert, List.map_map]
  rfl

theorem trieWithinKeys_openedOn (db : Db) (renamePrefix : Bytes) :
    (openedOn db renamePrefix).TrieWithinKeys :=
  ⟨PathTrie.plain_empty, fun q has => Or.inl ((PathTrie.hasPath_empty_iff q).mp has)⟩

theorem TrieWithinKeys.put {engine : StorageEngine} (keeps : engine.TrieWithinKeys) (data : Data) :
    (engine.put ndn data true).1.TrieWithinKeys := by
  have trie : (engine.put ndn data true).1.pimpl.keysTrie = engine.pimpl.keysTrie := by
    rw [put_eq]
  refine ⟨?_, fun q has => ?_⟩
  · rw [trie]
    exact keeps.plain
  · rw [trie] at has
    rcases keeps.within q has with empty | ⟨path, known, extension⟩
    · exact Or.inl empty
    · exact Or.inr ⟨path, keyPaths_put ndn engine data known, extension⟩

theorem TrieWithinKeys.scan {engine : StorageEngine} (keeps : engine.TrieWithinKeys) :
    (engine.scanForLongestPrefixes ndn).1.TrieWithinKeys := by
  have head : (engine.scanForLongestPrefixes ndn).1.pimpl.keysTrie.head =
      engine.pimpl.keysTrie.head.insertAll (keyPaths engine.pimpl.db) := head_buildKeyTrie engine
  refine ⟨?_, fun q has => ?_⟩
  · rw [head]
    exact PathTrie.plain_insertAll keeps.plain _
  · rw [head, PathTrie.hasPath_insertAll] at has
    exact has.elim (keeps.within q) Or.inr

theorem trieWithinKeys_run {start last : StorageEngine} (keeps : start.TrieWithinKeys)
    {calls : List EngineCall} (reached : Runs.run (step ndn) start calls = some last) :
    last.TrieWithinKeys := by
  refine Runs.run_invariant keeps ?_ reached
  intro engine call next keeps stepped
  cases call with
  | put data =>
    cases stepped
    exact keeps.put ndn data
  | scanForLongestPrefixes =>
    cases stepped
    exact keeps.scan ndn

/-! ### What a scan delivers -/

/-- A new trie with the keys of the database. -/
def freshTrie (db : Db) : NameTrie :=
  db.toList.foldl (fun trie entry => trie.insert entry.1) {}

/-- The name of a chain from the head. -/
def chainName (uri : UriScheme) : List Bytes → Name
  | [] => []
  | key :: rest => uri.ofUri key ++ rest.map uri.fromEscapedString

theorem getLongestPrefixes_eq_map (uri : UriScheme) (trie : NameTrie) :
    trie.getLongestPrefixes uri = trie.head.longest.map (chainName uri) := by
  rw [NameTrie.getLongestPrefixes, PathTrie.longest, List.map_map]
  refine List.map_congr_left fun entry _ => ?_
  exact NameTrie.walk_eq uri _ _

/-- Scanning again: **in every sequence of puts and scans on an engine, each scan delivers the
prefixes that a new trie of the current keys gives**, in whatever order. -/
theorem rescan_perm (db : Db) (renamePrefix : Bytes) {calls : List EngineCall}
    {engine : StorageEngine}
    (scans : Runs.Takes (step ndn) (openedOn db renamePrefix) calls engine
      .scanForLongestPrefixes) :
    (engine.scanForLongestPrefixes ndn).2.Perm
      ((freshTrie engine.pimpl.db).getLongestPrefixes ndn.uri) := by
  obtain ⟨before, _, reached⟩ := scans
  have keeps := trieWithinKeys_run ndn (trieWithinKeys_openedOn db renamePrefix) reached
  have fresh : (freshTrie engine.pimpl.db).head =
      PathTrie.empty.insertAll (keyPaths engine.pimpl.db) :=
    head_buildKeyTrie (openedOn engine.pimpl.db [])
  have kept : (engine.scanForLongestPrefixes ndn).2 =
      engine.pimpl.buildKeyTrie.keysTrie.getLongestPrefixes ndn.uri := rfl
  rw [kept, getLongestPrefixes_eq_map, getLongestPrefixes_eq_map, head_buildKeyTrie, fresh]
  exact (PathTrie.longest_insertAll_perm keeps.plain keeps.within).map _

/-- A scan, a second packet beside the first one, and another scan: the kept trie has `/a/b` as a
chain, and the second scan delivers `/a`. -/
theorem rescan_two_packets :
    ∃ engine, Runs.run (step ndnTlv) (openedOn ∅ []) [.put { name := nameOf ["a", "b"] },
        .scanForLongestPrefixes, .put { name := nameOf ["a", "c"] }] = some engine ∧
      engine.pimpl.keysTrie.getLongestPrefixes ndnTlv.uri = [nameOf ["a", "b"]] ∧
      (engine.scanForLongestPrefixes ndnTlv).2 = [nameOf ["a"]] ∧
      (engine.scanForLongestPrefixes ndnTlv).2.Perm
        ((freshTrie engine.pimpl.db).getLongestPrefixes ndnTlv.uri) := by
  have scans : Runs.Takes (step ndnTlv) (openedOn ∅ []) [.put { name := nameOf ["a", "b"] },
      .scanForLongestPrefixes, .put { name := nameOf ["a", "c"] }, .scanForLongestPrefixes] _
      .scanForLongestPrefixes :=
    ⟨[.put { name := nameOf ["a", "b"] }, .scanForLongestPrefixes,
      .put { name := nameOf ["a", "c"] }], List.prefix_rfl, rfl⟩
  exact ⟨_, rfl, by decide, by decide, rescan_perm ndnTlv ∅ [] scans⟩

/-- Were `/a/b` deleted from the database, the kept trie would still have it. -/
example :
    let engine : StorageEngine := { pimpl := {
      db := Std.TreeMap.ofList [(ndnTlv.uri.toUri (nameOf ["a", "c"]), [])]
      keysTrie := NameTrie.ofNames ndnTlv.uri [nameOf ["a", "b"]] } }
    (engine.scanForLongestPrefixes ndnTlv).2 = [nameOf ["a"]] ∧
      (freshTrie engine.pimpl.db).getLongestPrefixes ndnTlv.uri = [nameOf ["a", "c"]] := by
  decide

end StorageEngine

end FastRepo
