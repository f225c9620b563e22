/-
The key scan: which stored names the longest prefixes cover.

The scan inserts every key of the database into the trie and returns its longest prefixes. They are
tight prefixes of the stored names (`scan_tight`), and they run on through stored names: a stored
name is covered exactly when one of its nonempty prefixes is not continued by the stored names in
exactly one way (`scan_covers_iff`).
-/

import FastRepo.Storage.Engine
import FastRepo.Storage.LongestPrefixes

namespace FastRepo

namespace StorageEngineImpl

variable (ndn : NdnCpp)

/-- The keys of the database are the URIs of the names. -/
def KeysAre (db : Db) (names : List Name) : Prop :=
  ∀ key, (∃ value, (key, value) ∈ db.toList) ↔ ∃ n ∈ names, key = ndn.uri.toUri n

section Scan

variable {ndn} {engine : StorageEngineImpl} {names : List Name}

/-- On a fresh trie the scan leaves the keys of the stored names. -/
theorem holdsKeys_buildKeyTrie (fresh : engine.keysTrie = {})
    (keys : KeysAre ndn engine.db names) :
    NameTrie.HoldsKeys ndn.uri engine.buildKeyTrie.keysTrie names := by
  have built : engine.buildKeyTrie.keysTrie =
      (engine.db.toList.map Prod.fst).foldl NameTrie.insert {} := by
    rw [List.foldl_map, ← fresh]
    rfl
  rw [built]
  refine NameTrie.holdsKeys_foldl_insert ndn.uri fun key => ?_
  rw [← keys key, List.mem_map]
  simp only [Prod.exists, exists_and_right, exists_eq_right]

/-- The scan: **it returns tight prefixes of the stored names**. -/
theorem scan_tight (fresh : engine.keysTrie = {}) (keys : KeysAre ndn engine.db names)
    (generic : ∀ n ∈ names, ∀ component ∈ n, component.IsGeneric)
    (each : ∀ n ∈ names, n ≠ []) : Tight names (engine.getLongestPrefixes ndn).2 :=
  NameTrie.tight_of_holdsKeys (holdsKeys_buildKeyTrie fresh keys) generic each

/-- Coverage of the scan: **a stored name is covered exactly when one of its nonempty prefixes is
not continued by the stored names in exactly one way**. -/
theorem scan_covers_iff (fresh : engine.keysTrie = {}) (keys : KeysAre ndn engine.db names)
    (generic : ∀ n ∈ names, ∀ component ∈ n, component.IsGeneric) {n : Name} (stored : n ∈ names)
    (nonempty : n ≠ []) :
    (∃ p ∈ (engine.getLongestPrefixes ndn).2, p <+: n) ↔
      ∃ q, q ≠ [] ∧ q <+: n ∧ ¬ ContinuedOnce names q :=
  NameTrie.covers_iff (holdsKeys_buildKeyTrie fresh keys) generic stored nonempty

end Scan

end StorageEngineImpl

end FastRepo
