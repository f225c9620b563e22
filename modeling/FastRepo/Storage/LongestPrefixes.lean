/-
The prefixes the trie of the stored keys returns.

A trie that holds the keys of some names has the prefixes of these names as its paths. For each
first component `getLongestPrefixes` returns the chain of only children below it. No node is ever
marked as the end of a key, so a chain runs on through the names and ends where they end, or where
two of them part: `getLongestPrefixes_tight`.
-/

import FastRepo.Lib.TightPrefixes
import FastRepo.Ndn.UriText
import FastRepo.Storage.NameTrie

namespace FastRepo

/-- The names continue `q` with exactly one component. -/
def ContinuedOnce (names : List Name) (q : Name) : Prop :=
  ∃ c, ∀ d, (∃ n ∈ names, q ++ [d] <+: n) ↔ d = c

namespace NameTrie

variable (uri : UriScheme)

/-! ### Tries of names -/

/-- The trie after the keys of the names were inserted, one after the other. -/
def ofNames (names : List Name) : NameTrie :=
  names.foldl (fun trie n => trie.insert (uri.toUri n)) {}

/-- The paths of the trie are the prefixes of the names, escaped, and its nodes are plain. -/
structure HoldsKeys (trie : NameTrie) (names : List Name) : Prop where
  plain : trie.head.Plain
  paths : ∀ path, trie.head.HasPath path ↔ path = [] ∨ ∃ n ∈ names, path <+: n.map uri.escape

theorem head_foldl_insert (trie : NameTrie) (keys : List Bytes) :
    (keys.foldl insert trie).head = trie.head.insertAll (keys.map pieces) := by
  induction keys generalizing trie with
  | nil => rfl
  | cons key keys ih => exact ih (trie.insert key)

/-- Inserting keys one after the other: **the trie holds the keys of the names whose URIs were
inserted**, in any order and with any repetitions. -/
theorem holdsKeys_foldl_insert {keys : List Bytes} {names : List Name}
    (same : ∀ key, key ∈ keys ↔ ∃ n ∈ names, key = uri.toUri n) :
    HoldsKeys uri (keys.foldl insert {}) names := by
  refine ⟨?_, fun path => ?_⟩
  · rw [head_foldl_insert]
    exact PathTrie.plain_insertAll PathTrie.plain_empty _
  · rw [head_foldl_insert, PathTrie.hasPath_insertAll, PathTrie.hasPath_empty_iff]
    refine or_congr_right ⟨?_, ?_⟩
    · rintro ⟨p, member, extension⟩
      obtain ⟨key, inside, rfl⟩ := List.mem_map.mp member
      obtain ⟨n, known, rfl⟩ := (same key).mp inside
      rw [uri.pieces_toUri] at extension
      exact ⟨n, known, extension⟩
    · rintro ⟨n, known, extension⟩
      refine ⟨_, List.mem_map.mpr ⟨_, (same _).mpr ⟨n, known, rfl⟩, rfl⟩, ?_⟩
      rw [uri.pieces_toUri]
      exact extension

theorem holdsKeys_ofNames (names : List Name) : HoldsKeys uri (ofNames uri names) names := by
  have keys : ofNames uri names = (names.map uri.toUri).foldl insert {} := by
    rw [List.foldl_map]
    rfl
  rw [keys]
  refine holdsKeys_foldl_insert uri fun key => ?_
  rw [List.mem_map]
  exact exists_congr fun n => and_congr_right fun _ => eq_comm

section HoldsKeys

variable {uri} {trie : NameTrie} {names : List Name} (holds : HoldsKeys uri trie names)

include holds

theorem hasPath_map_iff {q : Name} (nonempty : q ≠ []) :
    trie.head.HasPath (q.map uri.escape) ↔ ∃ n ∈ names, q <+: n := by
  rw [holds.paths, or_iff_right (by simpa using nonempty)]
  refine exists_congr fun n => and_congr_right fun _ => ?_
  exact List.prefix_map_iff_of_injective uri.escape_injective

/-- A path of the trie is the escaped form of a prefix of a name. -/
theorem exists_name_of_hasPath {path : List Bytes} (nonempty : path ≠ [])
    (has : trie.head.HasPath path) : ∃ q, path = q.map uri.escape ∧ ∃ n ∈ names, q <+: n := by
  rcases (holds.paths path).mp has with empty | ⟨n, known, rest, whole⟩
  · exact absurd empty nonempty
  · obtain ⟨q, tail, rfl, rfl, _⟩ := List.map_eq_append_iff.mp whole.symm
    exact ⟨q, rfl, _, known, List.prefix_append q tail⟩

/-- An escaped name is forced in the trie when the names continue it once. -/
theorem forced_iff (q : Name) : trie.head.Forced (q.map uri.escape) ↔ ContinuedOnce names q := by
  have continued : ∀ d, trie.head.HasPath (q.map uri.escape ++ [uri.escape d]) ↔
      ∃ n ∈ names, q ++ [d] <+: n := by
    intro d
    rw [← hasPath_map_iff holds (by simp), List.map_append, List.map_singleton]
  have escaped : ∀ other, trie.head.HasPath (q.map uri.escape ++ [other]) →
      ∃ d, other = uri.escape d := by
    intro other has
    obtain ⟨p, whole, _⟩ := exists_name_of_hasPath holds (by simp) has
    obtain ⟨front, back, rfl, _, last⟩ := List.append_eq_map_iff.mp whole
    obtain ⟨d, rest, rfl, same, _⟩ := List.map_eq_cons_iff.mp last
    exact ⟨d, same.symm⟩
  constructor
  · rintro ⟨key, unique⟩
    obtain ⟨c, rfl⟩ := escaped key ((unique key).mpr rfl)
    exact ⟨c, fun d => by rw [← continued, unique, uri.escape_injective.eq_iff]⟩
  · rintro ⟨c, unique⟩
    refine ⟨uri.escape c, fun other => ⟨fun has => ?_, ?_⟩⟩
    · obtain ⟨d, rfl⟩ := escaped other has
      rw [(unique d).mp ((continued d).mp has)]
    · rintro rfl
      exact (continued c).mpr ((unique c).mpr rfl)

/-- The names returned are the chains from the root, unescaped, in the same order. -/
theorem map_escape_getLongestPrefixes
    (generic : ∀ n ∈ names, ∀ component ∈ n, component.IsGeneric) :
    (getLongestPrefixes uri trie).map (List.map uri.escape) = trie.head.longest := by
  rw [getLongestPrefixes, PathTrie.longest, List.map_map]
  refine List.map_congr_left fun entry member => ?_
  have inLongest : entry.1 :: entry.2.chain ∈ trie.head.longest :=
    List.mem_map.mpr ⟨entry, member, rfl⟩
  obtain ⟨q, path, n, known, extension⟩ := exists_name_of_hasPath holds (List.cons_ne_nil _ _)
    (PathTrie.hasPath_of_mem_longest holds.plain inLongest)
  have genericQ : ∀ component ∈ q, component.IsGeneric := fun component inside =>
    generic n known component (extension.subset inside)
  obtain ⟨c, rest, rfl, first, chain⟩ := List.map_eq_cons_iff.mp path.symm
  have inverse : rest.map (uri.fromEscapedString ∘ uri.escape) = rest.map id :=
    List.map_congr_left fun component inside =>
      uri.fromEscapedString_escape component (genericQ component (by simp [inside]))
  show (walk uri (uri.ofUri entry.1) entry.2).map uri.escape = _
  rw [walk_eq, ← first, ← chain, uri.ofUri_escape c (genericQ c (by simp)), List.map_map, inverse,
    List.map_id, List.singleton_append, List.map_cons]

/-- Coverage: **a name is covered exactly when one of its nonempty prefixes is not continued by the
names in exactly one way**. -/
theorem covers_iff (generic : ∀ n ∈ names, ∀ component ∈ n, component.IsGeneric) {n : Name}
    (known : n ∈ names) (nonempty : n ≠ []) :
    (∃ p ∈ getLongestPrefixes uri trie, p <+: n) ↔
      ∃ q, q ≠ [] ∧ q <+: n ∧ ¬ContinuedOnce names q := by
  have has : trie.head.HasPath (n.map uri.escape) :=
    (hasPath_map_iff holds nonempty).mpr ⟨n, known, List.prefix_rfl⟩
  have paths := PathTrie.exists_longest_prefix_iff holds.plain (by simpa using nonempty) has
  rw [← map_escape_getLongestPrefixes holds generic] at paths
  constructor
  · rintro ⟨p, returned, extension⟩
    obtain ⟨path, pathNonempty, within, notForced⟩ :=
      paths.mp ⟨_, List.mem_map_of_mem returned, extension.map uri.escape⟩
    obtain ⟨rest, whole⟩ := within
    obtain ⟨q, tail, rfl, rfl, _⟩ := List.map_eq_append_iff.mp whole.symm
    exact ⟨q, by simpa using pathNonempty, List.prefix_append q tail,
      fun once => notForced ((forced_iff holds q).mpr once)⟩
  · rintro ⟨q, qNonempty, extension, notOnce⟩
    obtain ⟨path, inLongest, within⟩ := paths.mpr ⟨q.map uri.escape, by simpa using qNonempty,
      extension.map uri.escape, fun forced => notOnce ((forced_iff holds q).mp forced)⟩
    obtain ⟨p, returned, rfl⟩ := List.mem_map.mp inLongest
    exact ⟨p, returned, (List.prefix_map_iff_of_injective uri.escape_injective).mp within⟩

/-- The prefixes returned are tight prefixes of the names. -/
theorem tight_of_holdsKeys (generic : ∀ n ∈ names, ∀ component ∈ n, component.IsGeneric)
    (each : ∀ n ∈ names, n ≠ []) : Tight names (getLongestPrefixes uri trie) := by
  refine Tight.of_map uri.escape_injective ?_
  rw [map_escape_getLongestPrefixes holds generic]
  refine PathTrie.tight_longest holds.plain (fun path member => ?_) fun path => ?_
  · obtain ⟨n, known, rfl⟩ := List.mem_map.mp member
    simpa using each n known
  · rw [holds.paths]
    simp only [List.mem_map, exists_exists_and_eq_and]

end HoldsKeys

/-- The scanned prefixes: **whatever names are inserted, in whatever order and how often, the trie
returns one prefix for each first component, comparable with every name of that component and as
long as possible; the prefixes are not prefixes of each other, and the set of names determines
them**. -/
theorem getLongestPrefixes_tight (names : List Name)
    (generic : ∀ n ∈ names, ∀ component ∈ n, component.IsGeneric)
    (each : ∀ n ∈ names, n ≠ []) :
    Tight names (getLongestPrefixes uri (ofNames uri names)) ∧
      (getLongestPrefixes uri (ofNames uri names)).Pairwise
        (fun p q => ¬p <+: q ∧ ¬q <+: p) ∧
      ∀ others, (∀ n, n ∈ others ↔ n ∈ names) →
        (getLongestPrefixes uri (ofNames uri others)).Perm
          (getLongestPrefixes uri (ofNames uri names)) := by
  have tight := tight_of_holdsKeys (holdsKeys_ofNames uri names) generic each
  refine ⟨tight, tight.apart each, fun others same => ?_⟩
  have tightOthers : Tight others (getLongestPrefixes uri (ofNames uri others)) :=
    tight_of_holdsKeys (holdsKeys_ofNames uri others)
      (fun n known => generic n ((same n).mp known)) fun n known => each n ((same n).mp known)
  exact tight.unique each tightOthers same

/-- With `/a/b`, `/a/c/d` and `/e` inserted, the prefixes are `/a` and `/e`, and so they are when the
names come the other way round and one of them twice. -/
theorem tight_three :
    getLongestPrefixes uriText (ofNames uriText
        [nameOf ["a", "b"], nameOf ["a", "c", "d"], nameOf ["e"]]) = [nameOf ["a"], nameOf ["e"]] ∧
      Tight [nameOf ["a", "b"], nameOf ["a", "c", "d"], nameOf ["e"]]
        (getLongestPrefixes uriText (ofNames uriText
          [nameOf ["a", "b"], nameOf ["a", "c", "d"], nameOf ["e"]])) ∧
      (getLongestPrefixes uriText (ofNames uriText
        [nameOf ["e"], nameOf ["a", "c", "d"], nameOf ["a", "b"], nameOf ["e"]])).Perm
          (getLongestPrefixes uriText (ofNames uriText
            [nameOf ["a", "b"], nameOf ["a", "c", "d"], nameOf ["e"]])) := by
  obtain ⟨tight, _, determined⟩ := getLongestPrefixes_tight uriText
    [nameOf ["a", "b"], nameOf ["a", "c", "d"], nameOf ["e"]] (by decide) (by decide)
  refine ⟨by decide, tight, determined _ fun n => ?_⟩
  simp only [List.mem_cons, List.not_mem_nil, or_false]
  tauto

end NameTrie

end FastRepo
