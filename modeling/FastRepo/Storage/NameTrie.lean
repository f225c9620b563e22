/-
The trie of the stored keys, `StorageEngineImpl::NameTrie`.

The keys are URIs. `insert` splits a key at the slashes and follows the nonempty pieces from the
head; `getLongestPrefixes` walks down from each child of the head while the node is unmarked and
has exactly one child, and turns the pieces it meets into components. No function of the engine
ever sets `isLeaf`.
-/

import FastRepo.Lib.PathTrie
import FastRepo.Ndn.Name

namespace FastRepo

/-- A trie node; the keys are pieces of URI text. -/
abbrev TrieNode := PathTrie Bytes

/-- The trie of the stored keys. -/
structure NameTrie where
  head : TrieNode := .empty

namespace NameTrie

/-- `NameTrie::insert`: `split` the key at the slashes and descend by the nonempty pieces. -/
def insert (trie : NameTrie) (key : Bytes) : NameTrie :=
  { head := trie.head.insert (pieces key) }

/-- The loop of `getLongestPrefixes`: append the key of the only child while there is one. -/
def walk (uri : UriScheme) (n : Name) : TrieNode → Name
  | .node false [(key, child)] => walk uri (n ++ [uri.fromEscapedString key]) child
  | _ => n

/-- `NameTrie::getLongestPrefixes`. The order of an `unordered_map` is unspecified; here the
children come in the order of their insertion. -/
def getLongestPrefixes (uri : UriScheme) (trie : NameTrie) : List Name :=
  trie.head.components.map fun entry => walk uri (uri.ofUri entry.1) entry.2

/-! ### The walk is the chain of the node -/

theorem walk_eq (uri : UriScheme) (n : Name) (curr : TrieNode) :
    walk uri n curr = n ++ curr.chain.map uri.fromEscapedString := by
  induction curr using PathTrie.chain.induct generalizing n with
  | case1 key child ih =>
    rw [walk, ih, PathTrie.chain, List.map_cons, List.append_assoc, List.singleton_append]
  | case2 curr different =>
    rw [walk.eq_2 uri n curr different, PathTrie.chain.eq_2 curr different, List.map_nil,
      List.append_nil]

end NameTrie

end FastRepo
