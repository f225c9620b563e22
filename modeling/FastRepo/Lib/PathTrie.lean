/-
Tries of paths, and their forced chains.

A trie over an alphabet `κ` stores paths, lists over `κ`. A node may carry a mark and keeps its
children in an association list.

* `hasPath_insert`: inserting a path adds exactly its prefixes.
* `chain`: the walk down from a node while the node is unmarked and has exactly one child.
  `chain_comparable`, `chain_forced` and `chain_stops` characterise it in a plain trie (no marks,
  distinct keys): it is the longest path all of whose proper prefixes are continued in one way.
* `exists_longest_prefix_iff`: which paths extend one of the chains that start at the root.
-/

import Mathlib.Data.List.Basic
import Mathlib.Data.List.Infix

/-- A trie node: a mark, and the children by their key. -/
inductive PathTrie (κ : Type) where
  | node (isLeaf : Bool) (components : List (κ × PathTrie κ))

namespace PathTrie

variable {κ : Type}

/-- The node without mark and children. -/
def empty : PathTrie κ := .node false []

def components : PathTrie κ → List (κ × PathTrie κ)
  | .node _ components => components

/-- The keys met on the walk down from a node, while it is unmarked and has exactly one child. -/
def chain : PathTrie κ → List κ
  | .node false [(key, child)] => key :: child.chain
  | _ => []

/-- The chains that start with one of the keys of the root. -/
def longest (trie : PathTrie κ) : List (List κ) :=
  trie.components.map fun entry => entry.1 :: entry.2.chain

/-- No node is marked, and the keys of every node are distinct. -/
inductive Plain : PathTrie κ → Prop
  | node {components : List (κ × PathTrie κ)} (distinct : (components.map Prod.fst).Nodup)
      (children : ∀ entry ∈ components, Plain entry.2) : Plain (.node false components)

theorem Plain.distinct {trie : PathTrie κ} (plain : trie.Plain) :
    (trie.components.map Prod.fst).Nodup := by
  cases plain with
  | node distinct _ => exact distinct

theorem Plain.child {trie : PathTrie κ} (plain : trie.Plain) :
    ∀ entry ∈ trie.components, entry.2.Plain := by
  cases plain with
  | node _ children => exact children

variable [DecidableEq κ]

/-! ### Children -/

section Children

/-- The child at a key. -/
def child? (trie : PathTrie κ) (key : κ) : Option (PathTrie κ) :=
  trie.components.lookup key

/-- Put a child at a key, replacing the one that is there. -/
def setChild (key : κ) (child : PathTrie κ) :
    List (κ × PathTrie κ) → List (κ × PathTrie κ)
  | [] => [(key, child)]
  | (other, old) :: rest =>
    if other = key then (key, child) :: rest else (other, old) :: setChild key child rest

theorem lookup_cons (key other : κ) (child : PathTrie κ) (rest : List (κ × PathTrie κ)) :
    ((key, child) :: rest).lookup other =
      if other = key then some child else rest.lookup other := by
  by_cases same : other = key
  · simp [same]
  · have differ : (other == key) = false := by simpa using same
    simp only [List.lookup_cons, differ, if_neg same]

theorem lookup_setChild (key other : κ) (child : PathTrie κ)
    (components : List (κ × PathTrie κ)) :
    (setChild key child components).lookup other =
      if other = key then some child else components.lookup other := by
  induction components with
  | nil => rw [setChild, lookup_cons]
  | cons entry rest ih =>
    obtain ⟨first, old⟩ := entry
    by_cases hit : first = key
    · subst hit
      rw [setChild, if_pos rfl, lookup_cons, lookup_cons]
      split <;> rfl
    · rw [setChild, if_neg hit, lookup_cons, lookup_cons, ih]
      by_cases same : other = first
      · subst same
        rw [if_pos rfl, if_pos rfl, if_neg hit]
      · rw [if_neg same, if_neg same]

theorem mem_keys_setChild (key other : κ) (child : PathTrie κ)
    (components : List (κ × PathTrie κ)) :
    other ∈ (setChild key child components).map Prod.fst ↔
      other = key ∨ other ∈ components.map Prod.fst := by
  induction components with
  | nil => simp [setChild]
  | cons entry rest ih =>
    obtain ⟨first, old⟩ := entry
    by_cases hit : first = key
    · subst hit
      simp [setChild]
    · rw [setChild, if_neg hit, List.map_cons, List.mem_cons, ih, List.map_cons, List.mem_cons]
      exact or_left_comm

theorem mem_setChild {key : κ} {child : PathTrie κ} {components : List (κ × PathTrie κ)}
    {entry : κ × PathTrie κ} (member : entry ∈ setChild key child components) :
    entry = (key, child) ∨ entry ∈ components := by
  induction components with
  | nil => exact Or.inl (List.mem_singleton.mp member)
  | cons first rest ih =>
    obtain ⟨other, old⟩ := first
    by_cases hit : other = key
    · rw [setChild, if_pos hit] at member
      exact (List.mem_cons.mp member).imp_right (List.mem_cons_of_mem _)
    · rw [setChild, if_neg hit] at member
      rcases List.mem_cons.mp member with rfl | later
      · exact Or.inr List.mem_cons_self
      · exact (ih later).imp_right (List.mem_cons_of_mem _)

theorem nodup_setChild (key : κ) (child : PathTrie κ) {components : List (κ × PathTrie κ)}
    (distinct : (components.map Prod.fst).Nodup) :
    ((setChild key child components).map Prod.fst).Nodup := by
  induction components with
  | nil => simp [setChild]
  | cons entry rest ih =>
    obtain ⟨first, old⟩ := entry
    rw [List.map_cons, List.nodup_cons] at distinct
    by_cases hit : first = key
    · subst hit
      simpa [setChild] using distinct
    · rw [setChild, if_neg hit, List.map_cons, List.nodup_cons, mem_keys_setChild]
      refine ⟨?_, ih distinct.2⟩
      rintro (same | inRest)
      · exact hit same
      · exact distinct.1 inRest

/-- In a node with distinct keys, an entry is what the lookup of its key finds. -/
theorem child?_eq_some_iff {trie : PathTrie κ} (distinct : (trie.components.map Prod.fst).Nodup)
    {key : κ} {child : PathTrie κ} :
    trie.child? key = some child ↔ (key, child) ∈ trie.components := by
  unfold child?
  revert distinct
  induction trie.components with
  | nil => simp
  | cons entry rest ih =>
    obtain ⟨first, old⟩ := entry
    intro distinct
    rw [List.map_cons, List.nodup_cons] at distinct
    rw [lookup_cons]
    by_cases same : key = first
    · subst same
      have outside : (key, child) ∉ rest := fun member =>
        distinct.1 (List.mem_map.mpr ⟨(key, child), member, rfl⟩)
      simp [outside, eq_comm]
    · rw [if_neg same, ih distinct.2]
      simp [same]

end Children

/-! ### Paths -/

section Paths

/-- The path leads from the node to a node of the trie. -/
def HasPath : PathTrie κ → List κ → Prop
  | _, [] => True
  | trie, key :: rest => ∃ child, trie.child? key = some child ∧ child.HasPath rest

/-- Insert a path: follow it from the node and make the nodes that are missing. -/
def insert : PathTrie κ → List κ → PathTrie κ
  | trie, [] => trie
  | .node isLeaf components, key :: rest =>
    .node isLeaf
      (setChild key (((components.lookup key).getD empty).insert rest) components)

@[simp] theorem hasPath_nil (trie : PathTrie κ) : trie.HasPath [] := trivial

theorem hasPath_cons (trie : PathTrie κ) (key : κ) (rest : List κ) :
    trie.HasPath (key :: rest) ↔ ∃ child, trie.child? key = some child ∧ child.HasPath rest :=
  Iff.rfl

theorem not_hasPath_empty (key : κ) (rest : List κ) :
    ¬ (empty : PathTrie κ).HasPath (key :: rest) := by
  rintro ⟨child, found, _⟩
  cases found

theorem hasPath_empty_iff (path : List κ) : (empty : PathTrie κ).HasPath path ↔ path = [] := by
  cases path with
  | nil => simp
  | cons key rest => simp [not_hasPath_empty]

theorem hasPath_of_extends {trie : PathTrie κ} {p q : List κ} (has : trie.HasPath q)
    (extension : p <+: q) : trie.HasPath p := by
  induction p generalizing trie q with
  | nil => trivial
  | cons key p ih =>
    obtain ⟨rest, rfl⟩ := extension
    obtain ⟨child, found, below⟩ := has
    exact ⟨child, found, ih below (List.prefix_append p rest)⟩

theorem insert_cons (trie : PathTrie κ) (key : κ) (rest : List κ) :
    trie.insert (key :: rest) = .node (match trie with | .node isLeaf _ => isLeaf)
      (setChild key (((trie.child? key).getD empty).insert rest) trie.components) := by
  cases trie
  rfl

theorem child?_insert_cons (trie : PathTrie κ) (key other : κ) (rest : List κ) :
    (trie.insert (key :: rest)).child? other =
      if other = key then some (((trie.child? key).getD empty).insert rest)
      else trie.child? other := by
  rw [insert_cons]
  exact lookup_setChild key other _ trie.components

/-- Insertion: **it adds the prefixes of the path and nothing else**. -/
theorem hasPath_insert (trie : PathTrie κ) (p q : List κ) :
    (trie.insert p).HasPath q ↔ trie.HasPath q ∨ q <+: p := by
  induction p generalizing trie q with
  | nil =>
    cases trie
    cases q <;> simp [insert]
  | cons key p ih =>
    cases q with
    | nil => simp
    | cons other q =>
      rw [hasPath_cons, child?_insert_cons]
      by_cases same : other = key
      · subst same
        simp only [if_true, Option.some.injEq, exists_eq_left', List.prefix_cons_inj, ih]
        cases found : trie.child? other with
        | none =>
          simp only [Option.getD_none, hasPath_empty_iff, hasPath_cons, found]
          constructor
          · rintro (rfl | extension)
            · exact Or.inr List.nil_prefix
            · exact Or.inr extension
          · rintro (⟨child, impossible, _⟩ | extension)
            · cases impossible
            · exact Or.inr extension
        | some child => simp [hasPath_cons, found]
      · have apart : ¬ other :: q <+: key :: p := fun extension =>
          same (List.cons_prefix_cons.mp extension).1
        simp [if_neg same, apart, hasPath_cons]

omit [DecidableEq κ] in
theorem plain_empty : (empty : PathTrie κ).Plain :=
  .node List.nodup_nil fun _ member => absurd member List.not_mem_nil

/-- Insertion makes no mark and keeps the keys of a node distinct. -/
theorem plain_insert {trie : PathTrie κ} (plain : trie.Plain) (p : List κ) :
    (trie.insert p).Plain := by
  induction p generalizing trie with
  | nil =>
    cases plain with
    | node distinct children => exact .node distinct children
  | cons key p ih =>
    cases plain with
    | node distinct children =>
      refine .node (nodup_setChild key _ distinct) fun entry member => ?_
      rcases mem_setChild member with rfl | old
      · refine ih ?_
        cases found : List.lookup key _ with
        | none => exact plain_empty
        | some child =>
          exact children _ ((@child?_eq_some_iff _ _ (.node false _) distinct _ _).mp found)
      · exact children entry old

/-- Insert a list of paths, one after the other. -/
def insertAll (trie : PathTrie κ) (paths : List (List κ)) : PathTrie κ := paths.foldl insert trie

/-- Insertion of a list: **the trie has the prefixes of the inserted paths, and what it had**. -/
theorem hasPath_insertAll (trie : PathTrie κ) (paths : List (List κ)) (q : List κ) :
    (trie.insertAll paths).HasPath q ↔ trie.HasPath q ∨ ∃ p ∈ paths, q <+: p := by
  induction paths generalizing trie with
  | nil => simp [insertAll]
  | cons p paths ih =>
    have step : trie.insertAll (p :: paths) = (trie.insert p).insertAll paths := rfl
    rw [step, ih, hasPath_insert, or_assoc, List.exists_mem_cons_iff]

theorem plain_insertAll {trie : PathTrie κ} (plain : trie.Plain) (paths : List (List κ)) :
    (trie.insertAll paths).Plain := by
  induction paths generalizing trie with
  | nil => exact plain
  | cons p paths ih => exact ih (plain_insert plain p)

end Paths

/-! ### The forced chain -/

section Chain

/-- The paths of the trie continue `q` with exactly one key. -/
def Forced (trie : PathTrie κ) (q : List κ) : Prop :=
  ∃ key, ∀ other, trie.HasPath (q ++ [other]) ↔ other = key

theorem hasPath_singleton {trie : PathTrie κ} (distinct : (trie.components.map Prod.fst).Nodup)
    (key : κ) : trie.HasPath [key] ↔ ∃ child, (key, child) ∈ trie.components := by
  simp [hasPath_cons, child?_eq_some_iff distinct]

theorem child?_single (isLeaf : Bool) (key other : κ) (child : PathTrie κ) :
    child? (.node isLeaf [(key, child)]) other = if other = key then some child else none :=
  lookup_cons key other child []

/-- Every path of the trie is comparable with the chain. -/
theorem chain_comparable (trie : PathTrie κ) (q : List κ) (has : trie.HasPath q) :
    q <+: trie.chain ∨ trie.chain <+: q := by
  induction trie using chain.induct generalizing q with
  | case1 key child ih =>
    cases q with
    | nil => exact Or.inl List.nil_prefix
    | cons other q =>
      obtain ⟨found, lookup, below⟩ := has
      have same : other = key ∧ child = found := by
        rw [child?_single] at lookup
        by_cases equal : other = key
        · rw [if_pos equal] at lookup
          exact ⟨equal, Option.some.inj lookup⟩
        · rw [if_neg equal] at lookup
          cases lookup
      obtain ⟨rfl, rfl⟩ := same
      rw [chain, List.prefix_cons_inj, List.prefix_cons_inj]
      exact ih q below
  | case2 trie different =>
    rw [chain.eq_2 trie different]
    exact Or.inr List.nil_prefix

/-- Below its end the chain is continued in one way only. -/
theorem chain_forced (trie : PathTrie κ) (q : List κ) (below : q <+: trie.chain)
    (proper : q ≠ trie.chain) : trie.Forced q := by
  induction trie using chain.induct generalizing q with
  | case1 key child ih =>
    rw [chain] at below proper
    cases q with
    | nil =>
      refine ⟨key, fun other => ?_⟩
      rw [List.nil_append, hasPath_cons, child?_single]
      by_cases equal : other = key <;> simp [equal]
    | cons first q =>
      obtain ⟨rfl, below'⟩ := List.cons_prefix_cons.mp below
      obtain ⟨next, unique⟩ := ih q below' fun same => proper (by rw [same])
      refine ⟨next, fun other => ?_⟩
      rw [List.cons_append, hasPath_cons, child?_single, if_pos rfl]
      simpa using unique other
  | case2 trie different =>
    rw [chain.eq_2 trie different] at below proper
    exact absurd (List.prefix_nil.mp below) proper

/-- The end: **at the end of its chain a plain trie has no child or at least two**. -/
theorem chain_stops {trie : PathTrie κ} (plain : trie.Plain) : ¬ trie.Forced trie.chain := by
  induction trie using chain.induct with
  | case1 key child ih =>
    have childPlain : child.Plain := plain.child (key, child) List.mem_cons_self
    rintro ⟨next, unique⟩
    refine ih childPlain ⟨next, fun other => ?_⟩
    rw [← unique other, chain, List.cons_append, hasPath_cons]
    simp [child?_single]
  | case2 trie different =>
    rw [chain.eq_2 trie different]
    rintro ⟨next, unique⟩
    cases plain with
    | @node components distinct children =>
      have keys : ∀ entry ∈ components, entry.1 = next := fun entry member =>
        (unique entry.1).mp
          ((@hasPath_singleton _ _ (.node false components) distinct entry.1).mpr
            ⟨entry.2, member⟩)
      match components, distinct, keys, unique, different with
      | [], _, _, unique, _ =>
        exact not_hasPath_empty next [] ((unique next).mpr rfl)
      | [(key, child)], _, _, _, different => exact different key child rfl
      | first :: second :: rest, distinct, keys, _, _ =>
        have same : first.1 = second.1 :=
          (keys first (by simp)).trans (keys second (by simp)).symm
        simp [same] at distinct

end Chain

/-! ### The chains from the root -/

section Longest

theorem hasPath_chain {trie : PathTrie κ} : trie.HasPath trie.chain := by
  induction trie using chain.induct with
  | case1 key child ih =>
    rw [chain, hasPath_cons, child?_single, if_pos rfl]
    exact ⟨child, rfl, ih⟩
  | case2 trie different =>
    rw [chain.eq_2 trie different]
    exact hasPath_nil trie

theorem hasPath_of_mem_longest {trie : PathTrie κ} (plain : trie.Plain) {path : List κ}
    (member : path ∈ trie.longest) : trie.HasPath path := by
  obtain ⟨⟨key, child⟩, entry, rfl⟩ := List.mem_map.mp member
  exact ⟨child, (child?_eq_some_iff plain.distinct).mpr entry, hasPath_chain⟩

theorem hasPath_append_iff {trie child : PathTrie κ} {key : κ} (found : trie.child? key = some child)
    (q : List κ) (other : κ) :
    trie.HasPath (key :: q ++ [other]) ↔ child.HasPath (q ++ [other]) := by
  rw [List.cons_append, hasPath_cons, found]
  simp

/-- A chain from the root ends where a plain trie does not go on in exactly one way. -/
theorem not_forced_of_mem_longest {trie : PathTrie κ} (plain : trie.Plain) {path : List κ}
    (member : path ∈ trie.longest) : ¬trie.Forced path := by
  obtain ⟨⟨key, child⟩, entry, rfl⟩ := List.mem_map.mp member
  have found := (child?_eq_some_iff plain.distinct).mpr entry
  rintro ⟨next, unique⟩
  refine chain_stops (plain.child _ entry) ⟨next, fun other => ?_⟩
  rw [← unique other]
  exact (hasPath_append_iff found _ other).symm

/-- A chain from the root is comparable with every path that starts with the same key. -/
theorem longest_comparable {trie : PathTrie κ} (plain : trie.Plain) {p q : List κ}
    (member : p ∈ trie.longest) (has : trie.HasPath q) (same : q.head? = p.head?) :
    q <+: p ∨ p <+: q := by
  obtain ⟨⟨key, child⟩, entry, rfl⟩ := List.mem_map.mp member
  obtain ⟨rest, rfl⟩ := List.head?_eq_some_iff.mp same
  obtain ⟨other, found, below⟩ := has
  rw [(child?_eq_some_iff plain.distinct).mpr entry] at found
  cases found
  rw [List.prefix_cons_inj, List.prefix_cons_inj]
  exact chain_comparable child rest below

/-- Coverage: **which paths extend a chain from the root**. In a plain trie a nonempty path of the
trie extends one of the chains exactly when one of its nonempty prefixes is not continued in exactly
one way. -/
theorem exists_longest_prefix_iff {trie : PathTrie κ} (plain : trie.Plain) {path : List κ}
    (nonempty : path ≠ []) (has : trie.HasPath path) :
    (∃ p ∈ trie.longest, p <+: path) ↔ ∃ q, q ≠ [] ∧ q <+: path ∧ ¬ trie.Forced q := by
  obtain ⟨key, rest, rfl⟩ := List.exists_cons_of_ne_nil nonempty
  obtain ⟨child, found, below⟩ := has
  have member := (child?_eq_some_iff plain.distinct).mp found
  have step := hasPath_append_iff found
  constructor
  · rintro ⟨p, inLongest, extension⟩
    refine ⟨p, ?_, extension, not_forced_of_mem_longest plain inLongest⟩
    obtain ⟨entry, _, rfl⟩ := List.mem_map.mp inLongest
    exact List.cons_ne_nil _ _
  · rintro ⟨q, qNonempty, extension, notForced⟩
    obtain ⟨first, q, rfl⟩ := List.exists_cons_of_ne_nil qNonempty
    obtain ⟨rfl, qBelow⟩ := List.cons_prefix_cons.mp extension
    refine ⟨first :: child.chain, List.mem_map.mpr ⟨(first, child), member, rfl⟩, ?_⟩
    rw [List.prefix_cons_inj]
    have childNotForced : ¬ child.Forced q := by
      rintro ⟨next, unique⟩
      exact notForced ⟨next, fun other => by rw [step, unique other]⟩
    rcases chain_comparable child q (hasPath_of_extends below qBelow) with inside | outside
    · by_cases equal : q = child.chain
      · exact equal ▸ qBelow
      · exact absurd (chain_forced child q inside equal) childNotForced
    · exact outside.trans qBelow

end Longest

end PathTrie
