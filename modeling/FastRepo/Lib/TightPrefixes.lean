/-
Tight prefixes of a list of paths.

`Tight paths prefixes`: for each first key of the paths there is one prefix, as long as it can be.
It is comparable with every path of that key, and it ends at a path that no other path extends, or
where two paths part.

* `Tight.apart`: tight prefixes are not prefixes of each other.
* `Tight.unique`: the paths, in any order and number, determine the prefixes up to order.
* `PathTrie.tight_longest`: the chains from the root of a plain trie are tight.
* `PathTrie.longest_insertAll_perm`: inserting all paths on top of a trie that has no others gives
  the chains of a new trie.
-/

import FastRepo.Lib.PathTrie
import Mathlib.Data.List.Nodup

variable {κ α : Type}

/-- The prefixes are one for each first key of the paths, and cannot be lengthened. -/
structure Tight (paths prefixes : List (List κ)) : Prop where
  /-- No two prefixes have the same first key. -/
  distinct : (prefixes.map List.head?).Nodup
  /-- The first keys of the prefixes are those of the paths. -/
  firsts : ∀ first, first ∈ prefixes.map List.head? ↔ first ∈ paths.map List.head?
  within : ∀ p ∈ prefixes, ∃ n ∈ paths, p <+: n
  comparable : ∀ p ∈ prefixes, ∀ n ∈ paths, n.head? = p.head? → n <+: p ∨ p <+: n
  /-- A prefix is a path that no other path extends, or two paths extend it with different keys. -/
  ends : ∀ p ∈ prefixes, (p ∈ paths ∧ ∀ n ∈ paths, p <+: n → n = p) ∨
    ∃ c d, c ≠ d ∧ (∃ n ∈ paths, p ++ [c] <+: n) ∧ ∃ n ∈ paths, p ++ [d] <+: n

namespace Tight

variable {paths prefixes others : List (List κ)}

theorem head?_eq_of_extends {p n : List κ} (extension : p <+: n) (nonempty : p ≠ []) :
    n.head? = p.head? := by
  obtain ⟨rest, rfl⟩ := extension
  exact List.head?_append_of_ne_nil p nonempty

/-- A nonempty prefix has its first key from a path. -/
theorem nonempty (tight : Tight paths prefixes) (each : ∀ n ∈ paths, n ≠ []) :
    ∀ p ∈ prefixes, p ≠ [] := by
  rintro p member rfl
  obtain ⟨n, known, first⟩ := List.mem_map.mp
    ((tight.firsts none).mp (List.mem_map.mpr ⟨[], member, rfl⟩))
  exact each n known (List.head?_eq_none_iff.mp first)

/-- Apart: **no tight prefix is a prefix of another one**. -/
theorem apart (tight : Tight paths prefixes) (each : ∀ n ∈ paths, n ≠ []) :
    prefixes.Pairwise fun p q => ¬p <+: q ∧ ¬q <+: p := by
  have firsts : prefixes.Pairwise fun p q => p.head? ≠ q.head? := List.pairwise_map.mp tight.distinct
  refine firsts.imp_of_mem fun {p q} inside outside different => ⟨fun extension => ?_,
    fun extension => ?_⟩
  · exact different (head?_eq_of_extends extension (tight.nonempty each p inside)).symm
  · exact different (head?_eq_of_extends extension (tight.nonempty each q outside))

/-- A path does not go on from `q` with two keys. -/
theorem eq_of_prefixes {q n : List κ} {c d : κ} (one : q ++ [c] <+: n) (two : q ++ [d] <+: n) :
    c = d := by
  obtain ⟨rest, whole⟩ := one
  obtain ⟨other, rfl⟩ := two
  rw [List.append_assoc, List.append_assoc] at whole
  exact (List.cons.inj (List.append_cancel_left whole)).1

/-- A path that is comparable with two paths that part after `q` does not reach beyond `q`. -/
theorem prefix_of_parting {p q first second : List κ} {c d : κ} (different : c ≠ d)
    (one : q ++ [c] <+: first) (two : q ++ [d] <+: second) (left : first <+: p ∨ p <+: first)
    (right : second <+: p ∨ p <+: second) : p <+: q := by
  have short : ¬q ++ [c] <+: p := by
    intro beyond
    rcases right with below | above
    · exact different (eq_of_prefixes beyond (two.trans below))
    · exact different (eq_of_prefixes (beyond.trans above) two)
  have within : p <+: first := left.resolve_left fun below => short (one.trans below)
  have before : p <+: q ++ [c] :=
    (List.prefix_or_prefix_of_prefix within one).resolve_right short
  refine (List.prefix_concat_iff.mp before).resolve_left ?_
  rintro rfl
  exact short List.prefix_rfl

/-- A tight prefix of some paths reaches no further than one of the same paths with the same first
key. -/
theorem prefix_of_head? (each : ∀ n ∈ paths, n ≠ []) (tight : Tight paths prefixes)
    (other : Tight paths others) {p q : List κ} (member : p ∈ prefixes) (inside : q ∈ others)
    (same : p.head? = q.head?) : p <+: q := by
  obtain ⟨n, known, extension⟩ := tight.within p member
  have first := head?_eq_of_extends extension (tight.nonempty each p member)
  rcases other.ends q inside with ⟨_, last⟩ | ⟨c, d, different, ⟨one, knownOne, extendsOne⟩,
    ⟨two, knownTwo, extendsTwo⟩⟩
  · rcases other.comparable q inside n known (first.trans same) with below | above
    · exact extension.trans below
    · rw [← last n known above]
      exact extension
  · have reaches {n : List κ} {c : κ} (known : n ∈ paths) (beyond : q ++ [c] <+: n) :
        n <+: p ∨ p <+: n := by
      refine tight.comparable p member n known ?_
      rw [same]
      exact head?_eq_of_extends ((List.prefix_append q [c]).trans beyond)
        (other.nonempty each q inside)
    exact prefix_of_parting different extendsOne extendsTwo (reaches knownOne extendsOne)
      (reaches knownTwo extendsTwo)

/-- The paths may come in any order and any number of times. -/
theorem congr {other : List (List κ)} (tight : Tight paths prefixes)
    (same : ∀ n, n ∈ other ↔ n ∈ paths) : Tight other prefixes := by
  have firsts : ∀ first, first ∈ other.map List.head? ↔ first ∈ paths.map List.head? := by
    intro first
    simp only [List.mem_map, same]
  refine ⟨tight.distinct, fun first => (tight.firsts first).trans (firsts first).symm, ?_, ?_, ?_⟩
  · simpa only [same] using tight.within
  · simpa only [same] using tight.comparable
  · simpa only [same] using tight.ends

/-- Uniqueness: **the tight prefixes of a set of paths are the same up to order**. -/
theorem unique {other : List (List κ)} (each : ∀ n ∈ paths, n ≠ [])
    (tight : Tight paths prefixes) (tightOther : Tight other others)
    (same : ∀ n, n ∈ other ↔ n ∈ paths) : others.Perm prefixes := by
  have tightSame : Tight paths others := tightOther.congr fun n => (same n).symm
  have subset {prefixes others : List (List κ)} (tight : Tight paths prefixes)
      (other : Tight paths others) : ∀ p ∈ prefixes, p ∈ others := by
    intro p member
    have first := (other.firsts p.head?).mpr ((tight.firsts p.head?).mp (List.mem_map_of_mem member))
    obtain ⟨q, inside, equal⟩ := List.mem_map.mp first
    have there := prefix_of_head? each tight other member inside equal.symm
    have back := prefix_of_head? each other tight inside member equal
    rw [there.eq_of_length_le back.length_le]
    exact inside
  refine (List.perm_ext_iff_of_nodup (List.Nodup.of_map _ tightOther.distinct)
    (List.Nodup.of_map _ tight.distinct)).mpr fun p => ?_
  exact ⟨subset tightSame tight p, subset tight tightSame p⟩

/-- Tight prefixes of the images under an injective change of keys are images of tight prefixes. -/
theorem of_map {f : κ → α} (injective : Function.Injective f)
    (tight : Tight (paths.map (List.map f)) (prefixes.map (List.map f))) :
    Tight paths prefixes := by
  have heads (lists : List (List κ)) : (lists.map (List.map f)).map List.head? =
      (lists.map List.head?).map (Option.map f) := by
    rw [List.map_map, List.map_map]
    exact List.map_congr_left fun list _ => List.head?_map
  have image (lists : List (List κ)) (list : List κ) :
      list.map f ∈ lists.map (List.map f) ↔ list ∈ lists :=
    List.mem_map_of_injective (List.map_injective_iff.mpr injective)
  have inside {list : List κ} {lists : List (List κ)} (member : list ∈ lists) :
      list.map f ∈ lists.map (List.map f) := (image lists list).mpr member
  have extension (p n : List κ) : p.map f <+: n.map f ↔ p <+: n :=
    List.prefix_map_iff_of_injective injective
  have goesOn (p : List κ) (key : α) :
      (∃ n ∈ paths.map (List.map f), p.map f ++ [key] <+: n) →
        ∃ c, key = f c ∧ ∃ n ∈ paths, p ++ [c] <+: n := by
    rintro ⟨_, member, rest, whole⟩
    obtain ⟨n, known, rfl⟩ := List.mem_map.mp member
    obtain ⟨front, tail, rfl, reached, _⟩ := List.map_eq_append_iff.mp whole.symm
    obtain ⟨q, last, rfl, same, single⟩ := List.map_eq_append_iff.mp reached
    obtain ⟨c, rfl, rfl⟩ := List.map_eq_singleton_iff.mp single
    rw [← List.map_injective_iff.mpr injective same]
    exact ⟨c, rfl, _, known, List.prefix_append _ tail⟩
  refine ⟨?_, fun first => ?_, fun p member => ?_, fun p member n known same => ?_,
    fun p member => ?_⟩
  · have distinct := tight.distinct
    rw [heads] at distinct
    exact List.Nodup.of_map _ distinct
  · have firsts := tight.firsts (first.map f)
    rw [heads, heads] at firsts
    have optionInjective := Option.map_injective injective
    rwa [List.mem_map_of_injective optionInjective,
      List.mem_map_of_injective optionInjective] at firsts
  · obtain ⟨_, mapped, within⟩ := tight.within _ (inside member)
    obtain ⟨n, known, rfl⟩ := List.mem_map.mp mapped
    exact ⟨n, known, (extension p n).mp within⟩
  · have comparable := tight.comparable _ (inside member) _ (inside known) (by
      rw [List.head?_map, List.head?_map, same])
    rwa [extension, extension] at comparable
  · rcases tight.ends _ (inside member) with ⟨known, last⟩ | ⟨c, d, different, one, two⟩
    · refine Or.inl ⟨(image paths p).mp known, fun n there within => ?_⟩
      exact List.map_injective_iff.mpr injective
        (last _ (inside there) ((extension p n).mpr within))
    · obtain ⟨c, rfl, first⟩ := goesOn p c one
      obtain ⟨d, rfl, second⟩ := goesOn p d two
      exact Or.inr ⟨c, d, fun equal => different (congrArg f equal), first, second⟩

end Tight

namespace PathTrie

variable [DecidableEq κ]

/-- Chains: **the chains from the root of a plain trie are tight prefixes of the paths that were
inserted**. -/
theorem tight_longest {trie : PathTrie κ} (plain : trie.Plain) {paths : List (List κ)}
    (each : ∀ n ∈ paths, n ≠ [])
    (holds : ∀ q, trie.HasPath q ↔ q = [] ∨ ∃ n ∈ paths, q <+: n) : Tight paths trie.longest := by
  have heads : trie.longest.map List.head? = (trie.components.map Prod.fst).map some := by
    rw [longest, List.map_map, List.map_map]
    rfl
  have within : ∀ p ∈ trie.longest, ∃ n ∈ paths, p <+: n := by
    intro p member
    refine ((holds p).mp (hasPath_of_mem_longest plain member)).resolve_left ?_
    obtain ⟨entry, _, rfl⟩ := List.mem_map.mp member
    exact List.cons_ne_nil _ _
  have goesOn (p : List κ) (key : κ) :
      trie.HasPath (p ++ [key]) ↔ ∃ n ∈ paths, p ++ [key] <+: n := by
    rw [holds, or_iff_right (by simp)]
  refine ⟨?_, fun first => ?_, within, fun p member n known same => ?_, fun p member => ?_⟩
  · rw [heads]
    exact plain.distinct.map fun _ _ => Option.some.inj
  · rw [heads, List.map_map, List.mem_map, List.mem_map]
    constructor
    · rintro ⟨⟨key, child⟩, entry, rfl⟩
      obtain ⟨n, known, extension⟩ :=
        (goesOn [] key).mp ((hasPath_singleton plain.distinct key).mpr ⟨child, entry⟩)
      exact ⟨n, known, Tight.head?_eq_of_extends extension (by simp)⟩
    · rintro ⟨n, known, rfl⟩
      obtain ⟨key, rest, rfl⟩ := List.exists_cons_of_ne_nil (each n known)
      have has := (goesOn [] key).mpr ⟨_, known, List.prefix_append [key] rest⟩
      obtain ⟨child, entry⟩ := (hasPath_singleton plain.distinct key).mp has
      exact ⟨(key, child), entry, rfl⟩
  · exact longest_comparable plain member ((holds n).mpr (Or.inr ⟨n, known, List.prefix_rfl⟩)) same
  · by_cases stops : ∃ key, trie.HasPath (p ++ [key])
    · obtain ⟨c, has⟩ := stops
      have notForced := not_forced_of_mem_longest plain member
      have parts : ∃ d, d ≠ c ∧ trie.HasPath (p ++ [d]) := by
        by_contra! only
        refine notForced ⟨c, fun d => ⟨fun other => ?_, fun same => same ▸ has⟩⟩
        by_contra different
        exact only d different other
      obtain ⟨d, different, other⟩ := parts
      exact Or.inr ⟨c, d, different.symm, (goesOn p c).mp has, (goesOn p d).mp other⟩
    · have last : ∀ n ∈ paths, p <+: n → n = p := by
        rintro n known ⟨rest, rfl⟩
        cases rest with
        | nil => exact List.append_nil p
        | cons key rest =>
          refine absurd ⟨key, (goesOn p key).mpr ⟨_, known, rest, ?_⟩⟩ stops
          rw [List.append_assoc, List.singleton_append]
      obtain ⟨n, known, extension⟩ := within p member
      exact Or.inl ⟨last n known extension ▸ known, last⟩

/-- Insertion on top: **inserting paths into a plain trie that has no other paths gives the chains
that inserting them into the empty trie gives**. -/
theorem longest_insertAll_perm {trie : PathTrie κ} (plain : trie.Plain) {paths : List (List κ)}
    (old : ∀ q, trie.HasPath q → q = [] ∨ ∃ n ∈ paths, q <+: n) :
    (trie.insertAll paths).longest.Perm ((empty : PathTrie κ).insertAll paths).longest := by
  -- the empty paths insert nothing, and tight prefixes are prefixes of nonempty paths
  have each : ∀ n ∈ paths.filter (· ≠ []), n ≠ [] := fun n member => by
    simpa using (List.mem_filter.mp member).2
  have drop (q : List κ) : (q = [] ∨ ∃ n ∈ paths, q <+: n) ↔
      q = [] ∨ ∃ n ∈ paths.filter (· ≠ []), q <+: n := by
    by_cases nonempty : q = []
    · exact iff_of_true (Or.inl nonempty) (Or.inl nonempty)
    · rw [or_iff_right nonempty, or_iff_right nonempty]
      refine exists_congr fun n => ?_
      rw [List.mem_filter, decide_eq_true_iff]
      refine ⟨fun ⟨known, extension⟩ => ⟨⟨known, ?_⟩, extension⟩,
        fun ⟨known, extension⟩ => ⟨known.1, extension⟩⟩
      rintro rfl
      exact nonempty (List.prefix_nil.mp extension)
  have holds (q : List κ) : (trie.insertAll paths).HasPath q ↔
      q = [] ∨ ∃ n ∈ paths.filter (· ≠ []), q <+: n := by
    rw [hasPath_insertAll, ← drop]
    refine ⟨fun has => has.elim (old q) Or.inr, fun has => ?_⟩
    rcases has with rfl | inserted
    · exact Or.inl (hasPath_nil trie)
    · exact Or.inr inserted
  have holdsNew (q : List κ) : ((empty : PathTrie κ).insertAll paths).HasPath q ↔
      q = [] ∨ ∃ n ∈ paths.filter (· ≠ []), q <+: n := by
    rw [hasPath_insertAll, hasPath_empty_iff, drop]
  exact (tight_longest (plain_insertAll plain_empty paths) each holdsNew).unique each
    (tight_longest (plain_insertAll plain paths) each holds) fun _ => Iff.rfl

end PathTrie
