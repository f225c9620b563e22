/-
Registering paths unless they are covered.

A register is a list of paths. A path is covered when some registered path is a prefix of it, and
`add` registers a path that is not covered yet.

* `covered_addAll`: every path that was offered is covered in the end.
* `pairwise_addAll_iff`: the registered paths are pairwise incomparable exactly when the initial
  ones are and every path offered later comes after its prefixes or without any of its extensions.
* `matching_le_one_iff`: exactly then at most one of them is a prefix of a given path.
-/

import Mathlib.Data.List.Basic
import Mathlib.Data.List.Infix
import Mathlib.Data.List.Induction

namespace PrefixCover

variable {α : Type} [DecidableEq α]

/-- Neither path is a prefix of the other. -/
def Incomparable (p q : List α) : Prop := ¬ p <+: q ∧ ¬ q <+: p

omit [DecidableEq α] in
theorem Incomparable.symm {p q : List α} (apart : Incomparable p q) : Incomparable q p :=
  ⟨apart.2, apart.1⟩

instance (p q : List α) : Decidable (Incomparable p q) :=
  inferInstanceAs (Decidable (¬ p <+: q ∧ ¬ q <+: p))

/-- Some registered path is a prefix of the path. -/
def Covered (known : List (List α)) (path : List α) : Prop := ∃ p ∈ known, p <+: path

instance (known : List (List α)) (path : List α) : Decidable (Covered known path) :=
  inferInstanceAs (Decidable (∃ p ∈ known, p <+: path))

/-- Register a path unless it is covered. -/
def add (known : List (List α)) (path : List α) : List (List α) :=
  if Covered known path then known else known ++ [path]

/-- Offer a list of paths, one after the other. -/
def addAll (known paths : List (List α)) : List (List α) := paths.foldl add known

/-! ### Coverage -/

section Coverage

omit [DecidableEq α] in
theorem Covered.mono {known more : List (List α)} {path : List α} (covered : Covered known path) :
    Covered (known ++ more) path := by
  obtain ⟨p, member, extension⟩ := covered
  exact ⟨p, List.mem_append_left _ member, extension⟩

omit [DecidableEq α] in
theorem Covered.of_extends {known : List (List α)} {p path : List α} (covered : Covered known p)
    (extension : p <+: path) : Covered known path := by
  obtain ⟨q, member, first⟩ := covered
  exact ⟨q, member, first.trans extension⟩

theorem covered_add_self (known : List (List α)) (path : List α) : Covered (add known path) path := by
  unfold add
  split
  · assumption
  · exact ⟨path, by simp, List.prefix_rfl⟩

theorem covered_add {known : List (List α)} {path : List α} (covered : Covered known path)
    (offered : List α) : Covered (add known offered) path := by
  unfold add
  split
  · exact covered
  · exact covered.mono

theorem mem_add {known : List (List α)} {path p : List α} :
    p ∈ add known path → p ∈ known ∨ p = path := by
  unfold add
  split
  · exact Or.inl
  · intro member
    exact (List.mem_append.mp member).imp_right List.mem_singleton.mp

@[simp] theorem addAll_nil (known : List (List α)) : addAll known [] = known := rfl

theorem addAll_concat (known paths : List (List α)) (path : List α) :
    addAll known (paths ++ [path]) = add (addAll known paths) path := by
  rw [addAll, List.foldl_append]
  rfl

/-- Coverage: **every path that was there or was offered is covered in the end**. -/
theorem covered_addAll {known paths : List (List α)} {path : List α}
    (offered : path ∈ known ++ paths) : Covered (addAll known paths) path := by
  induction paths using List.reverseRecOn with
  | nil => exact ⟨path, by simpa using offered, List.prefix_rfl⟩
  | append_singleton paths last ih =>
    rw [addAll_concat]
    rw [← List.append_assoc] at offered
    rcases List.mem_append.mp offered with before | same
    · exact covered_add (ih before) last
    · rw [List.mem_singleton.mp same]
      exact covered_add_self _ last

/-- Nothing else is registered. -/
theorem mem_of_mem_addAll {known paths : List (List α)} {p : List α}
    (member : p ∈ addAll known paths) : p ∈ known ++ paths := by
  induction paths using List.reverseRecOn with
  | nil => simpa using member
  | append_singleton paths last ih =>
    rw [addAll_concat] at member
    rw [← List.append_assoc]
    rcases mem_add member with before | rfl
    · exact List.mem_append_left _ (ih before)
    · simp

/-- What is covered in the end is what was covered by the paths that were there or offered. -/
theorem covered_addAll_iff (known paths : List (List α)) (path : List α) :
    Covered (addAll known paths) path ↔ Covered (known ++ paths) path := by
  constructor
  · rintro ⟨p, member, extension⟩
    exact ⟨p, mem_of_mem_addAll member, extension⟩
  · rintro ⟨p, member, extension⟩
    exact (covered_addAll member).of_extends extension

omit [DecidableEq α] in
theorem covered_append {known more : List (List α)} {path : List α} :
    Covered (known ++ more) path ↔ Covered known path ∨ Covered more path := by
  simp [Covered, or_and_right, exists_or]

end Coverage

/-! ### Incomparable registers -/

section Apart

/-- Offered after the paths of `before`, the path has one of them as a prefix or extends none of
them. -/
def ComesInOrder (before : List (List α)) (path : List α) : Prop :=
  Covered before path ∨ ∀ p ∈ before, ¬ path <+: p

instance (before : List (List α)) (path : List α) : Decidable (ComesInOrder before path) :=
  inferInstanceAs (Decidable (Covered before path ∨ ∀ p ∈ before, ¬ path <+: p))

/-- Each offered path comes in order after the paths before it. -/
def AllInOrder (known paths : List (List α)) : Prop :=
  ∀ before path, before ++ [path] <+: paths → ComesInOrder (known ++ before) path

omit [DecidableEq α] in
theorem allInOrder_concat (known paths : List (List α)) (path : List α) :
    AllInOrder known (paths ++ [path]) ↔
      AllInOrder known paths ∧ ComesInOrder (known ++ paths) path := by
  constructor
  · intro inOrder
    exact ⟨fun before other within => inOrder before other (within.trans (List.prefix_append _ _)),
      inOrder paths path List.prefix_rfl⟩
  · rintro ⟨inOrder, last⟩ before other within
    rcases List.prefix_concat_iff.mp within with whole | inside
    · obtain ⟨rfl, same⟩ := List.append_inj' whole rfl
      cases same
      exact last
    · exact inOrder before other inside

/-- Registering one more path keeps a register incomparable exactly when it comes in order. -/
theorem pairwise_add_iff {known : List (List α)} (apart : known.Pairwise Incomparable)
    (path : List α) : (add known path).Pairwise Incomparable ↔ ComesInOrder known path := by
  unfold add ComesInOrder
  by_cases covered : Covered known path
  · simp [covered, apart]
  · rw [if_neg covered, List.pairwise_append]
    constructor
    · rintro ⟨_, _, cross⟩
      exact Or.inr fun p member => (cross p member path (by simp)).2
    · rintro (impossible | free)
      · exact absurd impossible covered
      · refine ⟨apart, List.pairwise_singleton _ _, fun p member q last => ?_⟩
        rw [List.mem_singleton.mp last]
        exact ⟨fun extension => covered ⟨p, member, extension⟩, free p member⟩

/-- A path that is offered comes in order after the register exactly when it does after all paths
that were offered. -/
theorem comesInOrder_addAll_iff (known paths : List (List α)) (path : List α) :
    ComesInOrder (addAll known paths) path ↔ ComesInOrder (known ++ paths) path := by
  unfold ComesInOrder
  rw [covered_addAll_iff]
  refine or_congr_right' fun notCovered => ⟨fun free p offered extension => ?_, fun free p member =>
    free p (mem_of_mem_addAll member)⟩
  -- the registered prefix of `p` is comparable with the path
  obtain ⟨q, member, below⟩ := covered_addAll offered
  rcases List.prefix_or_prefix_of_prefix below extension with covers | above
  · exact notCovered ⟨q, mem_of_mem_addAll member, covers⟩
  · exact free q member above

/-- Incomparability: **a register stays incomparable exactly when it starts so and every path comes
in order**. -/
theorem pairwise_addAll_iff (known paths : List (List α)) :
    (addAll known paths).Pairwise Incomparable ↔
      known.Pairwise Incomparable ∧ AllInOrder known paths := by
  induction paths using List.reverseRecOn with
  | nil => simp [AllInOrder]
  | append_singleton paths last ih =>
    rw [addAll_concat, allInOrder_concat, ← and_assoc, ← ih, ← comesInOrder_addAll_iff]
    constructor
    · intro apart
      have before : (addAll known paths).Pairwise Incomparable := by
        unfold add at apart
        split at apart
        · exact apart
        · exact (List.pairwise_append.mp apart).1
      exact ⟨before, (pairwise_add_iff before last).mp apart⟩
    · rintro ⟨before, inOrder⟩
      exact (pairwise_add_iff before last).mpr inOrder

end Apart

/-! ### Matches -/

section Matches

/-- The registered paths that are a prefix of the path. -/
def matching (known : List (List α)) (path : List α) : List (List α) :=
  known.filter fun p => p.isPrefixOf path

theorem matching_le_one {known : List (List α)} (apart : known.Pairwise Incomparable)
    (path : List α) : (matching known path).length ≤ 1 := by
  have apart' : (matching known path).Pairwise Incomparable := apart.filter _
  have prefixes : ∀ p ∈ matching known path, p <+: path := fun p member =>
    List.isPrefixOf_iff_prefix.mp (List.mem_filter.mp member).2
  match found : matching known path with
  | [] => simp
  | [p] => simp
  | p :: q :: rest =>
    rw [found] at apart' prefixes
    have cross := (List.pairwise_cons.mp apart').1 q (by simp)
    rcases List.prefix_or_prefix_of_prefix (prefixes p (by simp)) (prefixes q (by simp)) with
      below | above
    · exact absurd below cross.1
    · exact absurd above cross.2

/-- Two comparable paths are both prefixes of the longer one. -/
theorem matching_le_one_iff (known : List (List α)) :
    (∀ path, (matching known path).length ≤ 1) ↔ known.Pairwise Incomparable := by
  refine ⟨fun one => ?_, matching_le_one⟩
  induction known with
  | nil => exact List.Pairwise.nil
  | cons p known ih =>
    refine List.pairwise_cons.mpr ⟨fun q member => ?_, ih fun path => ?_⟩
    · have both : ∀ path, p <+: path → q <+: path → False := by
        intro path first second
        have only := one path
        have inside : q ∈ matching known path :=
          List.mem_filter.mpr ⟨member, List.isPrefixOf_iff_prefix.mpr second⟩
        unfold matching at only inside
        rw [List.filter_cons, if_pos (List.isPrefixOf_iff_prefix.mpr first), List.length_cons] at only
        have some := List.length_pos_of_mem inside
        omega
      exact ⟨fun below => both q below List.prefix_rfl, fun above => both p List.prefix_rfl above⟩
    · have sublist : (matching known path).Sublist (matching (p :: known) path) :=
        (List.sublist_cons_self p known).filter _
      exact sublist.length_le.trans (one path)

end Matches

end PrefixCover
