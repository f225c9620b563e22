/-
Prefix runs in a lexicographic key order.

Keys are lists over an ordered alphabet, compared lexicographically, and a table is a list of
entries in strictly increasing key order.

* `prefix_of_between`: the keys between `p` and an extension of `p` extend `p` as well, so the
  keys with a common prefix are one contiguous run.
* `takeWhile_seek`: the run that starts at the first key `≥ p` and goes on while the keys extend
  `p` is exactly the list of all entries whose key extends `p`.
* `isGreatestKey_of_getLast?`: the last of the entries that pass a test has the greatest key
  among them.
-/

import Mathlib.Data.List.Basic
import Mathlib.Data.List.Infix

namespace PrefixRun

/-! ### The order of the keys -/

section Order

variable {α : Type} [Ord α]

theorem compare_cons (a b : α) (k l : List α) :
    compare (a :: k) (b :: l) = (compare a b).then (compare k l) :=
  List.compareLex_cons_cons

variable [Std.TransOrd α]

/-- A common beginning does not count. -/
theorem compare_append_left (p k l : List α) : compare (p ++ k) (p ++ l) = compare k l := by
  induction p with
  | nil => rfl
  | cons a p ih =>
    have head : compare a a = .eq := Std.ReflOrd.compare_self
    rw [List.cons_append, List.cons_append, compare_cons, head]
    exact ih

/-- A prefix does not come after its extensions. -/
theorem isLE_of_extends {p k : List α} (extension : p <+: k) : (compare p k).isLE := by
  obtain ⟨rest, rfl⟩ := extension
  induction p with
  | nil => cases rest <;> rfl
  | cons a p ih =>
    have head : compare a a = .eq := Std.ReflOrd.compare_self
    rw [List.cons_append, compare_cons, head]
    exact ih

variable [Std.LawfulEqOrd α]

/-- Convexity: **a key between `p` and an extension of `p` extends `p`**. -/
theorem prefix_of_between {p k l : List α} (extension : p <+: l) (above : (compare p k).isLE)
    (below : (compare k l).isLE) : p <+: k := by
  induction p generalizing k l with
  | nil => exact List.nil_prefix
  | cons a p ih =>
    obtain ⟨rest, rfl⟩ := extension
    cases k with
    | nil => cases above
    | cons b k =>
      rw [compare_cons, Ordering.isLE_then_iff_and] at above
      rw [List.cons_append, compare_cons, Ordering.isLE_then_iff_and] at below
      have same : a = b :=
        Std.LawfulEqOrd.eq_of_compare (Std.OrientedCmp.isLE_antisymm above.1 below.1)
      subst same
      have head : compare a a = .eq := Std.ReflOrd.compare_self
      rw [head] at above below
      have inner : p <+: k := ih (List.prefix_append p rest) (by simpa using above)
        (by simpa using below)
      exact (List.prefix_cons_inj a).mpr inner

end Order

/-! ### Tables in key order -/

section Table

variable {α β : Type} [Ord α] [BEq α]

/-- The entries in strictly increasing key order. -/
def Ordered (entries : List (List α × β)) : Prop :=
  entries.Pairwise fun first second => compare first.1 second.1 = .lt

/-- The key of the entry starts with `p`. -/
def startsWith (p : List α) (entry : List α × β) : Bool :=
  p.isPrefixOf entry.1

/-- The key of the entry is below the target. -/
def isBelow (target : List α) (entry : List α × β) : Bool :=
  (compare entry.1 target).isLT

/-- The iterator position at the first key that is not below the target. -/
def seek (target : List α) (entries : List (List α × β)) : List (List α × β) :=
  entries.dropWhile (isBelow target)

/-- The entry has the greatest key among the entries of the table that pass the test. -/
structure IsGreatestKey (entries : List (List α × β)) (pass : List α → Prop)
    (entry : List α × β) : Prop where
  member : entry ∈ entries
  passes : pass entry.1
  greatest : ∀ other ∈ entries, pass other.1 → (compare other.1 entry.1).isLE

variable [Std.TransOrd α] [Std.LawfulEqOrd α] [LawfulBEq α]

/-- From a key `≥ p` on, taking while the keys extend `p` loses no extension of `p`. -/
theorem takeWhile_of_above (p : List α) (entries : List (List α × β)) (ordered : Ordered entries)
    (above : ∀ entry ∈ entries, (compare p entry.1).isLE) :
    entries.takeWhile (startsWith p) = entries.filter (startsWith p) := by
  induction entries with
  | nil => rfl
  | cons entry rest ih =>
    have ordered' := List.pairwise_cons.mp ordered
    by_cases extension : startsWith p entry = true
    · rw [List.takeWhile_cons_of_pos extension, List.filter_cons_of_pos extension,
        ih ordered'.2 fun other member => above other (List.mem_cons_of_mem _ member)]
    · rw [List.takeWhile_cons_of_neg extension, List.filter_cons_of_neg extension]
      refine (List.filter_eq_nil_iff.mpr fun other member later => extension ?_).symm
      have below : (compare entry.1 other.1).isLE := by
        rw [ordered'.1 other member]
        rfl
      exact List.isPrefixOf_iff_prefix.mpr (prefix_of_between
        (List.isPrefixOf_iff_prefix.mp later) (above entry List.mem_cons_self) below)

/-- The prefix run: **seeking to `p` and iterating while the keys extend `p` visits exactly
the entries whose key extends `p`**. -/
theorem takeWhile_seek (p : List α) (entries : List (List α × β)) (ordered : Ordered entries) :
    (seek p entries).takeWhile (startsWith p) = entries.filter (startsWith p) := by
  induction entries with
  | nil => rfl
  | cons entry rest ih =>
    have ordered' := List.pairwise_cons.mp ordered
    by_cases before : isBelow p entry = true
    · have noExtension : ¬ startsWith p entry = true := by
        intro extension
        have le := isLE_of_extends (List.isPrefixOf_iff_prefix.mp extension)
        rw [Std.OrientedOrd.eq_swap, Ordering.isLT_iff_eq_lt.mp before] at le
        cases le
      rw [List.filter_cons_of_neg noExtension, ← ih ordered'.2, seek,
        List.dropWhile_cons_of_pos before, seek]
    · rw [seek, List.dropWhile_cons_of_neg before]
      have here : (compare p entry.1).isLE := by
        rw [Std.OrientedOrd.eq_swap]
        unfold isBelow at before
        revert before
        cases compare entry.1 p <;> decide
      refine takeWhile_of_above p _ ordered fun other member => ?_
      rcases List.mem_cons.mp member with rfl | later
      · exact here
      · exact Std.TransCmp.isLE_trans here (by rw [ordered'.1 other later]; rfl)

omit [BEq α] [Std.LawfulEqOrd α] [LawfulBEq α] in
/-- The last entry of an ordered table is the greatest. -/
theorem greatest_of_getLast? {entries : List (List α × β)} (ordered : Ordered entries)
    {entry : List α × β} (last : entries.getLast? = some entry) :
    ∀ other ∈ entries, (compare other.1 entry.1).isLE := by
  obtain ⟨init, rfl⟩ := List.getLast?_eq_some_iff.mp last
  intro other member
  rcases List.mem_append.mp member with earlier | same
  · have below := (List.pairwise_append.mp ordered).2.2 other earlier entry (by simp)
    rw [below]
    rfl
  · rw [List.mem_singleton.mp same, Std.ReflOrd.compare_self]
    rfl

omit [BEq α] [Std.LawfulEqOrd α] [LawfulBEq α] in
/-- Last wins: **the last of the entries that pass the test has the greatest key among
them**. -/
theorem isGreatestKey_of_getLast? {entries : List (List α × β)} (ordered : Ordered entries)
    {pass : List α → Bool} {entry : List α × β}
    (last : (entries.filter fun entry => pass entry.1).getLast? = some entry) :
    IsGreatestKey entries (fun key => pass key = true) entry := by
  have inside := List.mem_of_getLast? last
  have greatest := greatest_of_getLast? (List.Pairwise.filter _ ordered) last
  exact ⟨(List.mem_filter.mp inside).1, (List.mem_filter.mp inside).2,
    fun other member passes => greatest other (List.mem_filter.mpr ⟨member, passes⟩)⟩

end Table

end PrefixRun
