/-
Lookups in a tree map whose order decides equality of keys.

Insertion and removal of a key change the lookup of that key and of no other, stated with an
equality of keys.
-/

import Mathlib.Data.List.Basic

namespace Lookup

variable {α β : Type} [Ord α] [Std.TransOrd α] [Std.LawfulEqOrd α] [DecidableEq α]

theorem getElem?_insert (map : Std.TreeMap α β) (key other : α) (value : β) :
    (map.insert key value)[other]? = if other = key then some value else map[other]? := by
  rw [Std.TreeMap.getElem?_insert]
  by_cases same : other = key
  · subst same
    rw [if_pos rfl, if_pos Std.ReflOrd.compare_self]
  · rw [if_neg same, if_neg fun equal => same (Std.LawfulEqOrd.eq_of_compare equal).symm]

theorem getElem?_erase (map : Std.TreeMap α β) (key other : α) :
    (map.erase key)[other]? = if other = key then none else map[other]? := by
  rw [Std.TreeMap.getElem?_erase]
  by_cases same : other = key
  · subst same
    rw [if_pos rfl, if_pos Std.ReflOrd.compare_self]
  · rw [if_neg same, if_neg fun equal => same (Std.LawfulEqOrd.eq_of_compare equal).symm]

omit [Std.LawfulEqOrd α] [DecidableEq α] in
theorem not_contains {map : Std.TreeMap α β} {key : α} (absent : map[key]? = none) :
    ¬map.contains key = true := by
  rw [Std.TreeMap.contains_eq_isSome_getElem?, absent]
  exact Bool.false_ne_true

end Lookup
