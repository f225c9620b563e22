/-
Sums over the values of a map.

`valueSum weight map` adds up the weights of the values of a tree map. An insertion changes it by
the weight of the new value and that of the value it replaces: `valueSum_insert`.
-/

import FastRepo.Lib.Lookup
import Mathlib.Algebra.BigOperators.Group.List.Basic
import Mathlib.Algebra.Ring.Nat

namespace ValueSum

variable {α β : Type} [Ord α] [Std.TransOrd α] [Std.LawfulEqOrd α] [DecidableEq α]

/-- The sum of the weights of the values. -/
def valueSum (weight : β → Nat) (map : Std.TreeMap α β) : Nat :=
  (map.toList.map fun entry => weight entry.2).sum

/-- What a key adds to the sum: the weight of its value, if it has one. -/
def weightAt (weight : β → Nat) (map : Std.TreeMap α β) (key : α) : Nat :=
  (map[key]?.map weight).getD 0

/-- The weights of the entries under the other keys. -/
def otherSum (weight : β → Nat) (map : Std.TreeMap α β) (key : α) : Nat :=
  ((map.toList.filter fun entry => ¬key == entry.1).map fun entry => weight entry.2).sum

/-- After an insertion the sum is the new weight and those of the other keys. -/
theorem valueSum_insert_eq (weight : β → Nat) (map : Std.TreeMap α β) (key : α) (value : β) :
    valueSum weight (map.insert key value) = weight value + otherSum weight map key := by
  have entries := (Std.TreeMap.toList_insert_perm (t := map) (k := key) (v := value)).map
    fun entry => weight entry.2
  rw [valueSum, entries.sum_eq, List.map_cons, List.sum_cons]
  rfl

/-- Each key has its share of the sum. -/
theorem valueSum_eq (weight : β → Nat) (map : Std.TreeMap α β) (key : α) :
    valueSum weight map = weightAt weight map key + otherSum weight map key := by
  cases found : map[key]? with
  | some value =>
    -- inserting the value that is there changes nothing
    have same : (map.insert key value).toList = map.toList := by
      refine Std.TreeMap.Equiv.toList_eq (Std.TreeMap.Equiv.of_forall_constGet?_eq fun other => ?_)
      rw [Lookup.getElem?_insert]
      split
      · rename_i equal
        rw [equal, found]
      · rfl
    have whole := valueSum_insert_eq weight map key value
    rw [valueSum, same] at whole
    rw [weightAt, found]
    exact whole
  | none =>
    have others : (map.toList.filter fun entry => ¬key == entry.1) = map.toList := by
      refine List.filter_eq_self.mpr fun entry member => ?_
      have stored := Std.TreeMap.mem_toList_iff_getElem?_eq_some.mp member
      have differ : key ≠ entry.1 := by
        rintro rfl
        rw [found] at stored
        cases stored
      simpa using differ
    rw [weightAt, found, otherSum, others, valueSum]
    exact (Nat.zero_add _).symm

/-- Insertion: **the sum grows by the weight of the new value and loses that of the value which is
replaced**. -/
theorem valueSum_insert (weight : β → Nat) (map : Std.TreeMap α β) (key : α) (value : β) :
    valueSum weight (map.insert key value) + weightAt weight map key =
      valueSum weight map + weight value := by
  rw [valueSum_insert_eq, valueSum_eq weight map key]
  omega

end ValueSum
