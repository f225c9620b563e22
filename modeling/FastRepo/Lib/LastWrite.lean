/-
Partial maps made by writes.

`write` puts a value under its own key, and `writeAll` does so for the values of a list, one after
the other. `writeAll_apply`: what is found under a key is the last value of the list with that key,
or what was there before.
-/

import Mathlib.Data.List.Induction
import Mathlib.Logic.Function.Basic

namespace LastWrite

variable {κ ν : Type} [DecidableEq κ] (key : ν → κ)

/-- Put a value under its key. -/
def write (store : κ → Option ν) (value : ν) : κ → Option ν :=
  Function.update store (key value) (some value)

/-- Put values under their keys, one after the other. -/
def writeAll (store : κ → Option ν) (values : List ν) : κ → Option ν :=
  values.foldl (write key) store

theorem writeAll_append (store : κ → Option ν) (first second : List ν) :
    writeAll key store (first ++ second) = writeAll key (writeAll key store first) second :=
  List.foldl_append

/-- Last writes: **what is found under a key is the last value with that key**, or what was there
before when no value has it. -/
theorem writeAll_apply (store : κ → Option ν) (values : List ν) (k : κ) :
    writeAll key store values k =
      ((values.filter fun value => key value = k).getLast?).or (store k) := by
  induction values using List.reverseRecOn with
  | nil => rfl
  | append_singleton values value ih =>
    rw [writeAll_append, List.filter_append]
    show Function.update (writeAll key store values) (key value) (some value) k = _
    by_cases same : key value = k
    · subst same
      simp
    · rw [Function.update_of_ne (Ne.symm same), ih]
      simp [same]

/-- Something is found under a key when a value has it, or when there was something before. -/
theorem isSome_writeAll (store : κ → Option ν) (values : List ν) (k : κ) :
    (writeAll key store values k).isSome = true ↔
      k ∈ values.map key ∨ (store k).isSome = true := by
  have last : ((values.filter fun value => key value = k).getLast?).isSome = true ↔
      k ∈ values.map key := by
    rw [Option.isSome_iff_ne_none, ne_eq, List.getLast?_eq_none_iff, List.filter_eq_nil_iff]
    simp
  rw [writeAll_apply, Option.isSome_or, Bool.or_eq_true, last]

/-- What is found was there before, or is one of the values. -/
theorem mem_of_writeAll {store : κ → Option ν} {values : List ν} {k : κ} {value : ν}
    (found : writeAll key store values k = some value) :
    (value ∈ values ∧ key value = k) ∨ store k = some value := by
  rw [writeAll_apply, Option.or_eq_some_iff] at found
  rcases found with last | ⟨_, before⟩
  · have member := List.mem_filter.mp (List.mem_of_getLast? last)
    exact Or.inl ⟨member.1, of_decide_eq_true member.2⟩
  · exact Or.inr before

end LastWrite
