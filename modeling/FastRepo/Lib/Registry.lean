/-
A registry: a partial map that is changed by requests, each of which has an outcome.

A request adds a value under a key or removes a key. It may be malformed, and a well-formed request
to add may ask for a value nobody knows.

* `apply_of_refused`: a request that is refused changes nothing.
* `outcome_eq_added`, `outcome_eq_removed`: what was asked, and what it did, when it was accepted.
* `outcome_eq_malformed_iff`: only a request that is malformed is refused as such.
-/

import Mathlib.Logic.Function.Basic

namespace Registry

variable {κ ν : Type}

/-- A partial map. -/
abbrev Table (κ ν : Type) := κ → Option ν

/-- A request; `none` in place of the whole of it is malformed, and `none` in place of the value to
add is unknown. -/
inductive Request (κ ν : Type) where
  | add (entry : Option (κ × Option ν))
  | remove (key : Option κ)
deriving DecidableEq

/-- What becomes of a request. -/
inductive Outcome where
  | malformed
  | taken
  | unknown
  | added
  | absent
  | removed
deriving DecidableEq

/-- The request changes the table. -/
def Outcome.Accepts : Outcome → Prop
  | .added | .removed => True
  | _ => False

namespace Request

/-- The key a request is about. -/
def key : Request κ ν → Option κ
  | .add entry => entry.map Prod.fst
  | .remove key => key

/-- The outcome of a request. -/
def outcome (table : Table κ ν) : Request κ ν → Outcome
  | .add none => .malformed
  | .add (some (key, value)) =>
    if (table key).isSome then .taken else if value.isSome then .added else .unknown
  | .remove none => .malformed
  | .remove (some key) => if (table key).isSome then .removed else .absent

variable [DecidableEq κ]

/-- The table after a request. -/
def apply (table : Table κ ν) : Request κ ν → Table κ ν
  | .add (some (key, some value)) =>
    if (table key).isSome then table else Function.update table key (some value)
  | .remove (some key) => Function.update table key none
  | _ => table

/-- A request that is refused changes nothing. -/
theorem apply_of_refused {table : Table κ ν} {request : Request κ ν}
    (refused : ¬(request.outcome table).Accepts) : request.apply table = table := by
  rcases request with (_ | ⟨key, _ | value⟩) | (_ | key)
  · rfl
  · rfl
  · show (if (table key).isSome then table else Function.update table key (some value)) = table
    split
    · rfl
    · rename_i free
      simp [outcome, free, Outcome.Accepts] at refused
  · rfl
  · cases held : table key with
    | none =>
      funext other
      by_cases same : other = key
      · rw [same, held]
        exact Function.update_self _ _ _
      · exact Function.update_of_ne same _ _
    | some value => simp [outcome, held, Outcome.Accepts] at refused

omit [DecidableEq κ] in
theorem outcome_eq_added {table : Table κ ν} {request : Request κ ν}
    (added : request.outcome table = .added) :
    ∃ key value, request = .add (some (key, some value)) ∧ table key = none := by
  rcases request with (_ | ⟨key, _ | value⟩) | (_ | key)
  · cases added
  · cases held : table key <;> simp [outcome, held] at added
  · cases held : table key with
    | none => exact ⟨key, value, rfl, held⟩
    | some other => simp [outcome, held] at added
  · cases added
  · cases held : table key <;> simp [outcome, held] at added

omit [DecidableEq κ] in
theorem outcome_eq_removed {table : Table κ ν} {request : Request κ ν}
    (removed : request.outcome table = .removed) :
    ∃ key value, request = .remove (some key) ∧ table key = some value := by
  rcases request with (_ | ⟨key, _ | value⟩) | (_ | key)
  · cases removed
  · cases held : table key <;> simp [outcome, held] at removed
  · cases held : table key <;> simp [outcome, held] at removed
  · cases removed
  · cases held : table key with
    | none => simp [outcome, held] at removed
    | some value => exact ⟨key, value, rfl, held⟩

omit [DecidableEq κ] in
theorem outcome_eq_malformed_iff {table : Table κ ν} {request : Request κ ν} :
    request.outcome table = .malformed ↔ request = .add none ∨ request = .remove none := by
  rcases request with (_ | ⟨key, _ | value⟩) | (_ | key)
  · simp [outcome]
  · cases held : table key <;> simp [outcome, held]
  · cases held : table key <;> simp [outcome, held]
  · simp [outcome]
  · cases held : table key <;> simp [outcome, held]

end Request

/-! ### Sequences of requests -/

variable [DecidableEq κ]

/-- The table after a sequence of requests. -/
def applyAll (table : Table κ ν) (requests : List (Request κ ν)) : Table κ ν :=
  requests.foldl (fun table request => request.apply table) table

@[simp] theorem applyAll_nil (table : Table κ ν) : applyAll table [] = table := rfl

@[simp] theorem applyAll_concat (table : Table κ ν) (requests : List (Request κ ν))
    (request : Request κ ν) :
    applyAll table (requests ++ [request]) = request.apply (applyAll table requests) := by
  simp [applyAll]

/-- The outcomes of a sequence of requests, each in the table the ones before it left. -/
def outcomes : Table κ ν → List (Request κ ν) → List Outcome
  | _, [] => []
  | table, request :: rest => request.outcome table :: outcomes (request.apply table) rest

@[simp] theorem length_outcomes (table : Table κ ν) (requests : List (Request κ ν)) :
    (outcomes table requests).length = requests.length := by
  induction requests generalizing table with
  | nil => rfl
  | cons request rest ih =>
    rw [outcomes, List.length_cons, List.length_cons, ih]

theorem outcomes_append (table : Table κ ν) (first second : List (Request κ ν)) :
    outcomes table (first ++ second) =
      outcomes table first ++ outcomes (applyAll table first) second := by
  induction first generalizing table with
  | nil => rfl
  | cons request first ih =>
    rw [List.cons_append, outcomes, outcomes, ih, List.cons_append]
    rfl

@[simp] theorem outcomes_concat (table : Table κ ν) (requests : List (Request κ ν))
    (request : Request κ ν) : outcomes table (requests ++ [request]) =
      outcomes table requests ++ [request.outcome (applyAll table requests)] :=
  outcomes_append table requests [request]

end Registry
