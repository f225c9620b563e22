/-
Programs with a state and exceptions, and the state they exit in.

A program is an `EStateM ε σ α`. An exception does not undo what the program did before it, so what
a program leaves behind is the state at its exit, by a return or by an exception.

* `final`: the state at the exit, with a rule for each way to compose programs.
* `Frames`: the exit state agrees with the start state on a part of the state, with the same rules.
-/

import Mathlib.Logic.Basic

namespace Exits

variable {ε σ α β : Type}

/-! ### Running programs -/

section Run

theorem bind_apply (program : EStateM ε σ α) (next : α → EStateM ε σ β) (s : σ) :
    (program >>= next) s = match program s with
      | .ok a t => next a t
      | .error e t => .error e t := rfl

theorem get_apply (s : σ) : (get : EStateM ε σ σ) s = .ok s s := rfl

theorem modify_apply (change : σ → σ) (s : σ) :
    (modify change : EStateM ε σ PUnit) s = .ok ⟨⟩ (change s) := rfl

end Run

/-! ### The exit state -/

/-- The state in which a program exits. -/
def final (program : EStateM ε σ α) (s : σ) : σ :=
  match program s with
  | .ok _ t => t
  | .error _ t => t

theorem final_of_ok {program : EStateM ε σ α} {s t : σ} {a : α} (run : program s = .ok a t) :
    final program s = t := by
  rw [final, run]

theorem final_of_error {program : EStateM ε σ α} {s t : σ} {e : ε}
    (run : program s = .error e t) : final program s = t := by
  rw [final, run]

/-- Programs that run the same way from a state exit in the same state. -/
theorem final_congr {program other : EStateM ε σ α} {s : σ} (same : program s = other s) :
    final program s = final other s := by
  rw [final, same, final]

@[simp] theorem final_modify (change : σ → σ) (s : σ) :
    final (modify change : EStateM ε σ PUnit) s = change s := rfl

/-- A sequence exits where its second part does, or where the first part throws. -/
theorem final_bind (program : EStateM ε σ α) (next : α → EStateM ε σ β) (s : σ) :
    final (program >>= next) s = match program s with
      | .ok a t => final (next a) t
      | .error _ t => t := by
  unfold final
  rw [bind_apply]
  cases program s <;> rfl

theorem final_get_bind (next : σ → EStateM ε σ β) (s : σ) :
    final (get >>= next) s = final (next s) s := rfl

theorem final_modify_bind (change : σ → σ) (next : PUnit → EStateM ε σ β) (s : σ) :
    final (modify change >>= next) s = final (next ⟨⟩) (change s) := rfl

/-! ### Programs that leave a part of the state alone -/

section Frames

variable {π : Type} {part : σ → π}

/-- The program leaves the part of the state as it is. -/
def Frames (part : σ → π) (program : EStateM ε σ α) : Prop :=
  ∀ s, part (final program s) = part s

theorem frames_pure (a : α) : Frames part (pure a : EStateM ε σ α) := fun _ => rfl

theorem frames_throw (e : ε) : Frames part (throw e : EStateM ε σ α) := fun _ => rfl

theorem frames_get : Frames part (get : EStateM ε σ σ) := fun _ => rfl

theorem frames_modify {change : σ → σ} (same : ∀ s, part (change s) = part s) :
    Frames part (modify change : EStateM ε σ PUnit) := same

/-- The part a sequence leaves behind is the one its first part does, when the rest leaves it
alone. -/
theorem part_final_bind (program : EStateM ε σ α) {next : α → EStateM ε σ β}
    (rest : ∀ a, Frames part (next a)) (s : σ) :
    part (final (program >>= next) s) = part (final program s) := by
  rw [final_bind]
  cases run : program s with
  | ok a t => rw [final_of_ok run, rest a t]
  | error e t => rw [final_of_error run]

/-- Sequencing: **a sequence leaves alone what both of its parts leave alone**. -/
theorem frames_bind {program : EStateM ε σ α} {next : α → EStateM ε σ β}
    (first : Frames part program) (second : ∀ a, Frames part (next a)) :
    Frames part (program >>= next) := fun s =>
  (part_final_bind program second s).trans (first s)

end Frames

end Exits
