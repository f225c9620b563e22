/-
Texts of separated pieces.

The text of a list of items has a separator in front of the piece of each item. No piece contains
the separator, so a text that begins with another one has the same pieces up to the last of them,
and only there may a piece go on: `separated_prefix_iff`.
-/

import Mathlib.Data.List.Basic
import Mathlib.Data.List.Infix
import Mathlib.Logic.Function.Basic

namespace SeparatedText

variable {α κ : Type} (separator : κ) (piece : α → List κ)

/-- A separator and the piece of each item. -/
def separated (items : List α) : List κ :=
  items.flatMap fun item => separator :: piece item

@[simp] theorem separated_nil : separated separator piece [] = [] := rfl

theorem separated_cons (item : α) (rest : List α) :
    separated separator piece (item :: rest) =
      separator :: (piece item ++ separated separator piece rest) := rfl

section Prefix

variable {separator} {piece}

/-- A word without the separator does not reach the next item. -/
theorem prefix_append_separated {word other : List κ} (noSeparator : separator ∉ word)
    (rest : List α) : word <+: other ++ separated separator piece rest ↔ word <+: other := by
  refine ⟨fun extension => ?_, fun extension => extension.trans (List.prefix_append other _)⟩
  induction other generalizing word with
  | nil =>
    cases word with
    | nil => exact List.prefix_rfl
    | cons first word =>
      cases rest with
      | nil => exact extension
      | cons item rest =>
        -- the text of a further item starts with the separator
        obtain ⟨rfl, _⟩ := List.cons_prefix_cons.mp extension
        exact absurd List.mem_cons_self noSeparator
  | cons second other ih =>
    cases word with
    | nil => exact List.nil_prefix
    | cons first word =>
      obtain ⟨rfl, below⟩ := List.cons_prefix_cons.mp extension
      exact (List.prefix_cons_inj first).mpr
        (ih (fun member => noSeparator (List.mem_cons_of_mem first member)) below)

/-- A word that a separator ends is a whole piece. -/
theorem append_separator_prefix {word other more : List κ} {rest : List α}
    (noSeparator : separator ∉ word) (noOther : separator ∉ other)
    (extension : word ++ separator :: more <+: other ++ separated separator piece rest) :
    word = other ∧ separator :: more <+: separated separator piece rest := by
  have within : word <+: other :=
    (prefix_append_separated noSeparator rest).mp ((List.prefix_append word _).trans extension)
  obtain ⟨tail, rfl⟩ := within
  rw [List.append_assoc, List.prefix_append_right_inj] at extension
  cases tail with
  | nil => exact ⟨(List.append_nil word).symm, extension⟩
  | cons first tail =>
    obtain ⟨rfl, _⟩ := List.cons_prefix_cons.mp extension
    exact absurd (List.mem_append_right word List.mem_cons_self) noOther

/-- Prefixes of texts: **a text of items begins with that of others exactly when it has the same
items before the last of these, and in its place an item whose piece begins with the last
piece**. -/
theorem separated_prefix_iff (injective : Function.Injective piece)
    (noSeparator : ∀ item, separator ∉ piece item) (front : List α) (last : α) (items : List α) :
    separated separator piece (front ++ [last]) <+: separated separator piece items ↔
      ∃ other rest, items = front ++ other :: rest ∧ piece last <+: piece other := by
  induction front generalizing items with
  | nil =>
    cases items with
    | nil => simp [separated_cons]
    | cons other rest =>
      rw [List.nil_append, separated_cons, separated_cons, separated_nil, List.append_nil,
        List.prefix_cons_inj, prefix_append_separated (noSeparator last)]
      simp
  | cons item front ih =>
    cases items with
    | nil => simp [separated_cons]
    | cons first items =>
      have pieces : separated separator piece (item :: front ++ [last]) <+:
          separated separator piece (first :: items) ↔
          item = first ∧
            separated separator piece (front ++ [last]) <+: separated separator piece items := by
        rw [List.cons_append, separated_cons, separated_cons, List.prefix_cons_inj]
        constructor
        · intro extension
          have whole : ∃ more, separated separator piece (front ++ [last]) = separator :: more := by
            cases front <;> exact ⟨_, rfl⟩
          obtain ⟨more, starts⟩ := whole
          rw [starts] at extension ⊢
          obtain ⟨same, below⟩ :=
            append_separator_prefix (noSeparator item) (noSeparator first) extension
          exact ⟨injective same, below⟩
        · rintro ⟨rfl, below⟩
          exact (List.prefix_append_right_inj _).mpr below
      rw [pieces, ih]
      constructor
      · rintro ⟨rfl, other, rest, rfl, extension⟩
        exact ⟨other, rest, rfl, extension⟩
      · rintro ⟨other, rest, same, extension⟩
        obtain ⟨rfl, rfl⟩ := List.cons.inj same
        exact ⟨rfl, other, rest, rfl, extension⟩

end Prefix

end SeparatedText
