/-
Ranked codes.

A code writes each symbol as a text. It is ranked when the texts of two symbols compare as the ranks
of the symbols, whatever follows them. The order of two coded texts is then read off the ranks, as
long as both end with the stop symbol: `compare_encode`.
-/

import FastRepo.Lib.PrefixRun

/-- A code over the symbols `α`, with the rank that says how the texts of two symbols compare. -/
structure RankedCode (α β : Type) [Ord β] where
  code : α → List β
  rank : α → Nat
  compare_code : ∀ a b s t, compare (code a ++ s) (code b ++ t) =
    (compare (rank a) (rank b)).then (compare s t)

namespace RankedCode

variable {α β : Type} [Ord β] (ranked : RankedCode α β)

/-- The text of a run of symbols and the stop symbol. -/
def encode (stop : α) (symbols : List α) : List β :=
  (symbols ++ [stop]).flatMap ranked.code

/-- The ranks of a run of symbols and the stop symbol. -/
def ranks (stop : α) (symbols : List α) : List Nat :=
  (symbols ++ [stop]).map ranked.rank

/-- A comparison of different numbers hides what would be compared after it. -/
theorem then_of_ne {m n : Nat} (apart : m ≠ n) (o p : Ordering) :
    (compare m n).then o = (compare m n).then p := by
  have decided : compare m n ≠ .eq := fun same => apart (Std.LawfulEqOrd.eq_of_compare same)
  revert decided
  cases compare m n <;> simp

/-- The order of texts: **two runs are ordered as their ranks are**. They are decided at the
first symbol whose ranks differ, and the stop symbol is such a symbol when one run ends before the
other. -/
theorem compare_encode {stop : α} {first second : List α}
    (firstInner : ∀ a ∈ first, ranked.rank a ≠ ranked.rank stop)
    (secondInner : ∀ a ∈ second, ranked.rank a ≠ ranked.rank stop) (s t : List β) :
    compare (ranked.encode stop first ++ s) (ranked.encode stop second ++ t) =
      (compare (ranked.ranks stop first) (ranked.ranks stop second)).then (compare s t) := by
  induction first generalizing second with
  | nil =>
    cases second with
    | nil =>
      simp [encode, ranks, ranked.compare_code]
    | cons b second =>
      have apart : ranked.rank stop ≠ ranked.rank b :=
        Ne.symm (secondInner b List.mem_cons_self)
      simp only [encode, ranks, List.nil_append, List.cons_append, List.flatMap_cons,
        List.append_assoc, List.map_cons, ranked.compare_code, PrefixRun.compare_cons,
        Ordering.then_assoc]
      exact then_of_ne apart _ _
  | cons a first ih =>
    cases second with
    | nil =>
      simp only [encode, ranks, List.nil_append, List.cons_append, List.flatMap_cons,
        List.append_assoc, List.map_cons, ranked.compare_code, PrefixRun.compare_cons,
        Ordering.then_assoc]
      exact then_of_ne (firstInner a List.mem_cons_self) _ _
    | cons b second =>
      have inner := ih (fun c member => firstInner c (List.mem_cons_of_mem _ member))
        (fun c member => secondInner c (List.mem_cons_of_mem _ member))
      simp only [encode, ranks] at inner
      simp only [encode, ranks, List.cons_append, List.flatMap_cons, List.append_assoc,
        List.map_cons, ranked.compare_code, PrefixRun.compare_cons, Ordering.then_assoc, inner]

end RankedCode
