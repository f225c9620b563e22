/-
Gathering keyed results, some of which failed.

Results come in one after the other and are put in a map under their keys. A failure that is caught
is passed over; any other one ends the gathering.

* `gatherAll_eq_ok`: when nothing ends it, and with which map.
* `complete_iff`: the map then holds all results exactly when results under one key agree.
* `foldlM_eq_ok`, `exists_of_foldlM_error`: loops whose steps accept or refuse their item.
-/

import FastRepo.Lib.Lookup
import Mathlib.Data.List.Induction

namespace Gather

variable {κ ε α : Type}

/-- The results that are there. -/
def gathered (results : List (Except ε (κ × α))) : List (κ × α) :=
  results.filterMap Except.toOption

theorem mem_gathered {results : List (Except ε (κ × α))} {entry : κ × α} :
    entry ∈ gathered results ↔ .ok entry ∈ results := by
  rw [gathered, List.mem_filterMap]
  constructor
  · rintro ⟨result, member, same⟩
    cases result with
    | ok other =>
      cases same
      exact member
    | error _ => cases same
  · exact fun member => ⟨.ok entry, member, rfl⟩

/-! ### Gathering -/

variable [Ord κ]

/-- Put a result in the map, or pass over a failure that is caught. -/
def gather (caught : ε → Bool) (map : Std.TreeMap κ α) :
    Except ε (κ × α) → Except ε (Std.TreeMap κ α)
  | .ok entry => .ok (map.insert entry.1 entry.2)
  | .error failure => if caught failure then .ok map else .error failure

/-- Gather the results of a list, from an empty map. -/
def gatherAll (caught : ε → Bool) (results : List (Except ε (κ × α))) :
    Except ε (Std.TreeMap κ α) := results.foldlM (gather caught) ∅

/-- The map of a list of entries: later ones replace earlier ones. -/
def insertAll (entries : List (κ × α)) : Std.TreeMap κ α :=
  entries.foldl (fun map entry => map.insert entry.1 entry.2) ∅

/-- Containment: **gathering ends by a failure exactly when one of the failures is not caught; else
it returns the map of the results that are there**. -/
theorem gatherAll_eq_ok {caught : ε → Bool} {results : List (Except ε (κ × α))}
    {map : Std.TreeMap κ α} : gatherAll caught results = .ok map ↔
      (∀ failure, .error failure ∈ results → caught failure = true) ∧
        map = insertAll (gathered results) := by
  have loop : ∀ (results : List (Except ε (κ × α))) (start : Std.TreeMap κ α),
      results.foldlM (gather caught) start = .ok map ↔
        (∀ failure, .error failure ∈ results → caught failure = true) ∧
          map = (gathered results).foldl (fun map entry => map.insert entry.1 entry.2) start := by
    intro results
    induction results with
    | nil =>
      intro start
      constructor
      · intro returned
        cases returned
        exact ⟨fun _ member => absurd member List.not_mem_nil, rfl⟩
      · rintro ⟨_, rfl⟩
        rfl
    | cons result results ih =>
      intro start
      rw [List.foldlM_cons]
      cases result with
      | ok entry =>
        show results.foldlM (gather caught) (start.insert entry.1 entry.2) = .ok map ↔ _
        rw [ih]
        refine and_congr_left' (forall_congr' fun failure => ?_)
        simp only [List.mem_cons, reduceCtorEq, false_or]
      | error failure =>
        by_cases isCaught : caught failure = true
        · have passed : gather caught start (.error failure) = .ok start := if_pos isCaught
          rw [passed]
          show results.foldlM (gather caught) start = .ok map ↔ _
          rw [ih]
          refine and_congr_left' ⟨fun all other member => ?_, fun all other member =>
            all other (List.mem_cons_of_mem _ member)⟩
          rcases List.mem_cons.mp member with same | later
          · cases same
            exact isCaught
          · exact all other later
        · have ends : gather caught start (.error failure) = .error failure := if_neg isCaught
          rw [ends]
          constructor
          · intro returned
            cases returned
          · rintro ⟨all, _⟩
            exact absurd (all failure List.mem_cons_self) isCaught
  exact loop results ∅

/-- A failure that ends the gathering is one of the results, and is not caught. -/
theorem mem_of_gatherAll_error {caught : ε → Bool} {results : List (Except ε (κ × α))}
    {failure : ε} (ends : gatherAll caught results = .error failure) :
    .error failure ∈ results ∧ caught failure = false := by
  have loop : ∀ (results : List (Except ε (κ × α))) (start : Std.TreeMap κ α),
      results.foldlM (gather caught) start = .error failure →
        .error failure ∈ results ∧ caught failure = false := by
    intro results
    induction results with
    | nil =>
      intro start ends
      cases ends
    | cons result results ih =>
      intro start ends
      rw [List.foldlM_cons] at ends
      cases result with
      | ok entry =>
        obtain ⟨member, escapes⟩ := ih _ ends
        exact ⟨List.mem_cons_of_mem _ member, escapes⟩
      | error thrown =>
        by_cases isCaught : caught thrown = true
        · have passed : gather caught start (.error thrown) = .ok start := if_pos isCaught
          rw [passed] at ends
          obtain ⟨member, escapes⟩ := ih start ends
          exact ⟨List.mem_cons_of_mem _ member, escapes⟩
        · have stops : gather caught start (.error thrown) = .error thrown := if_neg isCaught
          rw [stops] at ends
          cases ends
          exact ⟨List.mem_cons_self, Bool.eq_false_iff.mpr isCaught⟩
  exact loop results ∅ ends

/-! ### The map of the entries -/

theorem insertAll_concat (entries : List (κ × α)) (entry : κ × α) :
    insertAll (entries ++ [entry]) = (insertAll entries).insert entry.1 entry.2 := by
  rw [insertAll, List.foldl_append]
  rfl

section Entries

variable [Std.TransOrd κ] [Std.LawfulEqOrd κ] [DecidableEq κ]

/-- The last entry is there. -/
theorem getElem?_insertAll_concat (entries : List (κ × α)) (entry : κ × α) :
    (insertAll (entries ++ [entry]))[entry.1]? = some entry.2 := by
  rw [insertAll_concat, Lookup.getElem?_insert, if_pos rfl]

/-- With distinct keys, the map looks up what the list does. -/
theorem getElem?_insertAll [BEq κ] [LawfulBEq κ] {entries : List (κ × α)}
    (distinct : (entries.map Prod.fst).Nodup) (key : κ) :
    (insertAll entries)[key]? = entries.lookup key := by
  induction entries using List.reverseRecOn with
  | nil => exact Std.TreeMap.getElem?_emptyc
  | append_singleton entries entry ih =>
    rw [List.map_append, List.nodup_append] at distinct
    obtain ⟨earlier, _, apart⟩ := distinct
    rw [insertAll_concat, Lookup.getElem?_insert, ih earlier, List.lookup_append]
    by_cases same : key = entry.1
    · subst same
      have absent : entries.lookup entry.1 = none := List.lookup_eq_none_iff.mpr
        fun other member => bne_iff_ne.mpr fun equal =>
          apart other.1 (List.mem_map_of_mem member) entry.1 (by simp) equal.symm
      rw [if_pos rfl, absent, Option.none_or]
      exact List.lookup_cons_self.symm
    · have absent : [entry].lookup key = none := List.lookup_eq_none_iff.mpr
        fun other member => bne_iff_ne.mpr (List.mem_singleton.mp member ▸ same)
      rw [if_neg same, absent, Option.or_none]

/-- The map holds entries of the list only, and each key of it. -/
theorem insertAll_spec (entries : List (κ × α)) :
    (∀ key value, (insertAll entries)[key]? = some value → (key, value) ∈ entries) ∧
      ∀ key value, (key, value) ∈ entries → ∃ last, (insertAll entries)[key]? = some last := by
  induction entries using List.reverseRecOn with
  | nil =>
    refine ⟨fun key value found => ?_, fun _ _ member => absurd member List.not_mem_nil⟩
    rw [insertAll, List.foldl_nil, Std.TreeMap.getElem?_emptyc] at found
    cases found
  | append_singleton entries entry ih =>
    obtain ⟨sound, complete⟩ := ih
    rw [insertAll_concat]
    refine ⟨fun key value found => ?_, fun key value member => ?_⟩
    · rw [Lookup.getElem?_insert] at found
      split at found
      · rename_i same
        cases found
        rw [same]
        exact List.mem_append_right _ (List.mem_singleton_self entry)
      · exact List.mem_append_left _ (sound key value found)
    · rw [Lookup.getElem?_insert]
      split
      · exact ⟨_, rfl⟩
      · rename_i other
        rcases List.mem_append.mp member with before | here
        · exact complete key value before
        · exact absurd (congrArg Prod.fst (List.mem_singleton.mp here)) other

/-- Results under one key: **the map holds all entries exactly when those under one key agree**. -/
theorem complete_iff (entries : List (κ × α)) :
    (∀ key value, (insertAll entries)[key]? = some value ↔ (key, value) ∈ entries) ↔
      ∀ key first second, (key, first) ∈ entries → (key, second) ∈ entries → first = second := by
  obtain ⟨sound, complete⟩ := insertAll_spec entries
  constructor
  · intro all key first second one two
    have foundFirst := (all key first).mpr one
    have foundSecond := (all key second).mpr two
    rw [foundFirst] at foundSecond
    exact Option.some.inj foundSecond
  · refine fun agree key value => ⟨sound key value, fun member => ?_⟩
    obtain ⟨last, found⟩ := complete key value member
    rw [found, agree key last value (sound key last found) member]

theorem insertAll_isEmpty (entries : List (κ × α)) :
    (insertAll entries).isEmpty = true ↔ entries = [] := by
  constructor
  · intro empty
    refine List.eq_nil_iff_forall_not_mem.mpr fun entry member => ?_
    obtain ⟨last, found⟩ := (insertAll_spec entries).2 entry.1 entry.2 member
    rw [Std.TreeMap.getElem?_of_isEmpty empty] at found
    cases found
  · rintro rfl
    rfl

end Entries

/-! ### Loops that refuse an item -/

section Loops

variable {σ : Type} {step : σ → α → Except ε σ} {accepts : α → Prop} {next : σ → α → σ}

/-- Acceptance: **a loop ends well exactly when each item is accepted, with what the accepted items
make of the start**. -/
theorem foldlM_eq_ok
    (each : ∀ state item after, step state item = .ok after ↔
      accepts item ∧ next state item = after) {items : List α} {start last : σ} :
    items.foldlM step start = .ok last ↔
      (∀ item ∈ items, accepts item) ∧ items.foldl next start = last := by
  induction items generalizing start with
  | nil =>
    constructor
    · intro returned
      cases returned
      exact ⟨fun _ member => absurd member List.not_mem_nil, rfl⟩
    · rintro ⟨_, rfl⟩
      rfl
  | cons item items ih =>
    rw [List.foldlM_cons, List.forall_mem_cons, List.foldl_cons]
    cases took : step start item with
    | ok after =>
      obtain ⟨accepted, rfl⟩ := (each _ _ _).mp took
      show items.foldlM step (next start item) = .ok last ↔ _
      rw [ih]
      exact ⟨fun ⟨rest, same⟩ => ⟨⟨accepted, rest⟩, same⟩, fun ⟨both, same⟩ => ⟨both.2, same⟩⟩
    | error failure =>
      constructor
      · intro returned
        cases returned
      · rintro ⟨⟨accepted, _⟩, _⟩
        rw [(each _ _ _).mpr ⟨accepted, rfl⟩] at took
        cases took

/-- Refusal: **a loop that fails does so at an item whose forerunners were all accepted**. -/
theorem exists_of_foldlM_error
    (each : ∀ state item after, step state item = .ok after ↔
      accepts item ∧ next state item = after)
    {items : List α} {start : σ} {failure : ε}
    (failed : items.foldlM step start = .error failure) :
    ∃ before item rest, items = before ++ item :: rest ∧ (∀ item ∈ before, accepts item) ∧
      ∃ state, step state item = .error failure := by
  induction items generalizing start with
  | nil => cases failed
  | cons item items ih =>
    rw [List.foldlM_cons] at failed
    cases took : step start item with
    | ok after =>
      rw [took] at failed
      obtain ⟨before, other, rest, rfl, all, refused⟩ := ih failed
      exact ⟨item :: before, other, rest, rfl,
        List.forall_mem_cons.mpr ⟨((each _ _ _).mp took).1, all⟩, refused⟩
    | error thrown =>
      rw [took] at failed
      cases failed
      exact ⟨[], item, items, rfl, fun _ member => absurd member List.not_mem_nil, start, took⟩

end Loops

end Gather
