/-
The register of data prefixes over a run.

An event offers the register the name it announces, if a slot is connected to hear of it, and
touches the register in no other way (`passedOn_after`). So the names a repo passes to
`ReadHandle::listen` are those of its start with the names of the run offered one after the other.

* `listeners_run`: the names passed to `listen`, in every reachable state, in their order; and that
  all of them are listened for when the registrations return.
* `oneListener_run_iff`: when each Interest still has one of them at most.
* `grows`: what is listened for once is listened for to the end.
-/

import FastRepo.Repo.PrefixRegistry
import FastRepo.Repo.RuntimeCoverage

namespace FastRepo

open Exits FastRepoImpl PatternHandle PrefixCover RuntimeCoverage

namespace Registrations

variable (platform : Platform)

/-- The name an event offers the register: the one it announces, if a slot hears of it. -/
def heard (repo : FastRepoImpl) (occurrence : Occurrence) : List Name :=
  if repo.insertionSlots = 0 then [] else (announces platform repo occurrence).toList

/-- The data prefixes, and the prefixes passed to `listen`. -/
def passedOn (repo : FastRepoImpl) : List Name × List Name :=
  (repo.config.dataPrefixes, repo.passedToListen)

/-- Offer a name to the data prefixes and to the prefixes passed to `listen`. -/
def offered (names : List Name × List Name) (name : Name) : List Name × List Name :=
  if Covered names.1 name then names else (names.1 ++ [name], names.2 ++ [name])

/-- The names a run offers the register. -/
def allHeard (start : FastRepoImpl) (occurrences : List Occurrence) : List Name :=
  Runs.outputs (step platform) (heard platform) start occurrences

section Step

variable {platform}

/-- Without a slot nothing is registered. -/
theorem registry_of_deaf {repo : FastRepoImpl} (deaf : repo.insertionSlots = 0)
    (occurrence : Occurrence) : registry (repo.after platform occurrence) = registry repo := by
  cases named : announces platform repo occurrence with
  | none => exact registry_of_silent platform named
  | some name =>
    obtain ⟨event, outcomes⟩ := occurrence
    cases event with
    | insertData processId data =>
      have written := (coverSide_insertData_signal platform named).2
      rw [if_pos deaf] at written
      exact (registry_of_coverSide written).trans rfl
    | patternCommand cmdPrefix interest =>
      obtain ⟨fetchPrefix, kind, _, sends⟩ := patternCommand_starts platform named
      refine (registry_of_coverSide (coverSide_of_sendsAtMost sends)).trans ?_
      unfold PatternHandle.started
      rw [if_pos deaf]
      cases kind <;> rfl
    | _ => cases named

variable (platform) in
/-- The register after an event: a name that is heard and not covered is added, and nothing else. -/
theorem registry_after (repo : FastRepoImpl) (occurrence : Occurrence) :
    registry (repo.after platform occurrence) = registry repo ∧
        (∀ name ∈ heard platform repo occurrence, Covered repo.config.dataPrefixes name) ∨
      ∃ name, heard platform repo occurrence = [name] ∧
        ¬Covered repo.config.dataPrefixes name ∧
        registry (repo.after platform occurrence) = (repo.config.dataPrefixes ++ [name],
          repo.passedToListen ++ [name],
          repo.face.dataListeners ++ occurrence.outcomes.registered name) := by
  unfold heard
  by_cases deaf : repo.insertionSlots = 0
  · rw [if_pos deaf]
    exact Or.inl ⟨registry_of_deaf deaf occurrence, nofun⟩
  · rw [if_neg deaf]
    have registered := registers_after platform deaf occurrence
    cases named : announces platform repo occurrence with
    | none =>
      rw [named] at registered
      exact Or.inl ⟨registered, nofun⟩
    | some name =>
      rw [named] at registered
      by_cases covered : Covered repo.config.dataPrefixes name
      · refine Or.inl ⟨registered.covered covered, fun other member => ?_⟩
        rwa [List.mem_singleton.mp member]
      · exact Or.inr ⟨name, rfl, covered, registered.added covered⟩

/-- One event: **the register is offered the name the event announces**. -/
theorem passedOn_after (repo : FastRepoImpl) (occurrence : Occurrence) :
    passedOn (repo.after platform occurrence) =
      (heard platform repo occurrence).foldl offered (passedOn repo) := by
  rcases registry_after platform repo occurrence with
    ⟨same, covered⟩ | ⟨name, named, uncovered, added⟩
  · have unchanged : passedOn (repo.after platform occurrence) = passedOn repo :=
      congrArg (fun names => (names.1, names.2.1)) same
    rw [unchanged]
    unfold heard at covered ⊢
    split
    · rfl
    · rename_i slots
      rw [if_neg slots] at covered
      cases named : announces platform repo occurrence with
      | none => rfl
      | some name =>
        rw [named] at covered
        exact (if_pos (covered name (List.mem_singleton_self name))).symm
  · rw [named]
    exact (congrArg (fun names => (names.1, names.2.1)) added).trans (if_neg uncovered).symm

/-- A registration that returns keeps what is listened for equal to what was passed to `listen`. -/
theorem listeners_after {repo : FastRepoImpl} {occurrence : Occurrence}
    (returns : occurrence.outcomes.throws .registerPrefix = none)
    (same : repo.face.dataListeners = repo.passedToListen) :
    (repo.after platform occurrence).face.dataListeners =
      (repo.after platform occurrence).passedToListen := by
  rcases registry_after platform repo occurrence with
    ⟨unchanged, _⟩ | ⟨name, _, _, added⟩
  · simp only [registry, Prod.mk.injEq] at unchanged
    rw [unchanged.2.2, unchanged.2.1, same]
  · simp only [registry, Prod.mk.injEq] at added
    rw [added.2.2, added.2.1, same, Outcomes.registered_of_returns returns]

/-- No event ends a registration. -/
theorem dataListeners_after (repo : FastRepoImpl) (occurrence : Occurrence) :
    repo.face.dataListeners <+: (repo.after platform occurrence).face.dataListeners := by
  rcases registry_after platform repo occurrence with
    ⟨unchanged, _⟩ | ⟨name, _, _, added⟩
  · simp only [registry, Prod.mk.injEq] at unchanged
    rw [unchanged.2.2]
  · simp only [registry, Prod.mk.injEq] at added
    rw [added.2.2]
    exact List.prefix_append _ _

end Step

/-! ### Runs -/

section Run

variable {platform} {config : Config} {db : Db} {occurrences : List Occurrence}
  {last : FastRepoImpl}

/-- Two equal lists stay equal, and take up what is not covered. -/
theorem foldl_offered (known names : List Name) :
    names.foldl offered (known, known) = (addAll known names, addAll known names) := by
  induction names generalizing known with
  | nil => rfl
  | cons name names ih =>
    have here : offered (known, known) name = (add known name, add known name) := by
      unfold offered add
      split <;> rfl
    rw [List.foldl_cons, here, ih]
    rfl

theorem passedOn_run {start : FastRepoImpl}
    (reached : start.run platform occurrences = some last) :
    passedOn last = (allHeard platform start occurrences).foldl offered (passedOn start) := by
  refine Runs.abstracts_outputs (I := fun _ => True) passedOn trivial (fun _ _ _ _ _ => trivial)
    (fun repo occurrence next _ took => ?_) reached
  obtain ⟨_, rfl⟩ := (step_eq_some platform).mp took
  exact passedOn_after repo occurrence

/-- The register of a run that starts with the repo. -/
theorem registered_run
    (reached : (FastRepoImpl.started platform config db).run platform occurrences = some last) :
    passedOn last =
      (addAll (config.dataPrefixes ++ scanned platform config db)
          (allHeard platform (FastRepoImpl.started platform config db) occurrences),
        addAll (config.dataPrefixes ++ scanned platform config db)
          (allHeard platform (FastRepoImpl.started platform config db) occurrences)) := by
  obtain ⟨prefixes, same, _⟩ := started_dataPrefixes platform config db
  rw [passedOn_run reached, passedOn, same, prefixes, foldl_offered]

/-- When the registrations of a run return, the repo listens for whatever it passed to `listen`. -/
theorem listening_run (returns : ∀ occurrence ∈ occurrences,
      occurrence.outcomes.throws .registerPrefix = none)
    (reached : (FastRepoImpl.started platform config db).run platform occurrences = some last) :
    last.face.dataListeners = last.passedToListen := by
  obtain ⟨_, passed, listeners⟩ := started_dataPrefixes platform config db
  refine Runs.run_keeps (I := fun repo => repo.face.dataListeners = repo.passedToListen)
    (C := fun occurrence => occurrence.outcomes.throws .registerPrefix = none)
    (listeners.trans passed.symm) (fun repo occurrence next returns same took => ?_) returns reached
  obtain ⟨_, rfl⟩ := (step_eq_some platform).mp took
  exact listeners_after returns same

/-- Listeners: **in every reachable state the names passed to `listen` are the data prefixes, and
these are the configured ones, the scanned ones, and of the announced ones those that no earlier one
was a prefix of, in the order of their announcement; and all of them are listened for when the
registrations of the run return**. -/
theorem listeners_run
    (reached : (FastRepoImpl.started platform config db).run platform occurrences = some last) :
    last.passedToListen = last.config.dataPrefixes ∧
      last.config.dataPrefixes = addAll (config.dataPrefixes ++ scanned platform config db)
        (allHeard platform (FastRepoImpl.started platform config db) occurrences) ∧
      ((∀ occurrence ∈ occurrences, occurrence.outcomes.throws .registerPrefix = none) →
        last.face.dataListeners = last.config.dataPrefixes) := by
  obtain ⟨prefixes, passed⟩ := Prod.mk.inj (registered_run reached)
  have same : last.passedToListen = last.config.dataPrefixes := passed.trans prefixes.symm
  exact ⟨same, prefixes, fun returns => (listening_run returns reached).trans same⟩

/-- One listener: **in a reachable state each Interest has one listener at most, of those passed to
`listen`, exactly when the configured and the scanned prefixes are incomparable and every name the
run announced comes in order after what was registered or announced before it**. -/
theorem oneListener_run_iff
    (reached : (FastRepoImpl.started platform config db).run platform occurrences = some last) :
    last.OneListener platform ↔
      (config.dataPrefixes ++ scanned platform config db).Pairwise Incomparable ∧
        AllInOrder (config.dataPrefixes ++ scanned platform config db)
          (allHeard platform (FastRepoImpl.started platform config db) occurrences) := by
  rw [oneListener_iff_apart, (Prod.mk.inj (registered_run reached)).2]
  exact pairwise_addAll_iff _ _

/-- Growth: **a repo stops listening for nothing**. -/
theorem grows {start repo : FastRepoImpl} (reached : start.run platform occurrences = some last)
    (passed : Runs.Passes (step platform) start occurrences repo) :
    repo.face.dataListeners <+: last.face.dataListeners := by
  obtain ⟨before, ⟨rest, rfl⟩, ran⟩ := passed
  unfold FastRepoImpl.run at reached
  rw [Runs.run_append, ran] at reached
  refine run_invariant platform
    (I := fun later => repo.face.dataListeners <+: later.face.dataListeners) List.prefix_rfl
    (fun later occurrence before => ?_) reached
  exact before.trans (dataListeners_after later occurrence)

end Run

/-- A repo that listens for commands under `/r`. -/
def emptyStart : FastRepoImpl :=
  FastRepoImpl.started (tlvPlatform false false) { repoPrefixes := [nameOf ["r"]] } ∅

/-- The commands and the callbacks that insert the packets of the given names. -/
def inserting (names : List Name) : List Occurrence :=
  names.zipIdx.flatMap fun entry =>
    [⟨.insertCommand (nameOf ["r", "insert"]) (commandInterest (nameOf ["r", "insert"])
        ⟨entry.1.map Component.value⟩) (.ofNat entry.2), {}⟩,
      ⟨.insertData (.ofNat entry.2) { name := entry.1 }, {}⟩]

/-- `/a/b` is inserted before `/a` and `/a/c`. -/
def childFirst : List Occurrence := inserting [nameOf ["a", "b"], nameOf ["a"], nameOf ["a", "c"]]

theorem heard_childFirst : allHeard (tlvPlatform false false) emptyStart childFirst =
    [nameOf ["a", "b"], nameOf ["a"], nameOf ["a", "c"]] := by decide

theorem isSome_childFirst :
    (emptyStart.run (tlvPlatform false false) childFirst).isSome = true := by decide

/-- The parent does not replace its child, and the second child is covered. -/
theorem listeners_childFirst : ∃ last : FastRepoImpl,
    emptyStart.run (tlvPlatform false false) childFirst = some last ∧
      last.face.dataListeners = [nameOf ["a", "b"], nameOf ["a"]] := by
  have reached := (Option.some_get isSome_childFirst).symm
  obtain ⟨_, prefixes, listening⟩ := listeners_run reached
  refine ⟨_, reached, ?_⟩
  rw [listening (by decide), prefixes]
  show addAll _ (allHeard (tlvPlatform false false) emptyStart childFirst) = _
  rw [heard_childFirst]
  decide

/-- So an Interest for `/a/b` is answered twice. -/
theorem twoListeners_childFirst : ∃ last : FastRepoImpl,
    emptyStart.run (tlvPlatform false false) childFirst = some last ∧
      ¬last.OneListener (tlvPlatform false false) := by
  have reached := (Option.some_get isSome_childFirst).symm
  refine ⟨_, reached, fun one => ?_⟩
  have inOrder := ((oneListener_run_iff reached).mp one).2 [nameOf ["a", "b"]] (nameOf ["a"]) (by
    show _ <+: allHeard (tlvPlatform false false) emptyStart childFirst
    rw [heard_childFirst]
    decide)
  revert inOrder
  decide

end Registrations

end FastRepo
