/-
The lifetime of the callbacks of a pattern.

`patterns_` owns the pattern objects, and timers and Interests hold bare pointers to them. `Alive`
says that what is pending refers to an object the map still owns. A cancel keeps that exactly when
nothing of the pattern is pending (`alive_after_iff`), so a run keeps its callbacks alive exactly
when no step of it cuts a pattern off (`lifetimes_iff`). The source cuts patterns off:
`CounterPattern::cancel` only clears a flag of the object, and the object is then destroyed.
-/

import FastRepo.Handles.CommandTlv
import FastRepo.Repo.PatternState

namespace FastRepo

open FastRepoImpl PatternState

namespace CallbackLifetime

/-! ### Alive states -/

/-- The map owns the pattern object. -/
def Held (repo : FastRepoImpl) (instanceId : InstanceId) : Prop :=
  ∃ fetchPrefix : Name, repo.patterns[fetchPrefix]? = some instanceId

/-- Every pending timer and Interest refers to an object the map owns. -/
def Alive (repo : FastRepoImpl) : Prop :=
  ∀ instanceId, Pending repo instanceId → Held repo instanceId

/-- The pattern object a callback of the face runs on. -/
def calledOn : Event → Option InstanceId
  | .timer timer => some timer.pattern
  | .counterData interest _ => some interest.pattern
  | _ => none

theorem pending_of_calledOn {repo : FastRepoImpl} {event : Event} {instanceId : InstanceId}
    (enabled : repo.Enabled event) (called : calledOn event = some instanceId) :
    Pending repo instanceId := by
  cases event with
  | timer timer =>
    cases called
    exact Or.inl ⟨timer, enabled, rfl⟩
  | counterData interest data =>
    cases called
    exact Or.inr ⟨interest, enabled.1, rfl⟩
  | _ => cases called

/-! ### One step -/

variable (platform : Platform)

/-- The event asks to end an entry while something of its pattern is pending. -/
def CutsOff (repo : FastRepoImpl) (occurrence : Occurrence) : Prop :=
  ∃ fetchPrefix instanceId, cancelTarget platform occurrence.event = some fetchPrefix ∧
    repo.patterns[fetchPrefix]? = some instanceId ∧ Pending repo instanceId

theorem alive_of_growth {repo next : FastRepoImpl} (alive : Alive repo)
    (growth : PatternGrowth repo next) : Alive next := by
  intro instanceId here
  cases growth with
  | kept kept =>
    obtain ⟨fetchPrefix, found⟩ := alive instanceId (kept.pending instanceId here)
    exact ⟨fetchPrefix, kept.patterns ▸ found⟩
  | started kind fetchPrefix started =>
    obtain ⟨absent, patterns, _, _, pending⟩ := started
    rcases pending instanceId here with before | ⟨_, rfl⟩
    · obtain ⟨other, found⟩ := alive instanceId before
      refine ⟨other, ?_⟩
      rw [patterns, Lookup.getElem?_insert, if_neg]
      · exact found
      · rintro rfl
        rw [absent] at found
        cases found
    · refine ⟨fetchPrefix, ?_⟩
      rw [patterns, Lookup.getElem?_insert, if_pos rfl]

/-- Ending the pattern of an entry: the callbacks stay alive exactly when none of its own is
pending. -/
theorem alive_of_end {repo next : FastRepoImpl} {fetchPrefix : Name} {instanceId : InstanceId}
    (kept : WellKept repo) (alive : Alive repo)
    (ended : PatternEnd repo next fetchPrefix instanceId) :
    Alive next ↔ ¬Pending repo instanceId := by
  obtain ⟨found, patterns, _, pending⟩ := ended
  constructor
  · intro aliveNext busy
    obtain ⟨other, held⟩ := aliveNext instanceId ((pending instanceId).mpr busy)
    rw [patterns, Lookup.getElem?_erase] at held
    split at held
    · cases held
    · rename_i different
      exact different (kept.own other fetchPrefix instanceId held found)
  · intro idle other here
    have before := (pending other).mp here
    obtain ⟨otherPrefix, held⟩ := alive other before
    refine ⟨otherPrefix, ?_⟩
    rw [patterns, Lookup.getElem?_erase, if_neg]
    · exact held
    · rintro rfl
      rw [found] at held
      cases held
      exact idle before

/-- One step: **the callbacks stay alive exactly when the event does not cut a pattern off**. -/
theorem alive_after_iff {repo : FastRepoImpl} {occurrence : Occurrence} (kept : WellKept repo)
    (alive : Alive repo) (enabled : repo.Enabled occurrence.event) :
    Alive (repo.after platform occurrence) ↔ ¬CutsOff platform repo occurrence := by
  cases target : cancelTarget platform occurrence.event with
  | none =>
    refine iff_of_true (alive_of_growth alive (growth_of_no_target platform enabled target)) ?_
    rintro ⟨fetchPrefix, instanceId, asked, _⟩
    rw [target] at asked
    cases asked
  | some fetchPrefix =>
    cases found : repo.patterns[fetchPrefix]? with
    | none =>
      refine iff_of_true (alive_of_growth alive
        (.kept (kept_of_same (patternSide_of_sendsAtMost
          (sendsAtMost_of_target_absent platform target found))))) ?_
      rintro ⟨other, instanceId, asked, held, _⟩
      rw [target] at asked
      cases asked
      rw [found] at held
      cases held
    | some instanceId =>
      have cuts : CutsOff platform repo occurrence ↔ Pending repo instanceId := by
        constructor
        · rintro ⟨other, otherId, asked, held, busy⟩
          rw [target] at asked
          cases asked
          rw [found] at held
          cases held
          exact busy
        · exact fun busy => ⟨fetchPrefix, instanceId, target, found, busy⟩
      rw [cuts]
      rcases after_of_target_found platform target found with ended | ⟨same, recorder⟩
      · exact alive_of_end kept alive ended
      · -- the stop of a recorder threw: an ndnrtc pattern has nothing pending
        rw [same]
        refine iff_of_true alive fun busy => ?_
        have counter := kept.counters instanceId busy
        rw [recorder] at counter
        cases counter

/-! ### Runs -/

/-- What is asked of the callbacks in a run: they are alive in every state, and each one that runs
does so on an object the map owns. -/
structure Lifetimes (start : FastRepoImpl) (occurrences : List Occurrence) : Prop where
  alive : ∀ repo, Runs.Passes (step platform) start occurrences repo → Alive repo
  called : ∀ repo occurrence, Runs.Takes (step platform) start occurrences repo occurrence →
    ∀ instanceId, calledOn occurrence.event = some instanceId → Held repo instanceId

theorem alive_started (config : Config) (db : Db) : Alive (started platform config db) := by
  have fresh := patternSide_started platform config db
  simp only [patternSide, Prod.mk.injEq] at fresh
  obtain ⟨_, _, timers, interests⟩ := fresh
  intro instanceId pending
  simp [Pending, timers, interests] at pending

/-- Lifetimes: **in a run from the start, every callback refers to an object the map owns exactly
when no step of the run cuts a pattern off**, whatever the libraries do. -/
theorem lifetimes_iff (config : Config) (db : Db) {occurrences : List Occurrence}
    {repo : FastRepoImpl}
    (reached : (started platform config db).run platform occurrences = some repo) :
    Lifetimes platform (started platform config db) occurrences ↔
      ∀ s occurrence, Runs.Takes (step platform) (started platform config db) occurrences s
        occurrence → ¬CutsOff platform s occurrence := by
  have everywhere := Runs.run_forall_iff (I := WellKept) (P := Alive)
    (C := fun s occurrence => ¬CutsOff platform s occurrence)
    (wellKept_started platform config db) (fun _ _ _ => wellKept_step platform)
    (alive_started platform config db) (fun s occurrence next kept alive step => by
      obtain ⟨enabled, rfl⟩ := (step_eq_some platform).mp step
      exact alive_after_iff platform kept alive enabled) reached
  rw [← everywhere]
  refine ⟨Lifetimes.alive, fun alive => ⟨alive, ?_⟩⟩
  rintro s occurrence taken instanceId called
  obtain ⟨next, last, _⟩ := taken.next reached
  obtain ⟨enabled, _⟩ := (step_eq_some platform).mp last
  exact alive s taken.passes instanceId (pending_of_calledOn enabled called)

/-! ### A pattern cut off, and one that is not -/

/-- A repo with the command prefix `/r` and an empty database. -/
def smallRepo : FastRepoImpl :=
  started (tlvPlatform false false) { repoPrefixes := [nameOf ["r"]] } ∅

/-- The command that starts a counter pattern for `/p`. -/
def startCounter : Occurrence :=
  ⟨.patternCommand (nameOf ["r", "pattern"]) (commandInterest (nameOf ["r", "pattern"])
    (patternParameter (ascii "counter") [ascii "p"])), {}⟩

/-- The pattern is cancelled while its first Interest is outstanding. -/
def cancelledInFlight : List Occurrence :=
  [startCounter,
    ⟨.timer ⟨1, 0⟩, {}⟩,
    ⟨.cancelCommand (nameOf ["r", "cancel"])
      (commandInterest (nameOf ["r", "cancel"]) ⟨[ascii "p"]⟩), {}⟩]

/-- The packet the Interest asked for. -/
def firstData : Occurrence :=
  ⟨.counterData ⟨nameOf ["p", "0"], 4000, 0⟩ { name := nameOf ["p", "0"] }, {}⟩

/-- The packet then arrives, and `onData` runs on an object that no entry holds. -/
theorem not_lifetimes_cancelledInFlight :
    ∃ repo, smallRepo.run (tlvPlatform false false) (cancelledInFlight ++ [firstData]) = some repo ∧
      ¬Lifetimes (tlvPlatform false false) smallRepo (cancelledInFlight ++ [firstData]) := by
  have runs : (smallRepo.run (tlvPlatform false false)
      (cancelledInFlight ++ [firstData])).isSome = true := by decide
  have gone : (smallRepo.run (tlvPlatform false false) cancelledInFlight).map
      (fun repo => repo.patterns.isEmpty) = some true := by decide
  obtain ⟨cancelled, reached, empty⟩ := Option.map_eq_some_iff.mp gone
  refine ⟨_, (Option.some_get runs).symm, fun lifetimes => ?_⟩
  obtain ⟨fetchPrefix, held⟩ := lifetimes.called cancelled firstData
    ⟨cancelledInFlight, List.prefix_rfl, reached⟩ 0 rfl
  rw [Std.TreeMap.getElem?_of_isEmpty empty] at held
  cases held

/-- The pattern fetches its first packet; a cancel command without parameter changes nothing. -/
def firstFetch : List Occurrence :=
  [startCounter,
    ⟨.cancelCommand (nameOf ["r", "cancel"]) { name := nameOf ["r", "cancel"] }, {}⟩,
    ⟨.timer ⟨1, 0⟩, {}⟩,
    firstData]

theorem lifetimes_firstFetch : Lifetimes (tlvPlatform false false) smallRepo firstFetch := by
  have runs : (smallRepo.run (tlvPlatform false false) firstFetch).isSome = true := by decide
  have noTarget : ∀ occurrence ∈ firstFetch,
      cancelTarget (tlvPlatform false false) occurrence.event = none := by decide
  refine (lifetimes_iff (tlvPlatform false false) { repoPrefixes := [nameOf ["r"]] } ∅
    (Option.some_get runs).symm).mpr ?_
  rintro s occurrence ⟨before, within, _⟩ ⟨fetchPrefix, instanceId, asked, _⟩
  rw [noTarget occurrence (within.subset (by simp))] at asked
  cases asked

end CallbackLifetime

end FastRepo
