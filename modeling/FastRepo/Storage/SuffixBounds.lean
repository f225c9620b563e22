/-
The suffix bounds of a prefix read.

An Interest can bound the number of components an answer has beyond its name, from above and from
below. The check of the read loop lets a key pass that meets one of the two bounds when both are
set. `boundsHold_iff` says when the answers meet both all the same: when every stored match that
meets one bound alone is overtaken by one that meets both.
-/

import FastRepo.Storage.PrefixLookup

namespace FastRepo

open StorageEngineImpl

/-- The name meets the maximum or the minimum. -/
def MeetsEither (interest : Interest) (n : Name) : Prop :=
  (n.length : Int) ≤ interest.name.length + interest.maxSuffixComponents ∨
    interest.name.length + interest.minSuffixComponents ≤ (n.length : Int)

instance (interest : Interest) (n : Name) : Decidable (MeetsBounds interest n) :=
  inferInstanceAs (Decidable (_ ∧ _))

instance (interest : Interest) (n : Name) : Decidable (MeetsEither interest n) :=
  inferInstanceAs (Decidable (_ ∨ _))

/-- Both bounds are set. -/
def BothBounds (interest : Interest) : Prop :=
  interest.maxSuffixComponents ≠ -1 ∧ interest.minSuffixComponents ≠ -1

instance (interest : Interest) : Decidable (BothBounds interest) :=
  inferInstanceAs (Decidable (_ ∧ _))

/-- With both bounds set, the check asks for one of them. -/
theorem passCheck_iff_of_both {interest : Interest} (both : BothBounds interest) (n : Name) :
    passCheck interest n = true ↔ MeetsEither interest n := by
  obtain ⟨max, min⟩ := both
  simp [passCheck, MeetsEither, max, min, nSuffixComponents_le_iff, le_nSuffixComponents_iff]

/-- With one bound set or none, the check asks for what is set. -/
theorem meetsBounds_of_passCheck {interest : Interest} (single : ¬BothBounds interest) {n : Name}
    (passes : passCheck interest n = true) : MeetsBounds interest n := by
  by_cases max : interest.maxSuffixComponents = -1
  · refine ⟨fun set => absurd max set, fun set => ?_⟩
    simpa [passCheck, max, set, le_nSuffixComponents_iff] using passes
  · by_cases min : interest.minSuffixComponents = -1
    · refine ⟨fun set => ?_, fun set => absurd min set⟩
      simpa [passCheck, min, set, nSuffixComponents_le_iff] using passes
    · exact absurd ⟨max, min⟩ single

namespace StorageEngine

variable (ndn : NdnCpp)

/-- Every answer to the Interest meets the suffix bounds that are set. -/
def BoundsHold (engine : StorageEngine) (interest : Interest) : Prop :=
  ∀ answer, engine.read ndn interest = .ok (some answer) → MeetsBounds interest answer.name

/-- With both bounds set, every stored match that meets one bound alone is overtaken: a stored match
that meets both has a greater key. -/
def HalfMatchesOvertaken (renamePrefix : Bytes) (packets : List Data) (interest : Interest) : Prop :=
  BothBounds interest →
    ∀ data ∈ packets,
      ndn.uri.toUri interest.name <+: ndn.uri.toUri (storedName ndn renamePrefix data) →
      MeetsEither interest (storedName ndn renamePrefix data) →
      ¬MeetsBounds interest (storedName ndn renamePrefix data) →
        ∃ other ∈ packets,
          ndn.uri.toUri interest.name <+: ndn.uri.toUri (storedName ndn renamePrefix other) ∧
          MeetsBounds interest (storedName ndn renamePrefix other) ∧
          compare (ndn.uri.toUri (storedName ndn renamePrefix data))
            (ndn.uri.toUri (storedName ndn renamePrefix other)) = .lt

/-- Suffix bounds: **after every run of successful puts the answers to a prefix Interest meet the
bounds that are set exactly when each match that meets only one of two bounds is overtaken**. -/
theorem boundsHold_iff (renamePrefix : Bytes) (packets : List Data) (interest : Interest)
    (canBePrefix : interest.canBePrefix = true) :
    BoundsHold ndn ((opened renamePrefix).putAll ndn packets) interest ↔
      HalfMatchesOvertaken ndn renamePrefix packets interest := by
  rw [BoundsHold, forall_answer_iff ndn renamePrefix packets canBePrefix (MeetsBounds interest)]
  constructor
  · intro overtaken both data member within either misses
    obtain ⟨other, otherMember, candidate, meets, greater⟩ := overtaken data member
      ((isCandidate_toUri ndn interest _).mpr ⟨within, (passCheck_iff_of_both both _).mpr either⟩)
      misses
    exact ⟨other, otherMember, ((isCandidate_toUri ndn interest _).mp candidate).1, meets, greater⟩
  · intro overtaken data member candidate misses
    obtain ⟨within, passes⟩ := (isCandidate_toUri ndn interest _).mp candidate
    by_cases both : BothBounds interest
    · obtain ⟨other, otherMember, otherWithin, meets, greater⟩ := overtaken both data member within
        ((passCheck_iff_of_both both _).mp passes) misses
      exact ⟨other, otherMember, (isCandidate_toUri ndn interest _).mpr
        ⟨otherWithin, passCheck_of_meetsBounds meets⟩, meets, greater⟩
    · exact absurd (meetsBounds_of_passCheck both passes) misses

/-- With `/a/b` alone in the store, an Interest `/a` for two to three further components is answered
with it. -/
theorem half_match_answer :
    ((opened []).putAll ndnTlv [{ name := nameOf ["a", "b"] }]).read ndnTlv
        { name := nameOf ["a"], minSuffixComponents := 2, maxSuffixComponents := 3 } =
      .ok (some { name := nameOf ["a", "b"] }) ∧
      ¬BoundsHold ndnTlv ((opened []).putAll ndnTlv [{ name := nameOf ["a", "b"] }])
        { name := nameOf ["a"], minSuffixComponents := 2, maxSuffixComponents := 3 } := by
  have answer : ((opened []).putAll ndnTlv [{ name := nameOf ["a", "b"] }]).read ndnTlv
      { name := nameOf ["a"], minSuffixComponents := 2, maxSuffixComponents := 3 } =
        .ok (some { name := nameOf ["a", "b"] }) := by decide
  exact ⟨answer, fun holds => absurd (holds _ answer) (by decide)⟩

/-- The half match `/a/b` is overtaken by `/a/c/d`. -/
theorem boundsHold_overtaken :
    BoundsHold ndnTlv ((opened []).putAll ndnTlv
        [{ name := nameOf ["a", "b"] }, { name := nameOf ["a", "c", "d"] }])
      { name := nameOf ["a"], minSuffixComponents := 2, maxSuffixComponents := 3 } := by
  refine (boundsHold_iff ndnTlv [] _ _ rfl).mpr ?_
  unfold HalfMatchesOvertaken
  decide

end StorageEngine

end FastRepo
