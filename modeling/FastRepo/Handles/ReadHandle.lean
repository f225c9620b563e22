/-
Answering Interests.

`ReadHandle::onInterest` answers with what the storage reads. The match is made on the text of the
URIs, so a stored name whose URI begins with the URI of the Interest name is a candidate even when
the Interest name is not one of its prefixes: a stray match, such as `/a/bc` for `/a/b`.
`answersExtend_iff` says when no answer is a stray match: exactly when every stray match that passes
the selector check is overtaken by a proper match with a greater key.
-/

import FastRepo.Storage.PrefixLookup

namespace FastRepo

namespace ReadHandle

variable (ndn : NdnCpp)

/-- `ReadHandle::onInterest`: the packet put to the face, if there is one. -/
def onInterest (storage : StorageEngine) (interest : Interest) : Except Exn (Option Data) :=
  if interest.mustBeFresh = false then storage.read ndn interest else .ok none

/-- What the handle answers is what the storage reads. -/
theorem read_of_onInterest {storage : StorageEngine} {interest : Interest} {answer : Data}
    (answered : onInterest ndn storage interest = .ok (some answer)) :
    storage.read ndn interest = .ok (some answer) := by
  unfold onInterest at answered
  split at answered
  · exact answered
  · cases answered

end ReadHandle

/-- The URI of `n` begins with the URI of `p`, but `p` is not a prefix of `n`. -/
def StrayMatch (ndn : NdnCpp) (p n : Name) : Prop :=
  ndn.uri.toUri p <+: ndn.uri.toUri n ∧ ¬ p <+: n

namespace StorageEngine

open StorageEngineImpl

variable (ndn : NdnCpp)

/-- Every answer to the Interest, by the storage and by the read handle, extends its name. -/
def AnswersExtend (engine : StorageEngine) (interest : Interest) : Prop :=
  (∀ answer, engine.read ndn interest = .ok (some answer) → interest.name <+: answer.name) ∧
    ∀ answer, ReadHandle.onInterest ndn engine interest = .ok (some answer) →
      interest.name <+: answer.name

/-- Every stored stray match that passes the selector check is overtaken: a stored name that
properly extends the Interest name and passes the check has a greater key. -/
def StraysOvertaken (renamePrefix : Bytes) (packets : List Data) (interest : Interest) : Prop :=
  ∀ data ∈ packets, StrayMatch ndn interest.name (storedName ndn renamePrefix data) →
    passCheck interest (storedName ndn renamePrefix data) = true →
      ∃ other ∈ packets, interest.name <+: storedName ndn renamePrefix other ∧
        passCheck interest (storedName ndn renamePrefix other) = true ∧
        compare (ndn.uri.toUri (storedName ndn renamePrefix data))
          (ndn.uri.toUri (storedName ndn renamePrefix other)) = .lt

/-- Stray matches: **after every run of successful puts the answers to a prefix Interest extend its
name exactly when every stray match that passes the selector check is overtaken**. -/
theorem answersExtend_iff (renamePrefix : Bytes) (packets : List Data) (interest : Interest)
    (canBePrefix : interest.canBePrefix = true) :
    AnswersExtend ndn ((opened renamePrefix).putAll ndn packets) interest ↔
      StraysOvertaken ndn renamePrefix packets interest := by
  have answers : AnswersExtend ndn ((opened renamePrefix).putAll ndn packets) interest ↔
      ∀ answer, ((opened renamePrefix).putAll ndn packets).read ndn interest = .ok (some answer) →
        interest.name <+: answer.name :=
    ⟨And.left, fun extend =>
      ⟨extend, fun answer answered => extend answer (ReadHandle.read_of_onInterest ndn answered)⟩⟩
  rw [answers, forall_answer_iff ndn renamePrefix packets canBePrefix (interest.name <+: ·)]
  constructor
  · intro overtaken data member stray passes
    obtain ⟨other, otherMember, candidate, proper, greater⟩ := overtaken data member
      ((isCandidate_toUri ndn interest _).mpr ⟨stray.1, passes⟩) stray.2
    exact ⟨other, otherMember, proper, ((isCandidate_toUri ndn interest _).mp candidate).2, greater⟩
  · intro overtaken data member candidate notExtend
    obtain ⟨within, passes⟩ := (isCandidate_toUri ndn interest _).mp candidate
    obtain ⟨other, otherMember, proper, otherPasses, greater⟩ :=
      overtaken data member ⟨within, notExtend⟩ passes
    exact ⟨other, otherMember, (isCandidate_toUri ndn interest _).mpr
      ⟨ndn.uri.toUri_extends proper, otherPasses⟩, proper, greater⟩

/-- With `/a/bc` alone in the store, the Interest `/a/b` is answered with it. -/
theorem stray_answer :
    ((opened []).putAll ndnTlv [{ name := nameOf ["a", "bc"] }]).read ndnTlv
        { name := nameOf ["a", "b"] } = .ok (some { name := nameOf ["a", "bc"] }) ∧
      ¬ AnswersExtend ndnTlv ((opened []).putAll ndnTlv [{ name := nameOf ["a", "bc"] }])
        { name := nameOf ["a", "b"] } := by
  have answer : ((opened []).putAll ndnTlv [{ name := nameOf ["a", "bc"] }]).read ndnTlv
      { name := nameOf ["a", "b"] } = .ok (some { name := nameOf ["a", "bc"] }) := by decide
  exact ⟨answer, fun extend => absurd (extend.1 _ answer) (by decide)⟩

/-- The stray match `/a/b%00` for the Interest `/a/b` is overtaken by `/a/b/c`. -/
theorem answersExtend_overtaken :
    AnswersExtend ndnTlv ((opened []).putAll ndnTlv
      [{ name := [.generic (ascii "a"), .generic (ascii "b" ++ [0])] },
        { name := nameOf ["a", "b", "c"] }]) { name := nameOf ["a", "b"] } := by
  refine (answersExtend_iff ndnTlv [] _ _ rfl).mpr ?_
  unfold StraysOvertaken StrayMatch
  decide

end StorageEngine

end FastRepo
