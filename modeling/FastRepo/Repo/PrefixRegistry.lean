/-
The registered data prefixes.

Configuration, startup scan and announcements feed one list of data prefixes, and the list of the
names passed to `ReadHandle::listen` equals it. The scan is added without the check that
announcements get, and that check looks for a prefix of the new name but not for its extensions.
`oneListener_iff` says which inputs leave these names pairwise incomparable, so that each Interest
has at most one listener.
-/

import FastRepo.Handles.CommandTlv
import FastRepo.Handles.ReadHandle
import FastRepo.Repo.Listening

namespace FastRepo

open Exits PrefixCover

namespace FastRepoImpl

variable (platform : Platform)

/-- The packets the read handle puts to the face for an Interest, when the registrations return: the
face calls it back once for each prefix of the Interest name that was passed to `listen`. -/
def answers (repo : FastRepoImpl) (interest : Interest) : List Data :=
  (matching repo.passedToListen interest.name).filterMap fun _ =>
    match ReadHandle.onInterest platform.ndn repo.storage interest with
    | .ok answer => answer
    | .error _ => none

/-- The names passed to `listen` are pairwise incomparable, so an Interest has at most one listener
and gets at most one answer. -/
structure OneListener (repo : FastRepoImpl) : Prop where
  apart : repo.passedToListen.Pairwise Incomparable
  oneMatch : ∀ interest : Interest,
    (matching repo.passedToListen interest.name).length ≤ 1
  oneAnswer : ∀ interest : Interest, (repo.answers platform interest).length ≤ 1

theorem oneListener_iff_apart (repo : FastRepoImpl) :
    repo.OneListener platform ↔ repo.passedToListen.Pairwise Incomparable := by
  refine ⟨OneListener.apart, fun apart => ⟨apart, fun interest => matching_le_one apart _, ?_⟩⟩
  intro interest
  exact (List.length_filterMap_le _ _).trans (matching_le_one apart _)

/-- The repo after a sequence of announcements. -/
def afterInsertions (repo : FastRepoImpl) (insertions : List (Outcomes × Name)) : FastRepoImpl :=
  insertions.foldl (fun current insertion =>
    final (onDataInsertion insertion.1 insertion.2) current) repo

/-- One announcement keeps what was passed to `listen` equal to the data prefixes. -/
theorem passedToListen_announced {repo : FastRepoImpl}
    (same : repo.passedToListen = repo.config.dataPrefixes) (outcomes : Outcomes) (name : Name) :
    (repo.announced outcomes name).passedToListen =
      (repo.announced outcomes name).config.dataPrefixes := by
  unfold announced
  split
  · exact same
  · show repo.passedToListen ++ [name] = repo.config.dataPrefixes ++ [name]
    rw [same]

/-- The register: announcements add to the data prefixes what is not covered yet, and what was
passed to `listen` stays equal to them. -/
theorem afterInsertions_register {repo : FastRepoImpl}
    (same : repo.passedToListen = repo.config.dataPrefixes)
    (insertions : List (Outcomes × Name)) :
    (repo.afterInsertions insertions).config.dataPrefixes =
        addAll repo.config.dataPrefixes (insertions.map Prod.snd) ∧
      (repo.afterInsertions insertions).passedToListen =
        (repo.afterInsertions insertions).config.dataPrefixes := by
  induction insertions using List.reverseRecOn with
  | nil => exact ⟨rfl, same⟩
  | append_singleton insertions last ih =>
    obtain ⟨prefixes, listeners⟩ := ih
    have step : repo.afterInsertions (insertions ++ [last]) =
        (repo.afterInsertions insertions).announced last.1 last.2 := by
      rw [afterInsertions, List.foldl_append]
      exact final_onDataInsertion last.1 last.2 _
    rw [step, List.map_append, List.map_singleton, addAll_concat, announced_dataPrefixes, prefixes]
    exact ⟨rfl, by rw [passedToListen_announced listeners, announced_dataPrefixes, prefixes]⟩

/-- One listener: **the names passed to `listen` stay incomparable exactly when the configured and
the scanned prefixes are incomparable and every announced name comes in order after what was
configured, scanned and announced before it**. -/
theorem oneListener_iff (config : Config) (db : Db) (insertions : List (Outcomes × Name)) :
    ((started platform config db).afterInsertions insertions).OneListener platform ↔
      (config.dataPrefixes ++ scanned platform config db).Pairwise Incomparable ∧
        AllInOrder (config.dataPrefixes ++ scanned platform config db)
          (insertions.map Prod.snd) := by
  obtain ⟨prefixes, same, _⟩ := started_dataPrefixes platform config db
  obtain ⟨registered, listeners⟩ := afterInsertions_register same insertions
  rw [oneListener_iff_apart, listeners, registered, prefixes]
  exact pairwise_addAll_iff _ _

/-- With the data prefix `/a` configured and a packet `/a/b/c` in the database, the startup scan
alone puts a second listener below `/a`. -/
theorem two_listeners :
    [nameOf ["a"]].Pairwise Incomparable ∧
      ¬ ((started (tlvPlatform false false) { dataPrefixes := [nameOf ["a"]] }
        ((StorageEngine.opened []).putAll ndnTlv
          [{ name := nameOf ["a", "b", "c"] }]).pimpl.db).afterInsertions []).OneListener
          (tlvPlatform false false) := by
  refine ⟨by decide, fun one => ?_⟩
  have apart := one.apart
  revert apart
  decide

end FastRepoImpl

end FastRepo
