/-
Reading the latest version of a name.

A prefix read keeps the last key, and keys are URIs in bytewise order, so the version it returns is
the last one in the order of the escaped texts. `latestVersion_iff` says when that is the latest
version: when the bytes of every other version precede its bytes in the order of `uriRank`. The two
orders part where a byte that stands for itself meets an escaped one, and where the encodings have
different lengths.
-/

import FastRepo.Ndn.NameConventions
import FastRepo.Ndn.UriOrder
import FastRepo.Storage.PrefixLookup

namespace FastRepo

open StorageEngineImpl

/-- The first segment of a version of a name. -/
def versionName (n : Name) (version : UInt64) : Name :=
  (n.appendVersion version).appendSegment 0

/-- The version is the greatest of the versions. -/
def IsLatest (versions : List UInt64) (latest : UInt64) : Prop :=
  latest ∈ versions ∧ ∀ version ∈ versions, version ≤ latest

-- The versions are looked at one by one: there are too many values of the type to go through.
instance (versions : List UInt64) (latest : UInt64) : Decidable (IsLatest versions latest) :=
  @instDecidableAnd _ _ inferInstance (List.decidableBAll (fun version => version ≤ latest) versions)

/-- The places of the bytes of a version number in the order of the escaped texts. -/
def versionRanks (version : UInt64) : List Nat := uriRanks (nonNegativeInteger version)

/-- The URI of one version precedes that of the other. -/
def PrecedesInUri (first second : UInt64) : Prop :=
  compare (versionRanks first) (versionRanks second) = .lt

instance (first second : UInt64) : Decidable (PrecedesInUri first second) :=
  inferInstanceAs (Decidable (_ = _))

/-! ### The keys of the versions -/

section Keys

variable (ndn : NdnCpp)

theorem UriScheme.toUri_append (uri : UriScheme) (n : Name) {rest : Name} (more : rest ≠ []) :
    uri.toUri (n ++ rest) =
      (n.flatMap fun component => slash :: uri.escape component) ++ uri.toUri rest := by
  cases rest with
  | nil => exact absurd rfl more
  | cons component rest =>
    cases n with
    | nil => rfl
    | cons first n =>
      rw [List.cons_append, uri.toUri_cons, uri.toUri_cons]
      simp

theorem versionName_extends (n : Name) (version : UInt64) : n <+: versionName n version :=
  (List.prefix_append n _).trans (List.prefix_append _ _)

/-- The keys of two versions compare as the places of their bytes do. -/
theorem compare_versionName (escapes : ndn.uri.EscapesBytes) (n : Name) (first second : UInt64) :
    compare (ndn.uri.toUri (versionName n first)) (ndn.uri.toUri (versionName n second)) =
      compare (versionRanks first) (versionRanks second) := by
  have text (version : UInt64) : ndn.uri.toUri (versionName n version) =
      (n.flatMap fun component => slash :: ndn.uri.escape component) ++
        slash :: (ndn.uri.escape (.generic (versionMarker :: nonNegativeInteger version)) ++
          slash :: ndn.uri.escape (.fromNumberWithMarker 0 segmentMarker)) := by
    rw [versionName, Name.appendSegment, Name.appendVersion, List.append_assoc,
      ndn.uri.toUri_append n (by simp), List.cons_append, List.nil_append, ndn.uri.toUri_cons]
    simp [Component.fromNumberWithMarker]
  have marked (version : UInt64) : ∃ b ∈ versionMarker :: nonNegativeInteger version,
      b ≠ UriText.period := ⟨versionMarker, List.mem_cons_self, by decide⟩
  have ranks (version : UInt64) : uriRanks (versionMarker :: nonNegativeInteger version) =
      uriRank versionMarker :: versionRanks version := rfl
  rw [text, text, PrefixRun.compare_append_left, PrefixRun.compare_cons,
    compare_escape escapes (marked first) (marked second), ranks, ranks, PrefixRun.compare_cons]
  simp only [Std.ReflOrd.compare_self, Ordering.eq_then, Ordering.then_eq]

theorem isCandidate_versionName (n : Name) (version : UInt64) :
    isCandidate ndn { name := n } (ndn.uri.toUri (versionName n version)) = true :=
  (isCandidate_toUri ndn _ _).mpr ⟨ndn.uri.toUri_extends (versionName_extends n version), rfl⟩

end Keys

/-! ### The version that is read -/

namespace StorageEngine

variable (ndn : NdnCpp)

/-- The versions of one name have different keys. -/
theorem compare_versionName_ne (n : Name) {first second : UInt64} (apart : first ≠ second) :
    compare (ndn.uri.toUri (versionName n first)) (ndn.uri.toUri (versionName n second)) ≠ .eq := by
  intro same
  have names := ndn.uri.toUri_injective (Std.LawfulEqOrd.eq_of_compare same)
  exact apart (n.appendVersion_injective 0 names)

/-- Versions: **after putting the first segments of some versions of a name, a prefix read of the
name returns the latest of them exactly when the URIs of all others precede its URI**. -/
theorem latestVersion_iff (escapes : ndn.uri.EscapesBytes) (n : Name) (versions : List UInt64)
    (packet : UInt64 → Data)
    (names : ∀ version ∈ versions, (packet version).name = versionName n version)
    {latest : UInt64} (greatest : IsLatest versions latest) :
    ((opened []).putAll ndn (versions.map packet)).read ndn { name := n, canBePrefix := true } =
        .ok (some (packet latest)) ↔
      ∀ version ∈ versions, version ≠ latest → PrecedesInUri version latest := by
  have stored : ∀ version ∈ versions, storedName ndn [] (packet version) = versionName n version :=
    names
  have candidate : ∀ version ∈ versions, isCandidate ndn { name := n }
      (ndn.uri.toUri (storedName ndn [] (packet version))) = true := by
    intro version inVersions
    rw [stored version inVersions]
    exact isCandidate_versionName ndn n version
  have member : latest ∈ versions := greatest.1
  constructor
  · intro returned version inVersions apart
    obtain ⟨data, inPackets, same, _, above⟩ :=
      stored_of_read ndn [] (versions.map packet) rfl returned
    have le := above (packet version) (List.mem_map_of_mem inVersions)
      (candidate version inVersions)
    have name : storedName ndn [] data = versionName n latest := by
      rw [← storedData_name, same, names latest member]
    rw [stored version inVersions, name] at le
    rw [PrecedesInUri, ← compare_versionName ndn escapes n]
    exact (Ordering.isLE_iff_eq_lt_or_eq_eq.mp le).resolve_right
      (compare_versionName_ne ndn n apart)
  · intro precede
    obtain ⟨answer, returned, _⟩ := read_above_candidate ndn [] (versions.map packet) rfl
      (List.mem_map_of_mem member) (candidate latest member)
    obtain ⟨data, inPackets, rfl, _, above⟩ :=
      stored_of_read ndn [] (versions.map packet) rfl returned
    obtain ⟨version, inVersions, rfl⟩ := List.mem_map.mp inPackets
    by_cases same : version = latest
    · rw [returned, same]
      rfl
    · have le := above (packet latest) (List.mem_map_of_mem member) (candidate latest member)
      have before := precede version inVersions same
      rw [PrecedesInUri, ← compare_versionName ndn escapes n] at before
      rw [stored latest member, stored version inVersions, Std.OrientedOrd.eq_swap, before] at le
      cases le

/-- Version 57 is the digit `9`, which stands for itself, and version 58 is escaped. -/
theorem earlier_version_answer :
    IsLatest [57, 58] 58 ∧
    ((opened []).putAll ndnTlv [{ name := versionName (nameOf ["a"]) 57 },
        { name := versionName (nameOf ["a"]) 58 }]).read ndnTlv
      { name := nameOf ["a"], canBePrefix := true } =
        .ok (some { name := versionName (nameOf ["a"]) 57 }) ∧
    ((opened []).putAll ndnTlv [{ name := versionName (nameOf ["a"]) 57 },
        { name := versionName (nameOf ["a"]) 58 }]).read ndnTlv
      { name := nameOf ["a"], canBePrefix := true } ≠
        .ok (some { name := versionName (nameOf ["a"]) 58 }) := by
  decide

/-- The versions 0, 1 and 2 are read as expected, in whichever order they are put. -/
theorem latestVersion_three :
    ((opened []).putAll ndnTlv ([2, 0, 1].map fun version =>
        { name := versionName (nameOf ["a"]) version })).read ndnTlv
      { name := nameOf ["a"], canBePrefix := true } =
        .ok (some { name := versionName (nameOf ["a"]) 2 }) :=
  (latestVersion_iff ndnTlv escapesBytes_uriText (nameOf ["a"]) [2, 0, 1]
    (fun version => { name := versionName (nameOf ["a"]) version }) (fun _ _ => rfl)
      (by decide)).mpr (by
    simp only [List.forall_mem_cons]
    exact ⟨by decide, by decide, by decide, fun _ member => absurd member List.not_mem_nil⟩)

end StorageEngine

end FastRepo
