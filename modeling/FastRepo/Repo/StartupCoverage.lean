/-
Which stored packets a restart covers.

At the start the repo listens for every prefix the scan returns. `startupCoverage_iff` says for
which databases these prefixes cover all stored names: every stored name has a nonempty prefix,
maybe itself, that the stored names continue in no way or in more than one. A name that only lies on
the way to longer ones, such as `/a` beside `/a/b`, has none.
-/

import FastRepo.Handles.CommandTlv
import FastRepo.Repo.Listening
import FastRepo.Storage.KeyScan
import FastRepo.Storage.PrefixLookup

namespace FastRepo

namespace StorageEngine

variable (ndn : NdnCpp)

/-- The database after a run of successful puts, and the names stored in it. -/
def storedDb (renamePrefix : Bytes) (packets : List Data) : Db :=
  ((opened renamePrefix).putAll ndn packets).pimpl.db

def storedNames (renamePrefix : Bytes) (packets : List Data) : List Name :=
  packets.map (storedName ndn renamePrefix)

theorem keysAre_storedDb (renamePrefix : Bytes) (packets : List Data) :
    StorageEngineImpl.KeysAre ndn (storedDb ndn renamePrefix packets)
      (storedNames ndn renamePrefix packets) := by
  have well := wellStored_putAll ndn (wellStored_opened ndn renamePrefix) packets
  intro key
  constructor
  · rintro ⟨value, member⟩
    have stored := Std.TreeMap.mem_toList_iff_getElem?_eq_some.mp member
    obtain ⟨data, rfl, _⟩ := well key value stored
    obtain ⟨other, inside, name⟩ :=
      (mem_keys_putAll ndn renamePrefix packets data.name).mp ⟨value, member⟩
    exact ⟨data.name, List.mem_map.mpr ⟨other, inside, name⟩, rfl⟩
  · rintro ⟨n, stored, rfl⟩
    obtain ⟨data, inside, name⟩ := List.mem_map.mp stored
    exact (mem_keys_putAll ndn renamePrefix packets n).mpr ⟨data, inside, name⟩

end StorageEngine

namespace FastRepoImpl

open StorageEngine

variable (platform : Platform)

/-- Every stored name with a component has a scanned prefix that the repo listens for. -/
def CoversStored (config : Config) (db : Db) (names : List Name) : Prop :=
  ∀ n ∈ names, n ≠ [] →
    ∃ p ∈ scanned platform config db,
      p ∈ (started platform config db).face.dataListeners ∧ p <+: n

/-- Startup coverage: **a restart covers all stored names exactly when each of them has a nonempty
prefix that the stored names do not continue in exactly one way**. -/
theorem startupCoverage_iff (config : Config) (renamePrefix : Bytes) (packets : List Data)
    (generic : ∀ n ∈ storedNames platform.ndn renamePrefix packets,
      ∀ component ∈ n, component.IsGeneric) :
    CoversStored platform config (storedDb platform.ndn renamePrefix packets)
        (storedNames platform.ndn renamePrefix packets) ↔
      ∀ n ∈ storedNames platform.ndn renamePrefix packets, n ≠ [] →
        ∃ q, q ≠ [] ∧ q <+: n ∧
          ¬ ContinuedOnce (storedNames platform.ndn renamePrefix packets) q := by
  have keys := keysAre_storedDb platform.ndn renamePrefix packets
  obtain ⟨prefixes, _, listeners⟩ := started_dataPrefixes platform config
    (storedDb platform.ndn renamePrefix packets)
  refine forall_congr' fun n => forall_congr' fun stored => forall_congr' fun nonempty => ?_
  have fresh : (constructed config
      (storedDb platform.ndn renamePrefix packets)).storage.pimpl.keysTrie = {} := rfl
  have covers := StorageEngineImpl.scan_covers_iff fresh keys generic stored nonempty
  refine Iff.trans (exists_congr fun p => and_congr_right fun returned => ?_) covers
  refine and_iff_right ?_
  rw [listeners, prefixes]
  exact List.mem_append_right _ returned

/-- With `/a` and `/a/b` in the database, the scan returns `/a/b` alone. -/
theorem uncovered_name :
    ¬ CoversStored (tlvPlatform false false) {}
      (storedDb ndnTlv [] [{ name := nameOf ["a"] }, { name := nameOf ["a", "b"] }])
      (storedNames ndnTlv [] [{ name := nameOf ["a"] }, { name := nameOf ["a", "b"] }]) := by
  intro covers
  obtain ⟨p, returned, _, extension⟩ := covers (nameOf ["a"]) (by decide) (by decide)
  revert extension
  revert p
  decide

/-- With `/a/b` and `/a/c` in the database, the scan returns `/a`. -/
theorem covered_names :
    CoversStored (tlvPlatform false false) {}
      (storedDb ndnTlv [] [{ name := nameOf ["a", "b"] }, { name := nameOf ["a", "c"] }])
      (storedNames ndnTlv [] [{ name := nameOf ["a", "b"] }, { name := nameOf ["a", "c"] }]) := by
  refine (startupCoverage_iff (tlvPlatform false false) {} [] _ (by decide)).mpr ?_
  intro n stored _
  refine ⟨nameOf ["a"], by decide, ?_, ?_⟩
  · revert n
    decide
  · rintro ⟨c, once⟩
    have first := (once (.generic (ascii "b"))).mp (by decide)
    have second := (once (.generic (ascii "c"))).mp (by decide)
    exact absurd (first.trans second.symm) (by decide)

end FastRepoImpl

end FastRepo
