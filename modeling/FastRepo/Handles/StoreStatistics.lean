/-
The statistics of the store.

A scan counts the keys and the bytes of the values from zero, and no other call touches the
counters. They are right after the startup scan, and stay right exactly as long as every put replaces
a value by one of the same size: `statistics_iff`.
-/

import FastRepo.Handles.StatusReports
import FastRepo.Lib.JsonText
import FastRepo.Lib.ValueSum
import FastRepo.Storage.Rescan

namespace FastRepo

/-- The sum of the sizes of the stored values. -/
def payload (db : Db) : Nat := ValueSum.valueSum List.length db

namespace StorageEngine

/-! ### The counters -/

/-- `StorageEngine::getKeysNum`. -/
def getKeysNum (engine : StorageEngine) : Nat := engine.pimpl.stats.nKeys

/-- `StorageEngine::getPayloadSize`. -/
def getPayloadSize (engine : StorageEngine) : Nat := engine.pimpl.stats.valueSizeBytes

/-- The counters are those of the current store. -/
structure StatisticsCurrent (engine : StorageEngine) : Prop where
  keys : engine.getKeysNum = engine.pimpl.db.size
  payload : engine.getPayloadSize = payload engine.pimpl.db

instance (engine : StorageEngine) : Decidable engine.StatisticsCurrent :=
  decidable_of_iff (engine.getKeysNum = engine.pimpl.db.size ∧
      engine.getPayloadSize = FastRepo.payload engine.pimpl.db)
    ⟨fun current => ⟨current.1, current.2⟩, fun current => ⟨current.keys, current.payload⟩⟩

variable (ndn : NdnCpp)

/-- The size of the value a put of the packet would replace, if there is one. -/
def replacedSize (engine : StorageEngine) (data : Data) : Option Nat :=
  engine.pimpl.db[ndn.uri.toUri (storedName ndn engine.pimpl.renamePrefix data)]?.map List.length

/-- The size of the value a put of the packet writes. -/
def writtenSize (engine : StorageEngine) (data : Data) : Nat :=
  (ndn.wire.wireEncode (storedData ndn engine.pimpl.renamePrefix data)).length

/-- A put of the packet replaces a stored value by one of the same size. -/
def Replaces (engine : StorageEngine) (data : Data) : Prop :=
  engine.replacedSize ndn data = some (engine.writtenSize ndn data)

instance (engine : StorageEngine) (data : Data) : Decidable (engine.Replaces ndn data) :=
  inferInstanceAs (Decidable (_ = _))

/-- A put adds a key unless it replaces a value. -/
theorem size_put (engine : StorageEngine) (data : Data) :
    (engine.put ndn data true).1.pimpl.db.size =
      if (engine.replacedSize ndn data).isSome then engine.pimpl.db.size
      else engine.pimpl.db.size + 1 := by
  rw [put_db, Std.TreeMap.size_insert, replacedSize, Option.isSome_map,
    Std.TreeMap.isSome_getElem?_eq_contains]

/-- A put adds the size of the value it writes and takes off that of the value it replaces. -/
theorem payload_put (engine : StorageEngine) (data : Data) :
    payload (engine.put ndn data true).1.pimpl.db + (engine.replacedSize ndn data).getD 0 =
      payload engine.pimpl.db + engine.writtenSize ndn data := by
  rw [put_db]
  exact ValueSum.valueSum_insert List.length engine.pimpl.db _ _

/-- The loop of the scan counts the entries and adds up their values. -/
theorem foldl_stats (entries : List (Bytes × Bytes)) (start : Stats) :
    entries.foldl (fun stats entry => ⟨stats.nKeys + 1, stats.valueSizeBytes + entry.2.length⟩)
        start =
      (⟨start.nKeys + entries.length,
        start.valueSizeBytes + (entries.map fun entry => entry.2.length).sum⟩ : Stats) := by
  induction entries generalizing start with
  | nil => rfl
  | cons entry entries ih =>
    rw [List.foldl_cons, ih, List.length_cons, List.map_cons, List.sum_cons, Stats.mk.injEq]
    exact ⟨Nat.add_right_comm _ _ _, Nat.add_assoc _ _ _⟩

/-- A scan sets the counters to those of the store. -/
theorem statisticsCurrent_scan (engine : StorageEngine) :
    (engine.scanForLongestPrefixes ndn).1.StatisticsCurrent := by
  have counted : engine.pimpl.buildKeyTrie.stats =
      ⟨engine.pimpl.db.size, FastRepo.payload engine.pimpl.db⟩ := by
    have loop := foldl_stats engine.pimpl.db.toList {}
    rw [Std.TreeMap.length_toList, Nat.zero_add, Nat.zero_add] at loop
    exact loop
  exact ⟨congrArg Stats.nKeys counted, congrArg Stats.valueSizeBytes counted⟩

/-- A put: **it leaves right counters right exactly when it replaces a value by one of the same
size**. -/
theorem statisticsCurrent_put_iff {engine : StorageEngine} (current : engine.StatisticsCurrent)
    (data : Data) :
    (engine.put ndn data true).1.StatisticsCurrent ↔ engine.Replaces ndn data := by
  have stats : (engine.put ndn data true).1.pimpl.stats = engine.pimpl.stats := by
    rw [put_eq]
  have keysNum : (engine.put ndn data true).1.getKeysNum = engine.pimpl.db.size :=
    (congrArg Stats.nKeys stats).trans current.keys
  have payloadSize : (engine.put ndn data true).1.getPayloadSize = payload engine.pimpl.db :=
    (congrArg Stats.valueSizeBytes stats).trans current.payload
  have size := size_put ndn engine data
  have sum := payload_put ndn engine data
  constructor
  · intro after
    have sameKeys := keysNum.symm.trans after.keys
    have samePayload := payloadSize.symm.trans after.payload
    unfold Replaces
    cases replaced : engine.replacedSize ndn data with
    | none =>
      rw [replaced, Option.isSome_none, if_neg Bool.false_ne_true] at size
      omega
    | some old =>
      rw [replaced, Option.getD_some] at sum
      rw [Option.some.injEq]
      omega
  · intro replaces
    rw [replaces, Option.isSome_some, if_pos rfl] at size
    rw [replaces, Option.getD_some] at sum
    exact ⟨keysNum.trans size.symm, payloadSize.trans (by omega)⟩

/-- In a run: **the counters are right after every call exactly when every put replaces a value by
one of the same size**. -/
theorem statisticsCurrent_run_iff {start : StorageEngine} (current : start.StatisticsCurrent)
    (calls : List EngineCall) :
    (∀ s, Runs.Passes (step ndn) start calls s → s.StatisticsCurrent) ↔
      ∀ s data, Runs.Takes (step ndn) start calls s (.put data) → s.Replaces ndn data := by
  obtain ⟨last, reached⟩ := exists_run ndn start calls
  have runs := Runs.run_forall_iff (I := fun _ => True) (P := StatisticsCurrent)
    (C := fun s call => ∀ data, call = .put data → s.Replaces ndn data) trivial
    (fun _ _ _ _ _ => trivial) current (fun s call next _ right stepped => ?_) reached
  · refine runs.trans ⟨fun replaces s data taken => replaces s _ taken data rfl,
      fun replaces s call taken data same => replaces s data (same ▸ taken)⟩
  · cases call with
    | put data =>
      cases stepped
      rw [statisticsCurrent_put_iff ndn right]
      simp
    | scanForLongestPrefixes =>
      cases stepped
      exact iff_of_true (statisticsCurrent_scan ndn s) (by simp)

end StorageEngine

/-! ### The status report -/

section Report

variable {ν : Type} (codec : JsonCodec ν)

/-- The fields `nKeys` and `size` of the status report are those of the current store. -/
structure ReportsStore (repo : FastRepoImpl) : Prop where
  nKeys : ("nKeys", jsonInt codec repo.storage.pimpl.db.size) ∈ repo.storageEntries codec
  size : ("size", jsonInt codec (payload repo.storage.pimpl.db)) ∈ repo.storageEntries codec

theorem reportsStore_of_current {repo : FastRepoImpl} (current : repo.storage.StatisticsCurrent) :
    ReportsStore codec repo := by
  refine ⟨?_, ?_⟩
  · rw [← current.keys]
    exact List.mem_cons_of_mem _ List.mem_cons_self
  · rw [← current.payload]
    exact List.mem_cons_of_mem _ (List.mem_cons_of_mem _ List.mem_cons_self)

/-- The statistics: **after the startup scan, whatever packets are put and scans made, the counters
and the fields of the status report are those of the current store exactly as long as every put
replaces a value by one of the same size**. -/
theorem StorageEngine.statistics_iff (ndn : NdnCpp) (engine : StorageEngine)
    (calls : List EngineCall) :
    (∀ s, Runs.Passes (step ndn) (engine.scanForLongestPrefixes ndn).1 calls s →
        s.StatisticsCurrent ∧ ∀ repo : FastRepoImpl, repo.storage = s → ReportsStore codec repo) ↔
      ∀ s data, Runs.Takes (step ndn) (engine.scanForLongestPrefixes ndn).1 calls s (.put data) →
        s.Replaces ndn data := by
  rw [← statisticsCurrent_run_iff ndn (statisticsCurrent_scan ndn engine)]
  refine forall₂_congr fun s _ => ⟨fun both => both.1, fun current => ⟨current, ?_⟩⟩
  rintro repo rfl
  exact reportsStore_of_current codec current

end Report

/-- After the scan of an empty database and a put, the store has one key and fifteen bytes of value,
and the status report says that it has none. -/
theorem StorageEngine.stale_firstPut :
    ∃ s, Runs.run (step ndnTlv) ((openedOn ∅ []).scanForLongestPrefixes ndnTlv).1
        [.put { name := nameOf ["a"] }] = some s ∧
      s.pimpl.db.size = 1 ∧ payload s.pimpl.db = 15 ∧ ¬s.StatisticsCurrent ∧
      ∀ config, ("nKeys", jsonInt jsonText 0) ∈
        FastRepoImpl.storageEntries jsonText { config := config, storage := s } ∧
      ("size", jsonInt jsonText 0) ∈
        FastRepoImpl.storageEntries jsonText { config := config, storage := s } := by
  refine ⟨_, rfl, by decide, by decide, by decide, fun config => ⟨?_, ?_⟩⟩
  · exact List.mem_cons_of_mem _ List.mem_cons_self
  · exact List.mem_cons_of_mem _ (List.mem_cons_of_mem _ List.mem_cons_self)

end FastRepo
