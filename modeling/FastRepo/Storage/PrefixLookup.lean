/-
Prefix lookup: what the Seek / starts_with / Next loop of `read` returns.

The loop starts at the first key that is not below the URI of the Interest name, runs while the keys
start with that URI, and keeps the last key that passes the selector check. `readLoop_eq` reads its
accumulator as a filter, and the prefix run of the ordered keys turns that filter into one over the
whole database. `readsGreatest_putAll` is the result: the packet under the greatest candidate key,
and nothing when there is no candidate.
-/

import FastRepo.Ndn.WireTlv
import FastRepo.Storage.PacketStore

namespace FastRepo

open StorageEngineImpl

/-! ### The candidate keys -/

section Candidates

variable (ndn : NdnCpp)

/-- The key begins with the URI of the Interest name and passes the selector check. -/
def isCandidate (interest : Interest) (key : Bytes) : Bool :=
  (ndn.uri.toUri interest.name).isPrefixOf key && passCheck interest (ndn.uri.ofUri key)

/-- The name meets every suffix bound that is set: it has at most, or at least, so many components
more than the Interest name. -/
def MeetsBounds (interest : Interest) (n : Name) : Prop :=
  (interest.maxSuffixComponents ≠ -1 →
      (n.length : Int) ≤ interest.name.length + interest.maxSuffixComponents) ∧
    (interest.minSuffixComponents ≠ -1 →
      interest.name.length + interest.minSuffixComponents ≤ (n.length : Int))

/-- The number the check compares with a maximum is within it when the name is. -/
theorem nSuffixComponents_le_iff {interest : Interest} {n : Name} {bound : Int} :
    nSuffixComponents n interest ≤ bound ↔ (n.length : Int) ≤ interest.name.length + bound := by
  unfold nSuffixComponents
  omega

theorem le_nSuffixComponents_iff {interest : Interest} {n : Name} {bound : Int} :
    bound ≤ nSuffixComponents n interest ↔ interest.name.length + bound ≤ (n.length : Int) := by
  unfold nSuffixComponents
  omega

/-- The check asks for one of the bounds that are set, so a name that meets all of them passes. -/
theorem passCheck_of_meetsBounds {interest : Interest} {n : Name}
    (bounds : MeetsBounds interest n) : passCheck interest n = true := by
  simp only [MeetsBounds, ← nSuffixComponents_le_iff, ← le_nSuffixComponents_iff] at bounds
  obtain ⟨max, min⟩ := bounds
  unfold passCheck
  by_cases maxSet : interest.maxSuffixComponents = -1
  · by_cases minSet : interest.minSuffixComponents = -1
    · simp [maxSet, minSet]
    · simp [minSet, min minSet]
  · simp [maxSet, max maxSet]

theorem isCandidate_toUri (interest : Interest) (n : Name) :
    isCandidate ndn interest (ndn.uri.toUri n) = true ↔
      ndn.uri.toUri interest.name <+: ndn.uri.toUri n ∧ passCheck interest n = true := by
  rw [isCandidate, Bool.and_eq_true, List.isPrefixOf_iff_prefix, ndn.uri.ofUri_toUri]

theorem ne_nil_of_isCandidate {interest : Interest} {key : Bytes}
    (candidate : isCandidate ndn interest key = true) : key ≠ [] := by
  rw [isCandidate, Bool.and_eq_true, List.isPrefixOf_iff_prefix] at candidate
  intro empty
  rw [empty, List.prefix_nil] at candidate
  exact ndn.uri.toUri_ne_nil _ candidate.1

end Candidates

/-! ### The loop -/

section Loop

variable (ndn : NdnCpp)

/-- The accumulator: **the loop keeps the last passing key of the run it iterates over**. -/
theorem readLoop_eq (interest : Interest) (entries : List (Bytes × Bytes)) (key : Bytes) :
    readLoop ndn interest entries key =
      ((((entries.takeWhile (PrefixRun.startsWith (ndn.uri.toUri interest.name))).filter
        fun entry => passCheck interest (ndn.uri.ofUri entry.1)).getLast?).map Prod.fst).getD
          key := by
  induction entries generalizing key with
  | nil => rfl
  | cons entry rest ih =>
    rw [readLoop]
    by_cases within : PrefixRun.startsWith (ndn.uri.toUri interest.name) entry = true
    · rw [if_pos within, List.takeWhile_cons_of_pos within, ih]
      by_cases pass : passCheck interest (ndn.uri.ofUri entry.1) = true
      · rw [if_pos pass, List.filter_cons, if_pos pass, List.getLast?_cons]
        cases List.getLast? _ <;> rfl
      · rw [if_neg pass, List.filter_cons, if_neg pass]
    · rw [if_neg within, List.takeWhile_cons_of_neg within]
      rfl

/-- From the seek position the loop picks the last candidate of the whole database. -/
theorem readLoop_seek (interest : Interest) (db : Db) :
    readLoop ndn interest (PrefixRun.seek (ndn.uri.toUri interest.name) db.toList) [] =
      (((db.toList.filter fun entry =>
        isCandidate ndn interest entry.1).getLast?).map Prod.fst).getD [] := by
  have ordered : PrefixRun.Ordered db.toList := Std.TreeMap.ordered_keys_toList
  rw [readLoop_eq, PrefixRun.takeWhile_seek _ _ ordered, List.filter_filter]
  simp only [isCandidate, PrefixRun.startsWith, Bool.and_comm]

/-- A prefix read gets the last candidate. -/
theorem read_eq_last (engine : StorageEngine) (interest : Interest)
    (canBePrefix : interest.canBePrefix = true) :
    engine.read ndn interest =
      match (engine.pimpl.db.toList.filter fun entry =>
          isCandidate ndn interest entry.1).getLast? with
      | some entry => engine.get ndn (ndn.uri.ofUri entry.1)
      | none => .ok none := by
  unfold StorageEngine.read StorageEngineImpl.read
  simp only [canBePrefix, if_true, readLoop_seek]
  cases last : (engine.pimpl.db.toList.filter fun entry =>
      isCandidate ndn interest entry.1).getLast? with
  | none => rfl
  | some entry =>
    have candidate := (List.mem_filter.mp (List.mem_of_getLast? last)).2
    have nonempty : entry.1 ≠ [] := ne_nil_of_isCandidate ndn candidate
    simp only [Option.map_some, Option.getD_some, ne_eq, nonempty, not_false_eq_true, if_true]
    rfl

end Loop

/-! ### The result of a prefix read -/

namespace StorageEngine

variable (ndn : NdnCpp)

/-- What a prefix read returns on an engine. -/
structure ReadsGreatest (engine : StorageEngine) (interest : Interest) : Prop where
  /-- The read does not fail. -/
  total : ∃ result, engine.read ndn interest = .ok result
  /-- It returns a packet exactly when that packet is stored under the greatest candidate key. -/
  found : ∀ answer, engine.read ndn interest = .ok (some answer) ↔
    PrefixRun.IsGreatestKey engine.pimpl.db.toList (fun key => isCandidate ndn interest key = true)
      (ndn.uri.toUri answer.name, ndn.wire.wireEncode answer)
  /-- It returns nothing exactly when no stored key is a candidate. -/
  missing : engine.read ndn interest = .ok none ↔
    ∀ entry ∈ engine.pimpl.db.toList, isCandidate ndn interest entry.1 = false

/-- On well-stored values, `get` of the name of a stored key returns the packet stored under it. -/
theorem get_of_mem {engine : StorageEngine} (well : engine.WellStored ndn)
    {entry : Bytes × Bytes} (member : entry ∈ engine.pimpl.db.toList) :
    ∃ data : Data, entry = (ndn.uri.toUri data.name, ndn.wire.wireEncode data) ∧
      engine.get ndn (ndn.uri.ofUri entry.1) = .ok (some data) := by
  obtain ⟨key, value⟩ := entry
  have stored : engine.pimpl.db[key]? = some value :=
    Std.TreeMap.mem_toList_iff_getElem?_eq_some.mp member
  obtain ⟨data, rfl, rfl⟩ := well key value stored
  refine ⟨data, rfl, ?_⟩
  rw [ndn.uri.ofUri_toUri, get_eq_contents ndn well, contents, stored, Option.bind_some,
    ndn.wire.wireDecode_wireEncode]

/-- Two greatest entries of one table are the same entry. -/
theorem greatest_unique (db : Db) {pass : Bytes → Prop} {first second : Bytes × Bytes}
    (left : PrefixRun.IsGreatestKey db.toList pass first)
    (right : PrefixRun.IsGreatestKey db.toList pass second) : first = second := by
  have le := left.greatest second right.member right.passes
  have ge := right.greatest first left.member left.passes
  have keys : first.1 = second.1 :=
    Std.LawfulEqOrd.eq_of_compare (Std.OrientedCmp.isLE_antisymm ge le)
  have atFirst := Std.TreeMap.mem_toList_iff_getElem?_eq_some.mp left.member
  have atSecond := Std.TreeMap.mem_toList_iff_getElem?_eq_some.mp right.member
  rw [keys, atSecond] at atFirst
  exact Prod.ext keys (Option.some.inj atFirst).symm

theorem readsGreatest {engine : StorageEngine} (well : engine.WellStored ndn)
    {interest : Interest} (canBePrefix : interest.canBePrefix = true) :
    ReadsGreatest ndn engine interest := by
  have ordered : PrefixRun.Ordered engine.pimpl.db.toList := Std.TreeMap.ordered_keys_toList
  have result := read_eq_last ndn engine interest canBePrefix
  cases last : (engine.pimpl.db.toList.filter fun entry =>
      isCandidate ndn interest entry.1).getLast? with
  | none =>
    rw [last] at result
    have noCandidate : ∀ entry ∈ engine.pimpl.db.toList,
        isCandidate ndn interest entry.1 = false := fun entry member => by
      simpa using List.filter_eq_nil_iff.mp (List.getLast?_eq_none_iff.mp last) entry member
    refine ⟨⟨none, result⟩, fun answer => ⟨fun found => ?_, fun greatest => ?_⟩,
      fun _ => noCandidate, fun _ => result⟩
    · rw [result] at found
      cases found
    · have passes := greatest.passes
      rw [noCandidate _ greatest.member] at passes
      cases passes
  | some entry =>
    rw [last] at result
    have greatest := PrefixRun.isGreatestKey_of_getLast? ordered last
    obtain ⟨data, rfl, found⟩ := get_of_mem ndn well greatest.member
    replace result : engine.read ndn interest = .ok (some data) := result.trans found
    refine ⟨⟨some data, result⟩, fun answer => ⟨fun returned => ?_, fun other => ?_⟩,
      fun missing => ?_, fun noCandidate => ?_⟩
    · rw [result] at returned
      cases returned
      exact greatest
    · have same := greatest_unique engine.pimpl.db greatest other
      rw [result, ndn.wire.wireEncode_injective (Prod.ext_iff.mp same).2]
    · rw [result] at missing
      cases missing
    · have passes := greatest.passes
      rw [noCandidate _ greatest.member] at passes
      cases passes

/-! ### After a run of puts -/

/-- The keys of the database are the URIs of the stored names. -/
theorem mem_keys_putAll (renamePrefix : Bytes) (packets : List Data) (n : Name) :
    (∃ value, (ndn.uri.toUri n, value) ∈ ((opened renamePrefix).putAll ndn packets).pimpl.db.toList)
      ↔ ∃ data ∈ packets, storedName ndn renamePrefix data = n := by
  have well := wellStored_putAll ndn (wellStored_opened ndn renamePrefix) packets
  have absent := contents_putAll_eq_none_iff ndn renamePrefix packets n
  constructor
  · rintro ⟨value, member⟩
    have stored := Std.TreeMap.mem_toList_iff_getElem?_eq_some.mp member
    obtain ⟨data, key, rfl⟩ := well _ value stored
    by_contra nothing
    push Not at nothing
    have none := absent.mpr nothing
    rw [contents, stored, Option.bind_some, ndn.wire.wireDecode_wireEncode] at none
    cases none
  · rintro ⟨data, member, name⟩
    cases stored : ((opened renamePrefix).putAll ndn packets).pimpl.db[ndn.uri.toUri n]? with
    | none =>
      refine absurd name (absent.mp ?_ data member)
      rw [contents, stored]
      rfl
    | some value => exact ⟨value, Std.TreeMap.mem_toList_iff_getElem?_eq_some.mpr stored⟩

section PutAll

variable (renamePrefix : Bytes) (packets : List Data) {interest : Interest}
  (canBePrefix : interest.canBePrefix = true)

include canBePrefix

theorem readsGreatest_stored :
    ReadsGreatest ndn ((opened renamePrefix).putAll ndn packets) interest :=
  readsGreatest ndn (wellStored_putAll ndn (wellStored_opened ndn renamePrefix) packets) canBePrefix

/-- When a stored name passes as a candidate, the read answers with a name whose key is not below
its key. -/
theorem read_above_candidate {data : Data} (member : data ∈ packets)
    (candidate : isCandidate ndn interest (ndn.uri.toUri (storedName ndn renamePrefix data)) =
      true) :
    ∃ answer : Data,
      ((opened renamePrefix).putAll ndn packets).read ndn interest = .ok (some answer) ∧
      (compare (ndn.uri.toUri (storedName ndn renamePrefix data))
        (ndn.uri.toUri answer.name)).isLE := by
  have reads := readsGreatest_stored ndn renamePrefix packets canBePrefix
  obtain ⟨value, stored⟩ := (mem_keys_putAll ndn renamePrefix packets _).mpr ⟨data, member, rfl⟩
  obtain ⟨result, returned⟩ := reads.total
  cases result with
  | none =>
    rw [reads.missing.mp returned _ stored] at candidate
    cases candidate
  | some answer =>
    exact ⟨answer, returned, ((reads.found answer).mp returned).greatest _ stored candidate⟩

/-- An answer is the packet of a stored candidate whose key no other candidate exceeds. -/
theorem stored_of_read {answer : Data}
    (returned : ((opened renamePrefix).putAll ndn packets).read ndn interest = .ok (some answer)) :
    ∃ data ∈ packets, storedData ndn renamePrefix data = answer ∧
      isCandidate ndn interest (ndn.uri.toUri (storedName ndn renamePrefix data)) = true ∧
      ∀ other ∈ packets,
        isCandidate ndn interest (ndn.uri.toUri (storedName ndn renamePrefix other)) = true →
        (compare (ndn.uri.toUri (storedName ndn renamePrefix other))
          (ndn.uri.toUri (storedName ndn renamePrefix data))).isLE := by
  have reads := readsGreatest_stored ndn renamePrefix packets canBePrefix
  have greatest := (reads.found answer).mp returned
  have found : ((opened renamePrefix).putAll ndn packets).contents ndn answer.name =
      some answer := by
    rw [contents, Std.TreeMap.mem_toList_iff_getElem?_eq_some.mp greatest.member,
      Option.bind_some, ndn.wire.wireDecode_wireEncode]
  obtain ⟨data, member, stored⟩ := stored_of_contents_putAll ndn found
  have name : storedName ndn renamePrefix data = answer.name := by
    rw [← storedData_name, stored]
  refine ⟨data, member, stored, ?_, fun other otherMember candidate => ?_⟩
  · rw [name]
    exact greatest.passes
  · obtain ⟨value, stored⟩ :=
      (mem_keys_putAll ndn renamePrefix packets _).mpr ⟨other, otherMember, rfl⟩
    rw [name]
    exact greatest.greatest _ stored candidate

/-- Overtaking: **every answer has a property exactly when each stored candidate without the
property is overtaken by a candidate that has it**. -/
theorem forall_answer_iff (P : Name → Prop) :
    (∀ answer, ((opened renamePrefix).putAll ndn packets).read ndn interest = .ok (some answer) →
      P answer.name) ↔
    ∀ data ∈ packets,
      isCandidate ndn interest (ndn.uri.toUri (storedName ndn renamePrefix data)) = true →
      ¬P (storedName ndn renamePrefix data) →
        ∃ other ∈ packets,
          isCandidate ndn interest (ndn.uri.toUri (storedName ndn renamePrefix other)) = true ∧
          P (storedName ndn renamePrefix other) ∧
          compare (ndn.uri.toUri (storedName ndn renamePrefix data))
            (ndn.uri.toUri (storedName ndn renamePrefix other)) = .lt := by
  constructor
  · intro holds data member candidate lacks
    obtain ⟨answer, returned, above⟩ :=
      read_above_candidate ndn renamePrefix packets canBePrefix member candidate
    obtain ⟨other, otherMember, rfl, otherCandidate, _⟩ :=
      stored_of_read ndn renamePrefix packets canBePrefix returned
    have has := holds _ returned
    rw [storedData_name] at above has
    refine ⟨other, otherMember, otherCandidate, has, ?_⟩
    exact (Ordering.isLE_iff_eq_lt_or_eq_eq.mp above).resolve_right fun same =>
      lacks (ndn.uri.toUri_injective (Std.LawfulEqOrd.eq_of_compare same) ▸ has)
  · intro overtaken answer returned
    obtain ⟨data, member, rfl, candidate, greatest⟩ :=
      stored_of_read ndn renamePrefix packets canBePrefix returned
    by_contra lacks
    rw [storedData_name] at lacks
    obtain ⟨other, otherMember, otherCandidate, _, greater⟩ :=
      overtaken data member candidate lacks
    have le := greatest other otherMember otherCandidate
    rw [Std.OrientedOrd.eq_swap, greater] at le
    cases le

end PutAll

/-- Prefix lookup: **after every run of successful puts a prefix read returns what a scan of all
keys would**, and it returns a packet as soon as some stored name extends the Interest name and
meets the bounds that are set. -/
theorem readsGreatest_putAll (renamePrefix : Bytes) (packets : List Data) (interest : Interest)
    (canBePrefix : interest.canBePrefix = true) :
    ReadsGreatest ndn ((opened renamePrefix).putAll ndn packets) interest ∧
      ∀ data ∈ packets, interest.name <+: storedName ndn renamePrefix data →
        MeetsBounds interest (storedName ndn renamePrefix data) →
          ∃ answer, ((opened renamePrefix).putAll ndn packets).read ndn interest =
            .ok (some answer) := by
  have well := wellStored_putAll ndn (wellStored_opened ndn renamePrefix) packets
  have reads := readsGreatest ndn well canBePrefix
  refine ⟨reads, fun data member extension bounds => ?_⟩
  obtain ⟨value, stored⟩ := (mem_keys_putAll ndn renamePrefix packets _).mpr ⟨data, member, rfl⟩
  obtain ⟨result, returned⟩ := reads.total
  cases result with
  | some answer => exact ⟨answer, returned⟩
  | none =>
    have noCandidate := reads.missing.mp returned _ stored
    rw [(isCandidate_toUri ndn interest _).mpr
      ⟨ndn.uri.toUri_extends extension, passCheck_of_meetsBounds bounds⟩] at noCandidate
    cases noCandidate

/-- With a maximum of two further components the second packet is too deep for the Interest, and
the read still finds a packet. -/
theorem readsGreatest_two_packets :
    ReadsGreatest ndnTlv
        ((opened []).putAll ndnTlv [{ name := nameOf ["a", "b"] },
          { name := nameOf ["a", "b", "c", "d"] }])
        { name := nameOf ["a"], maxSuffixComponents := 2 } ∧
      ∃ answer, ((opened []).putAll ndnTlv [{ name := nameOf ["a", "b"] },
          { name := nameOf ["a", "b", "c", "d"] }]).read ndnTlv
          { name := nameOf ["a"], maxSuffixComponents := 2 } = .ok (some answer) := by
  have lookup := readsGreatest_putAll ndnTlv []
    [{ name := nameOf ["a", "b"] }, { name := nameOf ["a", "b", "c", "d"] }]
    { name := nameOf ["a"], maxSuffixComponents := 2 } rfl
  refine ⟨lookup.1, lookup.2 _ List.mem_cons_self (by decide) ?_⟩
  unfold MeetsBounds
  decide

end StorageEngine

end FastRepo
