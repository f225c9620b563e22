/-
The store law: the engine is a map from names to packets.

`PacketStore` is the abstract store, a partial map from names to packets. `contents` reads an engine
as a packet store. Two facts carry everything else:

* `WellStored`: the value under a key is the encoding of a packet whose URI is that key. Both
  branches of `put` keep it.
* `contents_put`: a successful put updates the contents at the stored name and nowhere else.

`get_eq_contents` reads every lookup off the contents, `contents_putAll` reads the contents off a
run of puts, and `answers_putAll` is what they say together about `put`, `get` and exact `read`.
-/

import FastRepo.Lib.Lookup
import FastRepo.Storage.Engine

namespace FastRepo

/-- The abstract store: at most one packet for each name. -/
abbrev PacketStore := Name → Option Data

section Stored

variable (ndn : NdnCpp)

/-- The packet a put stores under a rename prefix: the packet itself when there is none. -/
def storedData (renamePrefix : Bytes) (data : Data) : Data :=
  if renamePrefix ≠ [] then
    ({ renamePrefix := renamePrefix } : StorageEngineImpl).renamedData ndn data
  else data

/-- The name a put stores a packet under: the rename prefix and the name of the packet, or the name
of the packet alone when there is no rename prefix. -/
def storedName (renamePrefix : Bytes) (data : Data) : Name :=
  if renamePrefix ≠ [] then ndn.uri.ofUri renamePrefix ++ data.name else data.name

theorem storedData_name (renamePrefix : Bytes) (data : Data) :
    (storedData ndn renamePrefix data).name = storedName ndn renamePrefix data := by
  unfold storedName storedData StorageEngineImpl.renamedData
  split <;> rfl

theorem storedData_fields (renamePrefix : Bytes) (data : Data) :
    (storedData ndn renamePrefix data).metaInfo = data.metaInfo ∧
      (storedData ndn renamePrefix data).content = data.content := by
  unfold storedData StorageEngineImpl.renamedData
  split <;> exact ⟨rfl, rfl⟩

end Stored

namespace StorageEngine

variable (ndn : NdnCpp)

/-! ### The contents of an engine -/

/-- The engine as a packet store. -/
def contents (engine : StorageEngine) : PacketStore := fun n =>
  (engine.pimpl.db[ndn.uri.toUri n]?).bind ndn.wire.wireDecode

/-- The value under a key is the encoding of a packet whose URI is the key. -/
def WellStored (engine : StorageEngine) : Prop :=
  ∀ key value, engine.pimpl.db[key]? = some value →
    ∃ data : Data, key = ndn.uri.toUri data.name ∧ value = ndn.wire.wireEncode data

/-- What a successful put does to the engine. -/
theorem put_eq (engine : StorageEngine) (data : Data) :
    engine.put ndn data true =
      ({ pimpl := { engine.pimpl with
            db := engine.pimpl.db.insert
              (ndn.uri.toUri (storedName ndn engine.pimpl.renamePrefix data))
              (ndn.wire.wireEncode (storedData ndn engine.pimpl.renamePrefix data)) }
         afterDataInsertion := engine.afterDataInsertion ++ [data.name] },
        storedName ndn engine.pimpl.renamePrefix data) := by
  unfold put StorageEngineImpl.put storedName storedData
  by_cases renames : engine.pimpl.renamePrefix ≠ []
  · simp only [if_pos renames]
    rfl
  · simp only [if_neg renames]
    rfl

@[simp] theorem put_name (engine : StorageEngine) (data : Data) :
    (engine.put ndn data true).2 = storedName ndn engine.pimpl.renamePrefix data := by
  rw [put_eq]

@[simp] theorem put_renamePrefix (engine : StorageEngine) (data : Data) :
    (engine.put ndn data true).1.pimpl.renamePrefix = engine.pimpl.renamePrefix := by
  rw [put_eq]

theorem put_db (engine : StorageEngine) (data : Data) :
    (engine.put ndn data true).1.pimpl.db =
      engine.pimpl.db.insert (ndn.uri.toUri (storedName ndn engine.pimpl.renamePrefix data))
        (ndn.wire.wireEncode (storedData ndn engine.pimpl.renamePrefix data)) := by
  rw [put_eq]

theorem db_put (engine : StorageEngine) (data : Data) (key : Bytes) :
    (engine.put ndn data true).1.pimpl.db[key]? =
      if key = ndn.uri.toUri (storedName ndn engine.pimpl.renamePrefix data) then
        some (ndn.wire.wireEncode (storedData ndn engine.pimpl.renamePrefix data))
      else engine.pimpl.db[key]? := by
  rw [put_db, Lookup.getElem?_insert]

/-- Both branches of `put` keep the stored values well formed. -/
theorem wellStored_put {engine : StorageEngine} (well : engine.WellStored ndn) (data : Data) :
    (engine.put ndn data true).1.WellStored ndn := by
  intro key value found
  rw [db_put] at found
  split at found
  · rename_i same
    cases found
    exact ⟨_, by rw [same, storedData_name], rfl⟩
  · exact well key value found

/-- Refinement: **a successful put updates the contents at the stored name**. -/
theorem contents_put (engine : StorageEngine) (data : Data) :
    (engine.put ndn data true).1.contents ndn =
      Function.update (engine.contents ndn) (storedName ndn engine.pimpl.renamePrefix data)
        (some (storedData ndn engine.pimpl.renamePrefix data)) := by
  funext n
  unfold contents
  rw [db_put]
  by_cases same : n = storedName ndn engine.pimpl.renamePrefix data
  · subst same
    rw [if_pos rfl, Option.bind_some, ndn.wire.wireDecode_wireEncode, Function.update_self]
  · rw [if_neg fun keys => same (ndn.uri.toUri_injective keys), Function.update_of_ne same]

/-- On well-stored values `get` never fails, and reads the contents. -/
theorem get_eq_contents {engine : StorageEngine} (well : engine.WellStored ndn) (n : Name) :
    engine.get ndn n = .ok (engine.contents ndn n) := by
  unfold get StorageEngineImpl.get contents
  cases found : engine.pimpl.db[ndn.uri.toUri n]? with
  | none => rfl
  | some value =>
    obtain ⟨data, _, rfl⟩ := well _ value found
    simp only [Option.bind_some, ndn.wire.wireDecode_wireEncode]

/-- What `get` finds under a name are the contents there. -/
theorem contents_of_get {engine : StorageEngine} {n : Name} {data : Data}
    (found : engine.get ndn n = .ok (some data)) : engine.contents ndn n = some data := by
  unfold get StorageEngineImpl.get at found
  unfold contents
  cases stored : engine.pimpl.db[ndn.uri.toUri n]? with
  | none =>
    rw [stored] at found
    cases found
  | some value =>
    rw [stored] at found
    simp only [Option.bind_some]
    cases decoded : ndn.wire.wireDecode value with
    | none =>
      simp only [decoded] at found
      cases found
    | some packet =>
      simp only [decoded] at found
      cases found
      rfl

/-- Whatever is read is stored under some name. -/
theorem exists_contents_of_read {engine : StorageEngine} {interest : Interest} {data : Data}
    (found : engine.read ndn interest = .ok (some data)) :
    ∃ n, engine.contents ndn n = some data := by
  unfold read StorageEngineImpl.read at found
  split at found
  · simp only at found
    split at found
    · exact ⟨_, contents_of_get ndn found⟩
    · cases found
  · exact ⟨_, contents_of_get ndn found⟩

/-- The packet found under a name has that name. -/
theorem contents_name {engine : StorageEngine} (well : engine.WellStored ndn) {n : Name}
    {data : Data} (found : engine.contents ndn n = some data) : data.name = n := by
  unfold contents at found
  cases stored : engine.pimpl.db[ndn.uri.toUri n]? with
  | none =>
    rw [stored] at found
    cases found
  | some value =>
    obtain ⟨other, key, rfl⟩ := well _ value stored
    rw [stored, Option.bind_some, ndn.wire.wireDecode_wireEncode] at found
    cases found
    exact (ndn.uri.toUri_injective key).symm

/-! ### Runs of puts -/

@[simp] theorem putAll_nil (engine : StorageEngine) : engine.putAll ndn [] = engine := rfl

theorem putAll_cons (engine : StorageEngine) (data : Data) (packets : List Data) :
    engine.putAll ndn (data :: packets) = (engine.put ndn data true).1.putAll ndn packets := rfl

theorem putAll_append (engine : StorageEngine) (first second : List Data) :
    engine.putAll ndn (first ++ second) = (engine.putAll ndn first).putAll ndn second :=
  List.foldl_append

@[simp] theorem putAll_renamePrefix (engine : StorageEngine) (packets : List Data) :
    (engine.putAll ndn packets).pimpl.renamePrefix = engine.pimpl.renamePrefix := by
  induction packets generalizing engine with
  | nil => rfl
  | cons data packets ih => rw [putAll_cons, ih, put_renamePrefix]

theorem wellStored_putAll {engine : StorageEngine} (well : engine.WellStored ndn)
    (packets : List Data) : (engine.putAll ndn packets).WellStored ndn := by
  induction packets generalizing engine with
  | nil => exact well
  | cons data packets ih => exact ih (wellStored_put ndn well data)

theorem wellStored_opened (renamePrefix : Bytes) : (opened renamePrefix).WellStored ndn := by
  intro key value found
  exact absurd found (by simp [opened])

theorem contents_opened (renamePrefix : Bytes) (n : Name) :
    (opened renamePrefix).contents ndn n = none := by
  simp [opened, contents]

/-- Runs: **after a run of puts a name answers with the packet of the last put that stored it**. -/
theorem contents_putAll (engine : StorageEngine) (packets : List Data) (n : Name) :
    (engine.putAll ndn packets).contents ndn n =
      match (packets.filter fun data =>
          storedName ndn engine.pimpl.renamePrefix data = n).getLast? with
      | some data => some (storedData ndn engine.pimpl.renamePrefix data)
      | none => engine.contents ndn n := by
  induction packets using List.reverseRecOn with
  | nil => rfl
  | append_singleton packets data ih =>
    rw [putAll_append, putAll_cons, putAll_nil, contents_put, putAll_renamePrefix,
      List.filter_append]
    by_cases same : storedName ndn engine.pimpl.renamePrefix data = n
    · subst same
      simp
    · rw [Function.update_of_ne (Ne.symm same), ih]
      simp [same]

/-- What is found after a run of puts was stored by one of them. -/
theorem stored_of_contents_putAll {renamePrefix : Bytes} {packets : List Data} {n : Name}
    {answer : Data} (found : ((opened renamePrefix).putAll ndn packets).contents ndn n =
      some answer) :
    ∃ data ∈ packets, storedData ndn renamePrefix data = answer := by
  rw [contents_putAll, contents_opened] at found
  cases last : (packets.filter fun data =>
      storedName ndn (opened renamePrefix).pimpl.renamePrefix data = n).getLast? with
  | none => simp [last] at found
  | some data =>
    rw [last] at found
    exact ⟨data, (List.mem_filter.mp (List.mem_of_getLast? last)).1, Option.some.inj found⟩

/-- A name is absent after a run of puts exactly when no put stored it. -/
theorem contents_putAll_eq_none_iff (renamePrefix : Bytes) (packets : List Data) (n : Name) :
    ((opened renamePrefix).putAll ndn packets).contents ndn n = none ↔
      ∀ data ∈ packets, storedName ndn renamePrefix data ≠ n := by
  have contents := contents_putAll ndn (opened renamePrefix) packets n
  rw [contents_opened] at contents
  rw [contents]
  constructor
  · intro absent data member same
    cases last : (packets.filter fun data =>
        storedName ndn (opened renamePrefix).pimpl.renamePrefix data = n).getLast? with
    | none =>
      have empty := List.filter_eq_nil_iff.mp (List.getLast?_eq_none_iff.mp last) data member
      exact empty (decide_eq_true same)
    | some other => simp [last] at absent
  · intro apart
    have empty : (packets.filter fun data =>
        storedName ndn (opened renamePrefix).pimpl.renamePrefix data = n) = [] :=
      List.filter_eq_nil_iff.mpr fun data member same => apart data member (of_decide_eq_true same)
    rw [empty]
    rfl

/-! ### The store law -/

/-- What an engine answers after a run of puts. -/
structure Answers (renamePrefix : Bytes) (packets : List Data) (engine : StorageEngine) : Prop where
  /-- An exact Interest reads what `get` finds. -/
  agree : ∀ interest : Interest, interest.canBePrefix = false →
    engine.read ndn interest = engine.get ndn interest.name
  /-- A name is absent when no put stored it, and then only. -/
  absent : ∀ n, engine.get ndn n = .ok none ↔
    ∀ data ∈ packets, storedName ndn renamePrefix data ≠ n
  /-- A name answers with the packet of the last put that stored it. -/
  last : ∀ n data,
    (packets.filter fun data => storedName ndn renamePrefix data = n).getLast? = some data →
      ∃ answer, engine.get ndn n = .ok (some answer) ∧ answer.name = n ∧
        answer.metaInfo = data.metaInfo ∧ answer.content = data.content ∧
        (renamePrefix = [] → answer = data)
  /-- One more put returns the stored name, and other names answer as before. -/
  next : ∀ data, (engine.put ndn data true).2 = storedName ndn renamePrefix data ∧
    ∀ n, storedName ndn renamePrefix data ≠ n →
      (engine.put ndn data true).1.get ndn n = engine.get ndn n

/-- The store law: **every run of successful puts leaves the engine a map from stored names to
packets**. -/
theorem answers_putAll (renamePrefix : Bytes) (packets : List Data) :
    Answers ndn renamePrefix packets ((opened renamePrefix).putAll ndn packets) := by
  have well := wellStored_putAll ndn (wellStored_opened ndn renamePrefix) packets
  have renames : ((opened renamePrefix).putAll ndn packets).pimpl.renamePrefix = renamePrefix :=
    putAll_renamePrefix ndn (opened renamePrefix) packets
  have contents := contents_putAll ndn (opened renamePrefix) packets
  refine ⟨?_, ?_, ?_, ?_⟩
  · intro interest exact
    simp [read, StorageEngineImpl.read, get, exact]
  · intro n
    rw [get_eq_contents ndn well, Except.ok.injEq]
    exact contents_putAll_eq_none_iff ndn renamePrefix packets n
  · intro n data last
    have member := List.mem_filter.mp (List.mem_of_getLast? last)
    have found : ((opened renamePrefix).putAll ndn packets).contents ndn n =
        some (storedData ndn renamePrefix data) := by
      rw [contents n]
      show (match (packets.filter fun data =>
          storedName ndn renamePrefix data = n).getLast? with
        | some data => some (storedData ndn renamePrefix data)
        | none => _) = _
      rw [last]
    obtain ⟨metaInfo, content⟩ := storedData_fields ndn renamePrefix data
    refine ⟨storedData ndn renamePrefix data, ?_, contents_name ndn well found, metaInfo, content, ?_⟩
    · rw [get_eq_contents ndn well, found]
    · intro none
      subst none
      rfl
  · intro data
    refine ⟨by rw [put_name, renames], fun n apart => ?_⟩
    rw [get_eq_contents ndn (wellStored_put ndn well data), get_eq_contents ndn well, contents_put,
      renames, Function.update_of_ne (Ne.symm apart)]

end StorageEngine

end FastRepo
