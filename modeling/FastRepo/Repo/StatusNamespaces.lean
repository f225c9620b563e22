/-
Status requests under the command prefixes.

`StatusHandle::listen` makes a namespace and installs a callback on it, once for each command
prefix. All callbacks compare the namespace they are asked for with the one member
`statusNamespace_`, which each `listen` overwrites. `accepts_iff`: after the loop only the callback
of the last prefix accepts a request. `reachable_iff`: the requests under all prefixes are answered
exactly when all prefixes are the same.
-/

import FastRepo.Ndn.NameConventions
import FastRepo.Repo.StatusIsolation

namespace FastRepo

open FastRepoImpl StatusHandle StatusIsolation

/-! ### The callback -/

/-- What the callback gives to `handler_.setObject`. -/
structure StatusObject where
  name : Name
  metaInfo : MetaInfo
  content : Bytes
  contentType : Bytes
deriving DecidableEq, Repr

namespace StatusHandle

/-- `statusNamespace_`: the namespace the last `listen` made. Namespaces are numbered in the order
of creation, as if no address were used twice. -/
def statusNamespace (handle : StatusHandle) : Option Nat :=
  if handle.statusNamespaces = [] then none else some (handle.statusNamespaces.length - 1)

/-- The callback every `listen` installs, on what `publishStatus` returns or throws. It returns
false, here nothing, when it is asked for another namespace than `statusNamespace_`. -/
def onObjectNeeded (handle : StatusHandle) (published : Except Exn Bytes) (now : UInt64)
    (neededNamespace : Nat) : Except Exn (Option StatusObject) :=
  if some neededNamespace ≠ handle.statusNamespace then .ok none
  else
    match published with
    | .error exn => .error exn
    | .ok content => .ok (some {
        name := handle.statusNamespaces.getLastD [] ++
          [.fromNumberWithMarker now versionMarker]
        metaInfo := { freshnessPeriod := some 100 }
        content := content
        contentType := ascii "application/json" })

/-- The callback does not return false. -/
def Accepts (handle : StatusHandle) (published : Except Exn Bytes) (now : UInt64)
    (neededNamespace : Nat) : Prop :=
  handle.onObjectNeeded published now neededNamespace ≠ .ok none

/-- A request for the name is answered: it asks for each namespace of that name, and the callback of
one of them accepts. -/
def Answers (handle : StatusHandle) (published : Except Exn Bytes) (now : UInt64) (name : Name) :
    Prop :=
  ∃ neededNamespace, handle.statusNamespaces[neededNamespace]? = some name ∧
    handle.Accepts published now neededNamespace

section Callback

variable {handle : StatusHandle} {published : Except Exn Bytes} {now : UInt64}

/-- Only the last: **a callback accepts a request for its namespace exactly when no further
namespace was made after it**. -/
theorem accepts_iff (neededNamespace : Nat) :
    handle.Accepts published now neededNamespace ↔
      neededNamespace + 1 = handle.statusNamespaces.length := by
  have last : some neededNamespace = handle.statusNamespace ↔
      neededNamespace + 1 = handle.statusNamespaces.length := by
    unfold statusNamespace
    cases handle.statusNamespaces with
    | nil => simp
    | cons first rest => simp
  rw [← last]
  unfold Accepts onObjectNeeded
  by_cases same : some neededNamespace = handle.statusNamespace
  · rw [if_neg (not_not_intro same)]
    refine iff_of_true ?_ same
    cases published <;> simp
  · rw [if_pos same]
    exact iff_of_false (not_not_intro rfl) same

theorem answers_iff (name : Name) :
    handle.Answers published now name ↔ handle.statusNamespaces.getLast? = some name := by
  simp only [Answers, accepts_iff, List.getLast?_eq_getElem?]
  constructor
  · rintro ⟨neededNamespace, found, last⟩
    rw [← last, Nat.add_sub_cancel]
    exact found
  · intro found
    have inside := (List.getElem?_eq_some_iff.mp found).1
    exact ⟨_, found, by omega⟩

end Callback

end StatusHandle

/-! ### After the loop -/

namespace StatusNamespaces

variable {ν : Type} (platform : Platform)

/-- The name of the status namespace under a command prefix. -/
def statusName (cmdPrefix : Name) : Name := cmdPrefix ++ [.generic (ascii "status")]

theorem statusName_injective : Function.Injective statusName :=
  fun _ _ same => List.append_cancel_right same

theorem statusNamespaces_foldl (repo : FastRepoImpl) (cmdPrefixes : List Name) :
    (cmdPrefixes.foldl listenUnder repo).statusHandle.statusNamespaces =
      repo.statusHandle.statusNamespaces ++ cmdPrefixes.map statusName := by
  induction cmdPrefixes generalizing repo with
  | nil => rw [List.foldl_nil, List.map_nil, List.append_nil]
  | cons cmdPrefix cmdPrefixes ih =>
    rw [List.foldl_cons, ih, List.map_cons, List.append_cons]
    rfl

theorem statusNamespaces_started (config : Config) (db : Db) :
    (started platform config db).statusHandle.statusNamespaces =
      (listened config).map statusName := by
  have scan : ∀ repo, (initializeStorage platform repo).statusHandle = repo.statusHandle :=
    fun _ => rfl
  unfold started listened
  rw [scan]
  split
  · rfl
  · exact statusNamespaces_foldl (constructed config db) config.repoPrefixes

/-- In every run there is a namespace for each command prefix, in their order. -/
theorem statusNamespaces_run (config : Config) (db : Db) {occurrences : List Occurrence}
    {repo : FastRepoImpl}
    (reached : (started platform config db).run platform occurrences = some repo) :
    repo.statusHandle.statusNamespaces = (listened config).map statusName := by
  rw [← statusNamespaces_started platform config db]
  exact congrArg (fun side => side.1.statusNamespaces) (fixedSide_run platform reached)

variable (codec : JsonCodec ν) (recorderStats : InstanceId → StreamRecorderStats)

/-- The callbacks of all command prefixes accept a request for their own status namespace. -/
def AllAccept (repo : FastRepoImpl) (cmdPrefixes : List Name) (now : UInt64) : Prop :=
  ∀ neededNamespace < cmdPrefixes.length, repo.statusHandle.Accepts
    (publishStatus codec (polls platform codec recorderStats repo)) now neededNamespace

/-- A status request is answered under each of the command prefixes. -/
def AllAnswered (repo : FastRepoImpl) (cmdPrefixes : List Name) (now : UInt64) : Prop :=
  ∀ cmdPrefix ∈ cmdPrefixes, repo.statusHandle.Answers
    (publishStatus codec (polls platform codec recorderStats repo)) now (statusName cmdPrefix)

/-- Status requests: **whatever happened since the loop over the command prefixes, all callbacks
accept requests for their namespaces exactly when there is at most one prefix, and the requests
under all prefixes are answered exactly when all prefixes are the same**. -/
theorem reachable_iff (config : Config) (db : Db) {occurrences : List Occurrence}
    {repo : FastRepoImpl}
    (reached : (started platform config db).run platform occurrences = some repo) (now : UInt64) :
    (AllAccept platform codec recorderStats repo (listened config) now ↔
        (listened config).length ≤ 1) ∧
      (AllAnswered platform codec recorderStats repo (listened config) now ↔
        ∀ p ∈ listened config, ∀ q ∈ listened config, p = q) := by
  have namespaces := statusNamespaces_run platform config db reached
  constructor
  · simp only [AllAccept, accepts_iff, namespaces, List.length_map]
    refine ⟨fun all => ?_, fun single neededNamespace inside => by omega⟩
    by_contra several
    have first := all 0 (by omega)
    omega
  · simp only [AllAnswered, answers_iff, namespaces, List.getLast?_map, Option.map_eq_some_iff,
      statusName_injective.eq_iff]
    constructor
    · intro all p left q right
      obtain ⟨last, isLast, rfl⟩ := all p left
      obtain ⟨other, isOther, rfl⟩ := all q right
      exact Option.some.inj (isLast.symm.trans isOther)
    · intro same p member
      have last := List.getLast?_eq_some_getLast (List.ne_nil_of_mem member)
      exact ⟨_, last, same _ (List.mem_of_getLast? last) p member⟩

/-- With the command prefixes `/r` and `/s` the callback of the first returns false, and the request
under `/r` is not answered. -/
theorem refused_firstPrefix :
    let repo := started (tlvPlatform false false)
      { repoPrefixes := [nameOf ["r"], nameOf ["s"]] } ∅
    repo.statusHandle.statusNamespaces[0]? = some (nameOf ["r", "status"]) ∧
      ∀ published now,
        repo.statusHandle.onObjectNeeded published now 0 = .ok none ∧
        ¬repo.statusHandle.Answers published now (nameOf ["r", "status"]) := by
  refine ⟨by decide, fun published now => ⟨rfl, ?_⟩⟩
  rw [answers_iff]
  decide

/-- With one command prefix its callback accepts, and its request is answered. -/
theorem reachable_onePrefix :
    AllAccept (tlvPlatform false false) jsonText (fun _ => {})
        (started (tlvPlatform false false) { repoPrefixes := [nameOf ["r"]] } ∅) [nameOf ["r"]] 0 ∧
      AllAnswered (tlvPlatform false false) jsonText (fun _ => {})
        (started (tlvPlatform false false) { repoPrefixes := [nameOf ["r"]] } ∅)
        [nameOf ["r"]] 0 := by
  obtain ⟨accept, answered⟩ := reachable_iff (tlvPlatform false false) jsonText (fun _ => {})
    { repoPrefixes := [nameOf ["r"]] } ∅ (Runs.run_nil _) 0
  exact ⟨accept.mpr (by decide), answered.mpr (by decide)⟩

end StatusNamespaces

end FastRepo
