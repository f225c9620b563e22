/-
Listening for data and for commands.

`initializeStorage` adds the scanned prefixes to the configured ones and listens for all of them;
`onDataInsertion` listens for an announced name unless a data prefix covers it; `enableListening`
sets up the command handles and connects the signals. `announced` is what an announcement leaves
behind, however many slots deliver it: the name is passed to `ReadHandle::listen`, and listened for
when its registration returns.
-/

import FastRepo.Lib.PrefixCover
import FastRepo.Repo.State

namespace FastRepo

open Exits

/-- `ReadHandle::listen`: the callback is connected when the registration returns. -/
def ReadHandle.listen (outcomes : Outcomes) (dataPrefix : Name) : Handler Unit := do
  modify fun repo => { repo with passedToListen := repo.passedToListen ++ [dataPrefix] }
  call outcomes .registerPrefix
  modify fun repo =>
    { repo with face.dataListeners := repo.face.dataListeners ++ [dataPrefix] }

/-- The prefix as a list, or nothing when its registration throws. -/
def Outcomes.registered (outcomes : Outcomes) (dataPrefix : Name) : List Name :=
  match outcomes.throws .registerPrefix with
  | none => [dataPrefix]
  | some _ => []

theorem Outcomes.registered_of_returns {outcomes : Outcomes}
    (returns : outcomes.throws .registerPrefix = none) (dataPrefix : Name) :
    outcomes.registered dataPrefix = [dataPrefix] := by
  rw [registered, returns]

theorem final_listen (outcomes : Outcomes) (dataPrefix : Name) (repo : FastRepoImpl) :
    final (ReadHandle.listen outcomes dataPrefix) repo =
      { repo with
        passedToListen := repo.passedToListen ++ [dataPrefix]
        face.dataListeners := repo.face.dataListeners ++ outcomes.registered dataPrefix } := by
  unfold ReadHandle.listen call Outcomes.registered
  rw [final_modify_bind]
  cases outcomes.throws .registerPrefix with
  | none => rfl
  | some exn => simp only [List.append_nil]; rfl

namespace FastRepoImpl

/-! ### Announcements -/

/-- `FastRepoImpl::onDataInsertion`. -/
def onDataInsertion (outcomes : Outcomes) (name : Name) : Handler Unit := do
  let repo ← get
  if PrefixCover.Covered repo.config.dataPrefixes name then
    pure ()
  else
    modify fun repo =>
      { repo with config.dataPrefixes := repo.config.dataPrefixes ++ [name] }
    ReadHandle.listen outcomes name

/-- The slots connected to an `onDataInsertion` signal, called one after the other. An exception in
one of them ends the delivery. -/
def deliver (outcomes : Outcomes) (name : Name) : Nat → Handler Unit
  | 0 => pure ()
  | slots + 1 => do
    onDataInsertion outcomes name
    deliver outcomes name slots

/-- Raise an `onDataInsertion` signal. -/
def dataInsertionSignal (outcomes : Outcomes) (name : Name) : Handler Unit := do
  let repo ← get
  deliver outcomes name repo.insertionSlots

/-- The repo after an announcement: the name is passed on to be listened for unless it is
covered. -/
def announced (repo : FastRepoImpl) (outcomes : Outcomes) (name : Name) : FastRepoImpl :=
  if PrefixCover.Covered repo.config.dataPrefixes name then repo
  else
    { repo with
      config.dataPrefixes := repo.config.dataPrefixes ++ [name]
      passedToListen := repo.passedToListen ++ [name]
      face.dataListeners := repo.face.dataListeners ++ outcomes.registered name }

theorem announced_dataPrefixes (repo : FastRepoImpl) (outcomes : Outcomes) (name : Name) :
    (repo.announced outcomes name).config.dataPrefixes =
      PrefixCover.add repo.config.dataPrefixes name := by
  unfold announced PrefixCover.add
  split <;> rfl

theorem announced_of_covered {repo : FastRepoImpl} {name : Name}
    (outcomes : Outcomes) (covered : PrefixCover.Covered repo.config.dataPrefixes name) :
    repo.announced outcomes name = repo := if_pos covered

theorem covered_announced (repo : FastRepoImpl) (outcomes : Outcomes) (name : Name) :
    PrefixCover.Covered (repo.announced outcomes name).config.dataPrefixes name := by
  rw [announced_dataPrefixes]
  exact PrefixCover.covered_add_self _ name

/-- A second delivery changes nothing. -/
theorem announced_announced (repo : FastRepoImpl) (outcomes : Outcomes) (name : Name) :
    (repo.announced outcomes name).announced outcomes name = repo.announced outcomes name :=
  announced_of_covered outcomes (covered_announced repo outcomes name)

/-- An announcement touches the data prefixes and what is passed on to be listened for, and nothing
else. -/
theorem part_announced {π : Type} (part : FastRepoImpl → π)
    (ignores : ∀ repo dataPrefixes passedToListen dataListeners, part { repo with
      config.dataPrefixes := dataPrefixes
      passedToListen := passedToListen
      face.dataListeners := dataListeners } = part repo)
    (repo : FastRepoImpl) (outcomes : Outcomes) (name : Name) :
    part (repo.announced outcomes name) = part repo := by
  unfold announced
  split
  · rfl
  · exact ignores repo _ _ _

/-- One delivery: the name is passed on unless it is covered, whether or not the registration
throws. -/
theorem final_onDataInsertion (outcomes : Outcomes) (name : Name) (repo : FastRepoImpl) :
    final (onDataInsertion outcomes name) repo = repo.announced outcomes name := by
  unfold onDataInsertion announced
  rw [final_get_bind]
  split
  · rfl
  · rw [final_modify_bind, final_listen]

/-- Fan-out: **an announcement delivered to at least one slot passes the name on exactly when no
data prefix covers it**, and any further delivery changes nothing. -/
theorem final_deliver (outcomes : Outcomes) (name : Name) (repo : FastRepoImpl) (slots : Nat) :
    final (deliver outcomes name slots) repo =
      if slots = 0 then repo else repo.announced outcomes name := by
  induction slots generalizing repo with
  | zero => rfl
  | succ slots ih =>
    rw [deliver, final_bind, if_neg (Nat.succ_ne_zero slots)]
    have first := final_onDataInsertion outcomes name repo
    cases run : onDataInsertion outcomes name repo with
    | ok _ t =>
      rw [final_of_ok run] at first
      subst first
      show final (deliver outcomes name slots) (repo.announced outcomes name) = _
      rw [ih, announced_announced, ite_self]
    | error _ t =>
      rw [final_of_error run] at first
      exact first

theorem final_dataInsertionSignal (outcomes : Outcomes) (name : Name) (repo : FastRepoImpl) :
    final (dataInsertionSignal outcomes name) repo =
      if repo.insertionSlots = 0 then repo else repo.announced outcomes name := by
  rw [dataInsertionSignal, final_get_bind, final_deliver]

/-- The delivery of a name does not throw: no slot is connected, or a data prefix covers the name,
or the registration returns. -/
def SignalReturns (outcomes : Outcomes) (repo : FastRepoImpl) (name : Name) : Prop :=
  repo.insertionSlots = 0 ∨ PrefixCover.Covered repo.config.dataPrefixes name ∨
    outcomes.throws .registerPrefix = none

instance (outcomes : Outcomes) (repo : FastRepoImpl) (name : Name) :
    Decidable (SignalReturns outcomes repo name) :=
  inferInstanceAs (Decidable (_ ∨ _))

section Signal

variable {outcomes : Outcomes} {repo : FastRepoImpl} {name : Name}

theorem onDataInsertion_of_returns
    (returns : PrefixCover.Covered repo.config.dataPrefixes name ∨
      outcomes.throws .registerPrefix = none) :
    onDataInsertion outcomes name repo = .ok () (repo.announced outcomes name) := by
  unfold onDataInsertion announced ReadHandle.listen
  rw [bind_apply, get_apply]
  show (ite _ _ _ : Handler Unit) repo = _
  by_cases covered : PrefixCover.Covered repo.config.dataPrefixes name
  · rw [if_pos covered, if_pos covered]
    rfl
  · rw [if_neg covered, if_neg covered, call, Outcomes.registered, returns.resolve_left covered]
    rfl

/-- A registration that throws leaves the name among the data prefixes all the same. -/
theorem onDataInsertion_of_not_returns
    (uncovered : ¬PrefixCover.Covered repo.config.dataPrefixes name)
    (throws : outcomes.throws .registerPrefix ≠ none) :
    ∃ exn, onDataInsertion outcomes name repo = .error exn (repo.announced outcomes name) := by
  obtain ⟨exn, threw⟩ := Option.ne_none_iff_exists'.mp throws
  refine ⟨exn, ?_⟩
  unfold onDataInsertion announced ReadHandle.listen
  rw [bind_apply, get_apply]
  show (ite _ _ _ : Handler Unit) repo = _
  rw [if_neg uncovered, if_neg uncovered, call, Outcomes.registered, threw]
  simp only [List.append_nil]
  rfl

theorem deliver_of_returns (slots : Nat)
    (returns : PrefixCover.Covered repo.config.dataPrefixes name ∨
      outcomes.throws .registerPrefix = none) :
    deliver outcomes name slots repo =
      .ok () (if slots = 0 then repo else repo.announced outcomes name) := by
  induction slots generalizing repo with
  | zero => rfl
  | succ slots ih =>
    rw [deliver, bind_apply, onDataInsertion_of_returns returns, if_neg (Nat.succ_ne_zero slots)]
    show deliver outcomes name slots (repo.announced outcomes name) = _
    rw [ih (Or.inl (covered_announced repo outcomes name)), announced_announced, ite_self]

theorem dataInsertionSignal_of_returns (returns : SignalReturns outcomes repo name) :
    dataInsertionSignal outcomes name repo =
      .ok () (if repo.insertionSlots = 0 then repo else repo.announced outcomes name) := by
  rw [dataInsertionSignal, bind_apply, get_apply]
  show deliver outcomes name repo.insertionSlots repo = _
  rcases returns with none | returns
  · rw [none]
    rfl
  · exact deliver_of_returns repo.insertionSlots returns

/-- Otherwise the first slot throws, with the name among the data prefixes. -/
theorem dataInsertionSignal_of_not_returns (throws : ¬SignalReturns outcomes repo name) :
    ∃ exn, dataInsertionSignal outcomes name repo =
      .error exn (repo.announced outcomes name) := by
  simp only [SignalReturns, not_or] at throws
  obtain ⟨slots, uncovered, registration⟩ := throws
  obtain ⟨exn, threw⟩ := onDataInsertion_of_not_returns uncovered registration
  refine ⟨exn, ?_⟩
  rw [dataInsertionSignal, bind_apply, get_apply]
  show deliver outcomes name repo.insertionSlots repo = _
  obtain ⟨more, same⟩ := Nat.exists_eq_succ_of_ne_zero slots
  rw [same, deliver, bind_apply, threw]

/-- With no callee throwing, the signal returns. -/
theorem dataInsertionSignal_quiet (quiet : outcomes.Quiet) (name : Name) (repo : FastRepoImpl) :
    dataInsertionSignal outcomes name repo =
      .ok () (if repo.insertionSlots = 0 then repo else repo.announced outcomes name) :=
  dataInsertionSignal_of_returns (Or.inr (Or.inr (quiet .registerPrefix)))

end Signal

/-! ### Startup -/

variable (platform : Platform)

/-- The constructor of `FastRepoImpl`, on a database with the given contents. -/
def constructed (config : Config) (db : Db) : FastRepoImpl :=
  { config := config, storage := { pimpl := { db := db, renamePrefix := config.renamePrefix } } }

/-- The callback `initializeStorage` hands to the scan: add the scanned prefixes to the configured
ones and listen for all of them. A registration that throws here ends the process. -/
def onLongestPrefixes (prefixes : List Name) (repo : FastRepoImpl) : FastRepoImpl :=
  { repo with
    config.dataPrefixes := repo.config.dataPrefixes ++ prefixes
    passedToListen := repo.passedToListen ++ (repo.config.dataPrefixes ++ prefixes)
    face.dataListeners := repo.face.dataListeners ++ (repo.config.dataPrefixes ++ prefixes) }

/-- `FastRepoImpl::initializeStorage`. -/
def initializeStorage (repo : FastRepoImpl) : FastRepoImpl :=
  let scan := repo.storage.scanForLongestPrefixes platform.ndn
  onLongestPrefixes scan.2 { repo with storage := scan.1 }

/-- The body of the loop of `enableListening` for one command prefix: listen for the commands and
the status requests under it, add the two report sources, and connect the two signals. -/
def listenUnder (repo : FastRepoImpl) (cmdPrefix : Name) : FastRepoImpl :=
  { repo with
    face.commandFilters := repo.face.commandFilters ++
      [(cmdPrefix ++ [.generic (ascii "insert")], .insert),
        (cmdPrefix ++ [.generic (ascii "pattern")], .pattern),
        (cmdPrefix ++ [.generic (ascii "cancel")], .cancel)]
    statusHandle.statusReportSources :=
      repo.statusHandle.statusReportSources ++ [.repo, .patternHandle]
    statusHandle.statusNamespaces :=
      repo.statusHandle.statusNamespaces ++ [cmdPrefix ++ [.generic (ascii "status")]]
    insertionSlots := repo.insertionSlots + 1 }

/-- `FastRepoImpl::enableListening`. -/
def enableListening (repo : FastRepoImpl) : FastRepoImpl :=
  repo.config.repoPrefixes.foldl listenUnder repo

/-- The repo at the start of its event loop. A read-only repo does not listen for commands. The scan
is dispatched to the loop before anything else, so its callback runs after `enableListening` and
before the first event. -/
def started (config : Config) (db : Db) : FastRepoImpl :=
  let repo := constructed config db
  initializeStorage platform (if config.readOnly then repo else repo.enableListening)

/-- The result of the startup scan. -/
def scanned (config : Config) (db : Db) : List Name :=
  ((constructed config db).storage.scanForLongestPrefixes platform.ndn).2

/-- Listening for commands leaves the data side of the repo alone and connects one slot for each
command prefix. -/
theorem foldl_listenUnder (repo : FastRepoImpl) (cmdPrefixes : List Name) :
    (cmdPrefixes.foldl listenUnder repo).config = repo.config ∧
      (cmdPrefixes.foldl listenUnder repo).storage = repo.storage ∧
      (cmdPrefixes.foldl listenUnder repo).passedToListen = repo.passedToListen ∧
      (cmdPrefixes.foldl listenUnder repo).face.dataListeners = repo.face.dataListeners ∧
      (cmdPrefixes.foldl listenUnder repo).insertionSlots =
        repo.insertionSlots + cmdPrefixes.length := by
  induction cmdPrefixes generalizing repo with
  | nil => exact ⟨rfl, rfl, rfl, rfl, rfl⟩
  | cons cmdPrefix cmdPrefixes ih =>
    obtain ⟨config, storage, passed, listeners, slots⟩ := ih (repo.listenUnder cmdPrefix)
    refine ⟨config, storage, passed, listeners, slots.trans ?_⟩
    show repo.insertionSlots + 1 + cmdPrefixes.length = _
    rw [List.length_cons]
    omega

/-- A part of the state that neither the scan nor the loop over the command prefixes touches is at
the start as the constructor made it. -/
theorem part_started {π : Type} (part : FastRepoImpl → π)
    (listens : ∀ repo cmdPrefix, part (listenUnder repo cmdPrefix) = part repo)
    (scans : ∀ repo, part (initializeStorage platform repo) = part repo) (config : Config)
    (db : Db) : part (started platform config db) = part (constructed config db) := by
  have loop : ∀ (repo : FastRepoImpl) (cmdPrefixes : List Name),
      part (cmdPrefixes.foldl listenUnder repo) = part repo := by
    intro repo cmdPrefixes
    induction cmdPrefixes generalizing repo with
    | nil => rfl
    | cons cmdPrefix cmdPrefixes ih => exact (ih _).trans (listens repo cmdPrefix)
  unfold started
  rw [scans]
  split
  · rfl
  · exact loop _ _

/-- At the start the repo listens for the configured and the scanned prefixes, in this order, and
these are its data prefixes. -/
theorem started_dataPrefixes (config : Config) (db : Db) :
    (started platform config db).config.dataPrefixes =
        config.dataPrefixes ++ scanned platform config db ∧
      (started platform config db).passedToListen =
        (started platform config db).config.dataPrefixes ∧
      (started platform config db).face.dataListeners =
        (started platform config db).config.dataPrefixes := by
  unfold started scanned
  obtain ⟨sameConfig, sameStorage, passed, listeners, _⟩ :=
    foldl_listenUnder (constructed config db) config.repoPrefixes
  by_cases readOnly : config.readOnly
  · simp only [if_pos readOnly]
    exact ⟨rfl, rfl, rfl⟩
  · have start : (constructed config db).config = config := rfl
    have nonePassed : (constructed config db).passedToListen = [] := rfl
    have none : (constructed config db).face.dataListeners = [] := rfl
    simp [readOnly, initializeStorage, onLongestPrefixes, enableListening, start, nonePassed, none,
      sameConfig, sameStorage, passed, listeners]

end FastRepoImpl

end FastRepo
