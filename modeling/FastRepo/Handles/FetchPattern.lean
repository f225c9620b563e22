/-
The fetch patterns and their factory.

A counter pattern fetches `<prefix>/0` to `<prefix>/9`, one after the other: a timer expresses the
next Interest, and its data is written and sets the next timer. Timers and Interests hold a bare
pointer to the pattern object. An ndnrtc pattern hands its prefix to a recorder of the ndnrtc
library, which calls back with each packet to store (`NdnrtcPattern.storeFun`), and a generalized
object pattern does nothing yet.
-/

import FastRepo.Handles.BaseHandle
import FastRepo.Lib.Decimal

namespace FastRepo

/-! ### Pattern objects -/

namespace FastRepoImpl

/-- Put a pattern object in its new state. -/
def setInstance (repo : FastRepoImpl) (instanceId : InstanceId) (pattern : FetchPattern) :
    FastRepoImpl :=
  { repo with instances := repo.instances.set instanceId pattern }

/-- Add a timer for a pattern object. -/
def addTimer (repo : FastRepoImpl) (timer : Timer) : FastRepoImpl :=
  { repo with face.timers := repo.face.timers ++ [timer] }

/-- Add an outstanding Interest of a pattern object. -/
def addPatternInterest (repo : FastRepoImpl) (interest : PatternInterest) : FastRepoImpl :=
  { repo with face.patternInterests := repo.face.patternInterests ++ [interest] }

end FastRepoImpl

variable (platform : Platform)

/-! ### The counter pattern -/

namespace CounterPattern

/-- The number of packets a counter pattern fetches. -/
def limit : Nat := 10

/-- `CounterPattern::fetch`. -/
def fetch (outcomes : Outcomes) (instanceId : InstanceId) (fetchPrefix : Name) :
    Handler Unit := do
  modify fun repo => repo.setInstance instanceId (.counter ⟨false, 0, fetchPrefix⟩)
  call outcomes .callLater
  modify fun repo => repo.addTimer ⟨1, instanceId⟩
  modify fun repo => repo.setInstance instanceId (.counter ⟨true, 0, fetchPrefix⟩)

/-- The name the pattern fetches next. -/
def fetchName (pattern : CounterPattern) : Name :=
  pattern.fetchPrefix ++ [.generic (Decimal.decimal pattern.counter)]

/-- `CounterPattern::doFetch`. -/
def doFetch (outcomes : Outcomes) (instanceId : InstanceId) : Handler Unit := do
  let repo ← get
  match repo.instances[instanceId]? with
  | some (.counter pattern) =>
    if pattern.running then do
      call outcomes .expressInterest
      modify fun repo => repo.addPatternInterest ⟨pattern.fetchName, 4000, instanceId⟩
    else pure ()
  | _ => pure ()

/-- What `CounterPattern::onData` does after the write: count it, and set the next timer or stop. -/
def scheduleNext (outcomes : Outcomes) (instanceId : InstanceId) (pattern : CounterPattern) :
    Handler Unit := do
  modify fun repo =>
    repo.setInstance instanceId (.counter { pattern with counter := pattern.counter + 1 })
  if pattern.counter + 1 < limit then do
    call outcomes .callLater
    modify fun repo => repo.addTimer ⟨2000, instanceId⟩
  else
    modify fun repo => repo.setInstance instanceId
      (.counter { pattern with counter := pattern.counter + 1, running := false })

/-- `CounterPattern::onData`: it does not ask whether the pattern is running. -/
def onData (outcomes : Outcomes) (instanceId : InstanceId) (data : Data) : Handler Unit := do
  let repo ← get
  match repo.instances[instanceId]? with
  | some (.counter pattern) => do
    let _ ← FastRepoImpl.put platform outcomes (.pattern instanceId) data
    scheduleNext outcomes instanceId pattern
  | _ => pure ()

/-! ### What the callbacks of a counter pattern leave behind -/

section Callbacks

open Exits

/-- A counter pattern after its next packet: it stops at the limit. -/
def next (pattern : CounterPattern) : CounterPattern :=
  { pattern with
    counter := pattern.counter + 1
    running := pattern.running && decide (pattern.counter + 1 < limit) }

/-- Another timer is due after the packet, and the face takes it. -/
def Schedules (outcomes : Outcomes) (pattern : CounterPattern) : Prop :=
  pattern.counter + 1 < limit ∧ outcomes.throws .callLater = none

instance (outcomes : Outcomes) (pattern : CounterPattern) :
    Decidable (Schedules outcomes pattern) :=
  inferInstanceAs (Decidable (_ ∧ _))

/-- A callback on an object that is no counter pattern does nothing. -/
theorem final_doFetch_of_ne (outcomes : Outcomes) (instanceId : InstanceId) {repo : FastRepoImpl}
    (other : ∀ pattern, repo.instances[instanceId]? ≠ some (.counter pattern)) :
    final (doFetch outcomes instanceId) repo = repo := by
  unfold doFetch
  rw [final_get_bind]
  split
  · rename_i pattern found
    exact absurd found (other pattern)
  · rfl

theorem final_onData_of_ne (outcomes : Outcomes) (instanceId : InstanceId) (data : Data)
    {repo : FastRepoImpl} (other : ∀ pattern, repo.instances[instanceId]? ≠ some (.counter pattern)) :
    final (onData platform outcomes instanceId data) repo = repo := by
  unfold onData
  rw [final_get_bind]
  split
  · rename_i pattern found
    exact absurd found (other pattern)
  · rfl

section Found

variable (outcomes : Outcomes) {instanceId : InstanceId} {repo : FastRepoImpl}
  {pattern : CounterPattern}

/-- A timer that fires expresses the next Interest of a running pattern, if the face takes it. -/
theorem final_doFetch (found : repo.instances[instanceId]? = some (.counter pattern)) :
    final (doFetch outcomes instanceId) repo =
      if pattern.running = true ∧ outcomes.throws .expressInterest = none then
        repo.addPatternInterest ⟨pattern.fetchName, 4000, instanceId⟩
      else repo := by
  unfold doFetch
  rw [final_get_bind]
  simp only [found]
  by_cases running : pattern.running = true
  · rw [if_pos running]
    unfold call
    cases threw : outcomes.throws .expressInterest with
    | none =>
      rw [if_pos ⟨running, rfl⟩]
      rfl
    | some exn =>
      rw [if_neg fun both => by cases both.2]
      rfl
  · rw [if_neg running, if_neg fun both => running both.1]
    rfl

/-- After its write a counter pattern counts, and sets a timer when one is due. -/
theorem final_scheduleNext : final (scheduleNext outcomes instanceId pattern) repo =
    if Schedules outcomes pattern then
      (repo.setInstance instanceId (.counter pattern.next)).addTimer ⟨2000, instanceId⟩
    else repo.setInstance instanceId (.counter pattern.next) := by
  unfold scheduleNext
  rw [final_modify_bind]
  by_cases due : pattern.counter + 1 < limit
  · have next : pattern.next = { pattern with counter := pattern.counter + 1 } := by
      simp [CounterPattern.next, due]
    rw [if_pos due, next]
    unfold call
    cases threw : outcomes.throws .callLater with
    | none =>
      rw [if_pos ⟨due, threw⟩]
      rfl
    | some exn =>
      rw [if_neg fun both => by cases threw.symm.trans both.2]
      rfl
  · have next : pattern.next =
        { pattern with counter := pattern.counter + 1, running := false } := by
      simp [CounterPattern.next, due]
    rw [if_neg due, if_neg fun both => due both.1, next, final_modify]
    simp only [FastRepoImpl.setInstance, List.set_set]

/-- Data is written and counted, and sets the next timer; or the write throws, and nothing
happens. -/
theorem final_onData (data : Data)
    (found : repo.instances[instanceId]? = some (.counter pattern)) :
    final (onData platform outcomes instanceId data) repo =
      if outcomes.throws .storagePut = none then
        final (scheduleNext outcomes instanceId pattern)
          (repo.written platform outcomes.dbPut (.pattern instanceId) data).1
      else repo := by
  unfold onData
  rw [final_get_bind]
  simp only [found]
  rw [final_bind, FastRepoImpl.put_apply]
  cases threw : outcomes.throws .storagePut with
  | none => rfl
  | some exn => rfl

end Found

/-- A timer that fires expresses an Interest, or does nothing. -/
theorem doFetch_cases (outcomes : Outcomes) (instanceId : InstanceId) (repo : FastRepoImpl) :
    final (doFetch outcomes instanceId) repo = repo ∨
      ∃ pattern, repo.instances[instanceId]? = some (.counter pattern) ∧
        final (doFetch outcomes instanceId) repo =
          repo.addPatternInterest ⟨pattern.fetchName, 4000, instanceId⟩ := by
  by_cases counter : ∃ pattern, repo.instances[instanceId]? = some (.counter pattern)
  · obtain ⟨pattern, found⟩ := counter
    rw [final_doFetch outcomes found]
    split
    · exact Or.inr ⟨pattern, found, rfl⟩
    · exact Or.inl rfl
  · exact Or.inl (final_doFetch_of_ne outcomes instanceId fun pattern found =>
      counter ⟨pattern, found⟩)

/-- Data is written and counted, and may set the next timer; or the write throws, and nothing
happens. -/
theorem onData_cases (outcomes : Outcomes) (instanceId : InstanceId) (data : Data)
    (repo : FastRepoImpl) :
    final (onData platform outcomes instanceId data) repo = repo ∨
      ∃ pattern after : CounterPattern, repo.instances[instanceId]? = some (.counter pattern) ∧
        after.fetchPrefix = pattern.fetchPrefix ∧
        (final (onData platform outcomes instanceId data) repo =
            (repo.written platform outcomes.dbPut (.pattern instanceId) data).1.setInstance
              instanceId (.counter after) ∨
          final (onData platform outcomes instanceId data) repo =
            ((repo.written platform outcomes.dbPut (.pattern instanceId) data).1.setInstance
              instanceId (.counter after)).addTimer ⟨2000, instanceId⟩) := by
  by_cases counter : ∃ pattern, repo.instances[instanceId]? = some (.counter pattern)
  · obtain ⟨pattern, found⟩ := counter
    rw [final_onData platform outcomes data found]
    split
    · refine Or.inr ⟨pattern, pattern.next, found, rfl, ?_⟩
      rw [final_scheduleNext]
      split
      · exact Or.inr rfl
      · exact Or.inl rfl
    · exact Or.inl rfl
  · exact Or.inl (final_onData_of_ne platform outcomes instanceId data fun pattern found =>
      counter ⟨pattern, found⟩)

end Callbacks

end CounterPattern

/-! ### The factory -/

/-- The kinds of patterns. -/
inductive PatternKind where
  | counter
  | ndnrtc
  | gobj
deriving DecidableEq, Repr

/-- `getPatternKeyword` of each kind. -/
def PatternKind.keyword : PatternKind → Name
  | .counter => platform.ndn.uri.ofUri (ascii "counter")
  | .ndnrtc => platform.ndn.uri.ofUri (ascii "ndnrtc" ++ Decimal.decimal platform.nameApiVersion)
  | .gobj => platform.ndn.uri.ofUri (ascii "gobj")

/-- The kind of a pattern object. -/
def FetchPattern.kind : FetchPattern → PatternKind
  | .counter _ => .counter
  | .ndnrtc _ => .ndnrtc
  | .gobj => .gobj

namespace PatternFactory

/-- The map the constructor of the factory makes. -/
def patterns : Std.TreeMap Name PatternKind :=
  let counter : Std.TreeMap Name PatternKind :=
    (∅ : Std.TreeMap Name PatternKind).insert (PatternKind.keyword platform .counter) .counter
  let ndnrtc := if platform.haveLibNdnrtc then
    counter.insert (PatternKind.keyword platform .ndnrtc) .ndnrtc else counter
  if platform.haveLibCnlCpp then
    ndnrtc.insert (PatternKind.keyword platform .gobj) .gobj else ndnrtc

/-- `PatternFactory::create`: the kind of the pattern that is created. The name is looked up by the
name its URI stands for. -/
def create (name : Name) : Option PatternKind :=
  (patterns platform)[platform.ndn.uri.ofUri (platform.ndn.uri.toUri name)]?

/-- `PatternFactory::getSupportedPatterns`. -/
def getSupportedPatterns : List Name := (patterns platform).keys

end PatternFactory

/-! ### The interface of the patterns -/

/-- `storeFun`, the callback `NdnrtcPattern::fetch` gives its recorder: store a packet. It does not
look at the pattern. -/
def NdnrtcPattern.storeFun (outcomes : Outcomes) (instanceId : InstanceId) (data : Data) :
    Handler Unit := do
  let _ ← FastRepoImpl.put platform outcomes (.recorder instanceId) data
  pure ()

/-- The packet of a recorder is written, or the write throws and nothing happens. -/
theorem NdnrtcPattern.final_storeFun (outcomes : Outcomes) (instanceId : InstanceId) (data : Data)
    (repo : FastRepoImpl) :
    Exits.final (storeFun platform outcomes instanceId data) repo =
      if outcomes.throws .storagePut = none then
        (repo.written platform outcomes.dbPut (.recorder instanceId) data).1
      else repo := by
  unfold storeFun
  rw [Exits.final_bind, FastRepoImpl.put_apply]
  cases outcomes.throws .storagePut with
  | none => rfl
  | some exn => rfl

namespace FetchPattern

/-- A pattern object when it is made. -/
def ofKind : PatternKind → FetchPattern
  | .counter => .counter {}
  | .ndnrtc => .ndnrtc none
  | .gobj => .gobj

@[simp] theorem kind_ofKind (kind : PatternKind) : (ofKind kind).kind = kind := by
  cases kind <;> rfl

/-- `NdnrtcPattern::fetch`: a recorder is made and started when the prefix is the name of a stream.
The recorder is given `NdnrtcPattern.storeFun`. -/
def fetchNdnrtc (outcomes : Outcomes) (instanceId : InstanceId) (fetchPrefix : Name) :
    Handler Unit :=
  if platform.extractInfo fetchPrefix then do
    modify fun repo => repo.setInstance instanceId (.ndnrtc (some fetchPrefix))
    call outcomes .startRecorder
  else pure ()

/-- `IFetchPattern::fetch`. -/
def fetch (outcomes : Outcomes) (kind : PatternKind) (instanceId : InstanceId)
    (fetchPrefix : Name) : Handler Unit :=
  match kind with
  | .counter => CounterPattern.fetch outcomes instanceId fetchPrefix
  | .ndnrtc => fetchNdnrtc platform outcomes instanceId fetchPrefix
  | .gobj => pure ()

/-- A pattern object after it was cancelled. -/
def cancelled : FetchPattern → FetchPattern
  | .counter pattern => .counter { pattern with running := false }
  | .ndnrtc _ => .ndnrtc none
  | .gobj => .gobj

/-- `IFetchPattern::cancel`. Only a recorder has something to stop. -/
def cancel (outcomes : Outcomes) (instanceId : InstanceId) : Handler Unit := do
  let repo ← get
  match repo.instances[instanceId]? with
  | none => pure ()
  | some (.ndnrtc (some stream)) => do
    call outcomes .stopRecorder
    modify fun repo => repo.setInstance instanceId (FetchPattern.ndnrtc (some stream)).cancelled
  | some pattern => modify fun repo => repo.setInstance instanceId pattern.cancelled

/-! ### What fetching and cancelling leave behind -/

/-- A pattern object after it was told to fetch. -/
def fetching (kind : PatternKind) (fetchPrefix : Name) : FetchPattern :=
  match kind with
  | .counter => .counter ⟨true, 0, fetchPrefix⟩
  | .ndnrtc => .ndnrtc (if platform.extractInfo fetchPrefix then some fetchPrefix else none)
  | .gobj => .gobj

/-- `fetch` sets a pattern to work: a recorder needs the name of a stream, and a generalized object
pattern does nothing. -/
def Fetches (kind : PatternKind) (fetchPrefix : Name) : Prop :=
  match kind with
  | .counter => True
  | .ndnrtc => platform.extractInfo fetchPrefix = true
  | .gobj => False

@[simp] theorem kind_fetching (kind : PatternKind) (fetchPrefix : Name) :
    (fetching platform kind fetchPrefix).kind = kind := by
  cases kind <;> rfl

@[simp] theorem kind_cancelled (pattern : FetchPattern) : pattern.cancelled.kind = pattern.kind := by
  cases pattern <;> rfl

/-- The timers a pattern sets when it is told to fetch. -/
def firstTimers (kind : PatternKind) (instanceId : InstanceId) : List Timer :=
  match kind with
  | .counter => [⟨1, instanceId⟩]
  | _ => []

/-- The repo after a new pattern object was told to fetch. -/
def fetched (repo : FastRepoImpl) (kind : PatternKind) (instanceId : InstanceId)
    (fetchPrefix : Name) : FastRepoImpl :=
  { repo with
    instances := repo.instances.set instanceId (fetching platform kind fetchPrefix)
    face.timers := repo.face.timers ++ firstTimers kind instanceId }

/-- The repo when `fetch` threw: the object has changed its state, and nothing else has. -/
def FetchThrew (repo next : FastRepoImpl) (instanceId : InstanceId) : Prop :=
  ∃ pattern, next = repo.setInstance instanceId pattern

variable {platform}

/-- The object of a kind has just been made. -/
def IsNew (repo : FastRepoImpl) (kind : PatternKind) (instanceId : InstanceId) : Prop :=
  repo.instances[instanceId]? = some (ofKind kind)

theorem set_of_isNew {repo : FastRepoImpl} {kind : PatternKind} {instanceId : InstanceId}
    (new : IsNew repo kind instanceId) : repo.instances.set instanceId (ofKind kind) =
      repo.instances := by
  obtain ⟨bound, same⟩ := List.getElem?_eq_some_iff.mp new
  rw [← same]
  exact List.set_getElem_self bound

variable (platform) in
/-- The library that `fetch` calls does not throw. -/
def FetchReturns (outcomes : Outcomes) (kind : PatternKind) (fetchPrefix : Name) : Prop :=
  match kind with
  | .counter => outcomes.throws .callLater = none
  | .ndnrtc => platform.extractInfo fetchPrefix = true → outcomes.throws .startRecorder = none
  | .gobj => True

instance (outcomes : Outcomes) (kind : PatternKind) (fetchPrefix : Name) :
    Decidable (FetchReturns platform outcomes kind fetchPrefix) := by
  cases kind <;> unfold FetchReturns <;> infer_instance

theorem fetchReturns_of_quiet {outcomes : Outcomes} (quiet : outcomes.Quiet) (kind : PatternKind)
    (fetchPrefix : Name) : FetchReturns platform outcomes kind fetchPrefix := by
  cases kind with
  | counter => exact quiet .callLater
  | ndnrtc => exact fun _ => quiet .startRecorder
  | gobj => trivial

section Fetch

variable {outcomes : Outcomes} {repo : FastRepoImpl} {kind : PatternKind} {instanceId : InstanceId}
  {fetchPrefix : Name}

/-- `fetch` of a new object returns, and leaves it as `fetching` says. -/
theorem fetch_of_returns (new : IsNew repo kind instanceId)
    (returns : FetchReturns platform outcomes kind fetchPrefix) :
    fetch platform outcomes kind instanceId fetchPrefix repo =
      .ok () (fetched platform repo kind instanceId fetchPrefix) := by
  have unchanged := set_of_isNew new
  cases kind with
  | counter =>
    unfold fetch CounterPattern.fetch call
    rw [show outcomes.throws .callLater = none from returns]
    refine congrArg (EStateM.Result.ok ()) ?_
    show ((repo.setInstance instanceId _).addTimer _).setInstance instanceId _ = _
    simp only [FastRepoImpl.setInstance, FastRepoImpl.addTimer, List.set_set]
    rfl
  | ndnrtc =>
    unfold fetch fetchNdnrtc call
    by_cases stream : platform.extractInfo fetchPrefix = true
    · rw [if_pos stream, returns stream]
      refine congrArg (EStateM.Result.ok ()) ?_
      unfold fetched fetching firstTimers
      rw [if_pos stream, List.append_nil]
      rfl
    · rw [if_neg stream]
      refine congrArg (EStateM.Result.ok ()) ?_
      unfold fetched fetching firstTimers
      rw [if_neg stream, List.append_nil]
      exact congrArg (fun instances => { repo with instances := instances }) unchanged.symm
  | gobj =>
    refine congrArg (EStateM.Result.ok ()) ?_
    unfold fetched fetching firstTimers
    rw [List.append_nil]
    exact congrArg (fun instances => { repo with instances := instances }) unchanged.symm

/-- Otherwise `fetch` throws, and sets no timer. -/
theorem fetch_of_not_returns (repo : FastRepoImpl) (instanceId : InstanceId)
    (throws : ¬FetchReturns platform outcomes kind fetchPrefix) :
    ∃ exn next, fetch platform outcomes kind instanceId fetchPrefix repo = .error exn next ∧
      FetchThrew repo next instanceId := by
  cases kind with
  | counter =>
    unfold fetch CounterPattern.fetch call
    cases threw : outcomes.throws .callLater with
    | none => exact absurd threw throws
    | some exn => exact ⟨exn, _, rfl, _, rfl⟩
  | ndnrtc =>
    unfold fetch fetchNdnrtc call
    by_cases stream : platform.extractInfo fetchPrefix = true
    · rw [if_pos stream]
      cases threw : outcomes.throws .startRecorder with
      | none => exact absurd (fun _ => threw) throws
      | some exn => exact ⟨exn, _, rfl, _, rfl⟩
    · exact absurd (fun same => absurd same stream) throws
  | gobj => exact absurd trivial throws

end Fetch

/-- The repo after a pattern object was cancelled. -/
def cancelledAt (repo : FastRepoImpl) (instanceId : InstanceId) : FastRepoImpl :=
  match repo.instances[instanceId]? with
  | none => repo
  | some pattern => repo.setInstance instanceId pattern.cancelled

/-- `cancel` returns, or it throws and changes nothing. Only the stop of a recorder throws. -/
theorem cancel_cases (outcomes : Outcomes) (repo : FastRepoImpl) (instanceId : InstanceId) :
    cancel outcomes instanceId repo = .ok () (cancelledAt repo instanceId) ∨
      ∃ exn stream, cancel outcomes instanceId repo = .error exn repo ∧
        repo.instances[instanceId]? = some (.ndnrtc (some stream)) := by
  unfold cancel cancelledAt call
  rw [Exits.bind_apply, Exits.get_apply]
  cases found : repo.instances[instanceId]? with
  | none => exact Or.inl (by simp only [found]; rfl)
  | some pattern =>
    cases pattern with
    | counter state => exact Or.inl (by simp only [found]; rfl)
    | gobj => exact Or.inl (by simp only [found]; rfl)
    | ndnrtc recorder =>
      cases recorder with
      | none => exact Or.inl (by simp only [found]; rfl)
      | some stream =>
        cases outcomes.throws .stopRecorder with
        | none => exact Or.inl (by simp only [found]; rfl)
        | some exn => exact Or.inr ⟨exn, stream, by simp only [found]; rfl, rfl⟩

theorem cancel_quiet {outcomes : Outcomes} (quiet : outcomes.Quiet) (repo : FastRepoImpl)
    (instanceId : InstanceId) :
    cancel outcomes instanceId repo = .ok () (cancelledAt repo instanceId) := by
  rcases cancel_cases outcomes repo instanceId with returned | ⟨exn, stream, threw, found⟩
  · exact returned
  · exfalso
    revert threw
    unfold cancel
    rw [Exits.bind_apply, Exits.get_apply, call_quiet quiet]
    simp only [found]
    exact fun threw => by cases threw

end FetchPattern

end FastRepo
