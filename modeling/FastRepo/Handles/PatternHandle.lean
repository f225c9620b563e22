/-
The pattern command and the cancel command.

`patterns_` maps a fetch prefix to the pattern object that fetches it, and holds the only owning
pointer to the object.
-/

import FastRepo.Handles.FetchPattern

namespace FastRepo

namespace FastRepoImpl

/-- Make a pattern object of a kind. -/
def addInstance (repo : FastRepoImpl) (kind : PatternKind) : FastRepoImpl :=
  { repo with instances := repo.instances ++ [.ofKind kind] }

/-- `patterns_[fetchPrefix] = pattern`. -/
def addPattern (repo : FastRepoImpl) (fetchPrefix : Name) (instanceId : InstanceId) :
    FastRepoImpl :=
  { repo with patterns := repo.patterns.insert fetchPrefix instanceId }

/-- `patterns_.erase`. -/
def erasePattern (repo : FastRepoImpl) (fetchPrefix : Name) : FastRepoImpl :=
  { repo with patterns := repo.patterns.erase fetchPrefix }

end FastRepoImpl

namespace PatternHandle

open BaseHandle Exits

variable (platform : Platform)

/-- The name a nested message stands for. -/
def decodeString (text : Bytes) : Except Exn Name :=
  (platform.decodeName text).map fun components => components.map .generic

/-- `PatternHandle::decodeNames`: the pattern name and the fetch prefix. -/
def decodeNames (composed : List Bytes) : Option (Name × Name) :=
  match composed with
  | [first, second] =>
    match decodeString platform first, decodeString platform second with
    | .ok patternName, .ok fetchPrefix => some (patternName, fetchPrefix)
    | _, _ => none
  | _ => none

/-- The two names decode: there are two components, and each is the encoding of a name. -/
def NamesDecode (composed : List Bytes) : Prop :=
  ∃ first second patternName fetchPrefix, composed = [first, second] ∧
    platform.decodeName first = .ok patternName ∧ platform.decodeName second = .ok fetchPrefix

theorem decodeNames_eq_none_iff (composed : List Bytes) :
    decodeNames platform composed = none ↔ ¬NamesDecode platform composed := by
  unfold NamesDecode decodeNames decodeString
  match composed with
  | [] => simp
  | [_] => simp
  | [first, second] =>
    cases decodedFirst : platform.decodeName first <;>
      cases decodedSecond : platform.decodeName second <;>
        simp [decodedFirst, decodedSecond, Except.map]
  | _ :: _ :: _ :: _ => simp

/-- Make a pattern, let it fetch, and enter it in the map; then announce what it is going to
store. -/
def startPattern (outcomes : Outcomes) (kind : PatternKind) (fetchPrefix : Name) :
    Handler Unit := do
  let repo ← get
  let instanceId := repo.instances.length
  modify fun repo => repo.addInstance kind
  FetchPattern.fetch platform outcomes kind instanceId fetchPrefix
  modify fun repo => repo.addPattern fetchPrefix instanceId
  FastRepoImpl.dataInsertionSignal outcomes
    (platform.ndn.uri.ofUri repo.storage.pimpl.renamePrefix ++ fetchPrefix)

/-- `PatternHandle::onInterest`. -/
def onInterest (outcomes : Outcomes) (interest : Interest) (cmdPrefix : Name) : Handler Unit :=
  match extractParameter platform interest cmdPrefix with
  | .error _ => negativeReply platform outcomes interest 403
  | .ok parameter =>
    match decodeNames platform parameter.name with
    | none => negativeReply platform outcomes interest 403
    | some (patternName, fetchPrefix) => do
      let repo ← get
      if repo.patterns.contains fetchPrefix then
        negativeReply platform outcomes interest 402
      else
        match PatternFactory.create platform patternName with
        | none => negativeReply platform outcomes interest 404
        | some kind => do
          startPattern platform outcomes kind fetchPrefix
          negativeReply platform outcomes interest 100

/-- Cancel the pattern of an entry and erase the entry, which destroys the pattern. -/
def cancelPattern (outcomes : Outcomes) (fetchPrefix : Name) (instanceId : InstanceId) :
    Handler Unit := do
  FetchPattern.cancel outcomes instanceId
  modify fun repo => repo.erasePattern fetchPrefix

/-- `PatternHandle::removePattern`. -/
def removePattern (outcomes : Outcomes) (fetchPrefix : Name) : Handler Unit := do
  let repo ← get
  match repo.patterns[fetchPrefix]? with
  | none => pure ()
  | some instanceId => cancelPattern outcomes fetchPrefix instanceId

/-- `PatternHandle::onCancelRequest`. -/
def onCancelRequest (outcomes : Outcomes) (interest : Interest) (cmdPrefix : Name) :
    Handler Unit :=
  match extractParameter platform interest cmdPrefix with
  | .error _ => negativeReply platform outcomes interest 403
  | .ok parameter => do
    let fetchPrefix : Name := parameter.name.map .generic
    let repo ← get
    match repo.patterns[fetchPrefix]? with
    | none => negativeReply platform outcomes interest 402
    | some instanceId => do
      cancelPattern outcomes fetchPrefix instanceId
      negativeReply platform outcomes interest 101

/-! ### What the commands leave behind -/

/-- The repo when a pattern has its entry: `fetch` has returned, and nothing is announced yet. -/
def entered (repo : FastRepoImpl) (kind : PatternKind) (fetchPrefix : Name) : FastRepoImpl :=
  (FetchPattern.fetched platform (repo.addInstance kind) kind repo.instances.length
    fetchPrefix).addPattern fetchPrefix repo.instances.length

/-- The repo after a pattern was started: its object is as `fetch` left it and has its entry, and
the name it is to store under is announced. -/
def started (outcomes : Outcomes) (repo : FastRepoImpl) (kind : PatternKind) (fetchPrefix : Name) :
    FastRepoImpl :=
  let entered := (FetchPattern.fetched platform (repo.addInstance kind) kind repo.instances.length
    fetchPrefix).addPattern fetchPrefix repo.instances.length
  if repo.insertionSlots = 0 then entered
  else entered.announced outcomes
    (platform.ndn.uri.ofUri repo.storage.pimpl.renamePrefix ++ fetchPrefix)

/-- The repo after the pattern of an entry was cancelled and destroyed. -/
def ended (repo : FastRepoImpl) (fetchPrefix : Name) (instanceId : InstanceId) : FastRepoImpl :=
  (FetchPattern.cancelledAt repo instanceId).erasePattern fetchPrefix

@[simp] theorem ended_patterns (repo : FastRepoImpl) (fetchPrefix : Name)
    (instanceId : InstanceId) :
    (ended repo fetchPrefix instanceId).patterns = repo.patterns.erase fetchPrefix := by
  unfold ended FetchPattern.cancelledAt
  cases repo.instances[instanceId]? <;> rfl

theorem isNew_addInstance (repo : FastRepoImpl) (kind : PatternKind) :
    FetchPattern.IsNew (repo.addInstance kind) kind repo.instances.length := by
  simp [FetchPattern.IsNew, FastRepoImpl.addInstance]

section StartPattern

variable {outcomes : Outcomes} {kind : PatternKind} {fetchPrefix : Name} (repo : FastRepoImpl)

/-- With the object of the pattern made, it fetches, is entered in the map and announced. -/
theorem startPattern_apply :
    startPattern platform outcomes kind fetchPrefix repo =
      (do
        FetchPattern.fetch platform outcomes kind repo.instances.length fetchPrefix
        modify fun current => current.addPattern fetchPrefix repo.instances.length
        FastRepoImpl.dataInsertionSignal outcomes
          (platform.ndn.uri.ofUri repo.storage.pimpl.renamePrefix ++ fetchPrefix) : Handler Unit)
        (repo.addInstance kind) := by
  unfold startPattern
  rw [bind_apply, get_apply]
  show (modify _ >>= _ : Handler Unit) repo = _
  rw [bind_apply, modify_apply]

/-- When `fetch` returns, the pattern is entered in the map, and what is left is to announce it. -/
theorem startPattern_of_returns
    (returns : FetchPattern.FetchReturns platform outcomes kind fetchPrefix) :
    startPattern platform outcomes kind fetchPrefix repo =
      FastRepoImpl.dataInsertionSignal outcomes
        (platform.ndn.uri.ofUri repo.storage.pimpl.renamePrefix ++ fetchPrefix)
        (entered platform repo kind fetchPrefix) := by
  rw [startPattern_apply, bind_apply,
    FetchPattern.fetch_of_returns (isNew_addInstance repo kind) returns]
  rfl

/-- Starting a pattern is complete when `fetch` returns, even when the announcement throws. -/
theorem final_startPattern (returns : FetchPattern.FetchReturns platform outcomes kind fetchPrefix) :
    final (startPattern platform outcomes kind fetchPrefix) repo =
      started platform outcomes repo kind fetchPrefix := by
  rw [final, startPattern_of_returns platform repo returns, ← final,
    FastRepoImpl.final_dataInsertionSignal]
  rfl

/-- When `fetch` throws, the pattern is not entered in the map. -/
theorem startPattern_of_not_returns
    (throws : ¬FetchPattern.FetchReturns platform outcomes kind fetchPrefix) :
    ∃ exn next, startPattern platform outcomes kind fetchPrefix repo = .error exn next ∧
      FetchPattern.FetchThrew (repo.addInstance kind) next repo.instances.length := by
  obtain ⟨exn, next, threw, threwSo⟩ :=
    FetchPattern.fetch_of_not_returns (repo.addInstance kind) repo.instances.length throws
  refine ⟨exn, next, ?_, threwSo⟩
  rw [startPattern_apply, bind_apply, threw]

theorem startPattern_quiet (quiet : outcomes.Quiet) :
    startPattern platform outcomes kind fetchPrefix repo =
      .ok () (started platform outcomes repo kind fetchPrefix) := by
  rw [startPattern_of_returns platform repo
    (FetchPattern.fetchReturns_of_quiet quiet kind fetchPrefix),
    FastRepoImpl.dataInsertionSignal_quiet quiet]
  rfl

end StartPattern

/-- A program that may send one packet, and does nothing else. -/
def SendsAtMost (repo next : FastRepoImpl) : Prop :=
  next = repo ∨ ∃ packet, next = repo.send packet

theorem sendsAtMost_negativeReply (outcomes : Outcomes) (interest : Interest) (code : UInt64)
    (repo : FastRepoImpl) :
    SendsAtMost repo (final (negativeReply platform outcomes interest code) repo) :=
  (final_reply platform outcomes interest _ repo).imp_right fun sent => ⟨_, sent⟩

/-- Ending the pattern of an entry: it is complete unless the stop of a recorder throws. -/
theorem cancelPattern_cases (outcomes : Outcomes) (repo : FastRepoImpl) (fetchPrefix : Name)
    (instanceId : InstanceId) :
    cancelPattern outcomes fetchPrefix instanceId repo =
        .ok () (ended repo fetchPrefix instanceId) ∨
      ∃ exn stream, cancelPattern outcomes fetchPrefix instanceId repo = .error exn repo ∧
        repo.instances[instanceId]? = some (.ndnrtc (some stream)) := by
  unfold cancelPattern
  rw [bind_apply]
  rcases FetchPattern.cancel_cases outcomes repo instanceId with
    returned | ⟨exn, stream, threw, recorder⟩
  · rw [returned]
    exact Or.inl rfl
  · rw [threw]
    exact Or.inr ⟨exn, stream, rfl, recorder⟩

theorem cancelPattern_quiet {outcomes : Outcomes} (quiet : outcomes.Quiet) (repo : FastRepoImpl)
    (fetchPrefix : Name) (instanceId : InstanceId) :
    cancelPattern outcomes fetchPrefix instanceId repo =
      .ok () (ended repo fetchPrefix instanceId) := by
  unfold cancelPattern
  rw [bind_apply, FetchPattern.cancel_quiet quiet]
  rfl

/-- Removing the pattern of a fetch prefix without entry does nothing. -/
theorem removePattern_absent (outcomes : Outcomes) {repo : FastRepoImpl} {fetchPrefix : Name}
    (absent : repo.patterns[fetchPrefix]? = none) :
    removePattern outcomes fetchPrefix repo = .ok () repo := by
  unfold removePattern
  rw [bind_apply, get_apply]
  simp only [absent]
  rfl

theorem removePattern_found (outcomes : Outcomes) {repo : FastRepoImpl} {fetchPrefix : Name}
    {instanceId : InstanceId} (found : repo.patterns[fetchPrefix]? = some instanceId) :
    removePattern outcomes fetchPrefix repo =
      cancelPattern outcomes fetchPrefix instanceId repo := by
  unfold removePattern
  rw [bind_apply, get_apply]
  simp only [found]

/-! ### The commands, by what they ask for -/

/-- What a pattern command asks for: the fetch prefix, and the kind of pattern when the keyword is
known. Nothing when the parameter or the two names do not decode. -/
def asksFor (interest : Interest) (cmdPrefix : Name) : Option (Name × Option PatternKind) :=
  match extractParameter platform interest cmdPrefix with
  | .error _ => none
  | .ok parameter => (decodeNames platform parameter.name).map fun names =>
      (names.2, PatternFactory.create platform names.1)

/-- The fetch prefix a cancel command asks to end. Nothing when the parameter does not decode. -/
def cancelsFor (interest : Interest) (cmdPrefix : Name) : Option Name :=
  match extractParameter platform interest cmdPrefix with
  | .error _ => none
  | .ok parameter => some (parameter.name.map .generic)

/-- A pattern command asks for nothing exactly when its parameter does not decode or the two names
in it do not. -/
theorem asksFor_eq_none_iff (interest : Interest) (cmdPrefix : Name) :
    asksFor platform interest cmdPrefix = none ↔
      ∀ parameter, extractParameter platform interest cmdPrefix = .ok parameter →
        ¬NamesDecode platform parameter.name := by
  unfold asksFor
  cases extracted : extractParameter platform interest cmdPrefix with
  | error exn => simp
  | ok parameter => simp [decodeNames_eq_none_iff]

theorem cancelsFor_eq_none_iff (interest : Interest) (cmdPrefix : Name) :
    cancelsFor platform interest cmdPrefix = none ↔
      ∀ parameter, extractParameter platform interest cmdPrefix ≠ .ok parameter := by
  unfold cancelsFor
  cases extractParameter platform interest cmdPrefix <;> simp

section Start

variable {interest : Interest} {cmdPrefix : Name} (outcomes : Outcomes) {repo : FastRepoImpl}

theorem onInterest_undecoded (asks : asksFor platform interest cmdPrefix = none) :
    onInterest platform outcomes interest cmdPrefix =
      negativeReply platform outcomes interest 403 := by
  unfold asksFor at asks
  unfold onInterest
  cases extracted : extractParameter platform interest cmdPrefix with
  | error exn => rfl
  | ok parameter =>
    simp only [extracted, Option.map_eq_none_iff] at asks
    simp only [asks]

/-- A pattern command that decodes looks its fetch prefix up first. -/
theorem onInterest_apply {fetchPrefix : Name} {kind : Option PatternKind}
    (asks : asksFor platform interest cmdPrefix = some (fetchPrefix, kind)) :
    onInterest platform outcomes interest cmdPrefix repo =
      (if repo.patterns.contains fetchPrefix then negativeReply platform outcomes interest 402
      else kind.elim (negativeReply platform outcomes interest 404) fun kind =>
        startPattern platform outcomes kind fetchPrefix >>= fun _ =>
          negativeReply platform outcomes interest 100 : Handler Unit) repo := by
  unfold asksFor at asks
  unfold onInterest
  cases extracted : extractParameter platform interest cmdPrefix with
  | error exn => simp [extracted] at asks
  | ok parameter =>
    simp only [extracted, Option.map_eq_some_iff, Prod.mk.injEq] at asks
    obtain ⟨names, decoded, rfl, rfl⟩ := asks
    simp only [decoded]
    rw [bind_apply, get_apply]
    cases PatternFactory.create platform names.1 <;> rfl

theorem onInterest_taken {fetchPrefix : Name} {kind : Option PatternKind} {instanceId : InstanceId}
    (asks : asksFor platform interest cmdPrefix = some (fetchPrefix, kind))
    (found : repo.patterns[fetchPrefix]? = some instanceId) :
    onInterest platform outcomes interest cmdPrefix repo =
      negativeReply platform outcomes interest 402 repo := by
  rw [onInterest_apply platform outcomes asks, if_pos]
  rw [Std.TreeMap.contains_eq_isSome_getElem?, found]
  rfl

theorem onInterest_unknown {fetchPrefix : Name}
    (asks : asksFor platform interest cmdPrefix = some (fetchPrefix, none))
    (absent : repo.patterns[fetchPrefix]? = none) :
    onInterest platform outcomes interest cmdPrefix repo =
      negativeReply platform outcomes interest 404 repo := by
  rw [onInterest_apply platform outcomes asks, if_neg (Lookup.not_contains absent)]
  rfl

theorem onInterest_known {fetchPrefix : Name} {kind : PatternKind}
    (asks : asksFor platform interest cmdPrefix = some (fetchPrefix, some kind))
    (absent : repo.patterns[fetchPrefix]? = none) :
    onInterest platform outcomes interest cmdPrefix repo =
      (startPattern platform outcomes kind fetchPrefix >>= fun _ =>
        negativeReply platform outcomes interest 100 : Handler Unit) repo := by
  rw [onInterest_apply platform outcomes asks, if_neg (Lookup.not_contains absent)]
  rfl

/-- A pattern command that does not ask for a new entry of a known kind replies at most. -/
theorem onInterest_refused
    (refused : ∀ fetchPrefix kind,
      asksFor platform interest cmdPrefix = some (fetchPrefix, some kind) →
        repo.patterns[fetchPrefix]? ≠ none) :
    SendsAtMost repo (final (onInterest platform outcomes interest cmdPrefix) repo) := by
  have negative : ∀ code, onInterest platform outcomes interest cmdPrefix repo =
      negativeReply platform outcomes interest code repo →
        SendsAtMost repo (final (onInterest platform outcomes interest cmdPrefix) repo) := by
    intro code same
    rw [final_congr same]
    exact sendsAtMost_negativeReply platform outcomes interest code repo
  cases asks : asksFor platform interest cmdPrefix with
  | none => exact negative 403 (by rw [onInterest_undecoded platform outcomes asks])
  | some asked =>
    obtain ⟨fetchPrefix, kind⟩ := asked
    cases found : repo.patterns[fetchPrefix]? with
    | some instanceId => exact negative 402 (onInterest_taken platform outcomes asks found)
    | none =>
      cases kind with
      | none => exact negative 404 (onInterest_unknown platform outcomes asks found)
      | some kind => exact absurd found (refused fetchPrefix kind asks)

/-- A pattern command that asks for a new entry of a known kind starts the pattern and may reply,
unless `fetch` throws. -/
theorem onInterest_starts {fetchPrefix : Name} {kind : PatternKind}
    (asks : asksFor platform interest cmdPrefix = some (fetchPrefix, some kind))
    (absent : repo.patterns[fetchPrefix]? = none)
    (returns : FetchPattern.FetchReturns platform outcomes kind fetchPrefix) :
    SendsAtMost (started platform outcomes repo kind fetchPrefix)
      (final (onInterest platform outcomes interest cmdPrefix) repo) := by
  have complete := final_startPattern platform repo returns
  have same : final (onInterest platform outcomes interest cmdPrefix) repo =
      final (startPattern platform outcomes kind fetchPrefix >>= fun _ =>
        negativeReply platform outcomes interest 100 : Handler Unit) repo :=
    final_congr (onInterest_known platform outcomes asks absent)
  rw [same, final_bind]
  cases run : startPattern platform outcomes kind fetchPrefix repo with
  | ok _ next =>
    rw [final_of_ok run] at complete
    subst complete
    exact sendsAtMost_negativeReply platform outcomes interest 100 _
  | error exn next =>
    rw [final_of_error run] at complete
    exact Or.inl complete

theorem onInterest_threw {fetchPrefix : Name} {kind : PatternKind}
    (asks : asksFor platform interest cmdPrefix = some (fetchPrefix, some kind))
    (absent : repo.patterns[fetchPrefix]? = none)
    (throws : ¬FetchPattern.FetchReturns platform outcomes kind fetchPrefix) :
    FetchPattern.FetchThrew (repo.addInstance kind)
      (final (onInterest platform outcomes interest cmdPrefix) repo) repo.instances.length := by
  obtain ⟨exn, next, threw, threwSo⟩ := startPattern_of_not_returns platform repo throws
  have apply := onInterest_known platform outcomes asks absent
  rw [bind_apply, threw] at apply
  rw [final_of_error apply]
  exact threwSo

end Start

section Cancel

variable {interest : Interest} {cmdPrefix : Name} (outcomes : Outcomes) {repo : FastRepoImpl}

theorem onCancelRequest_rejected (asks : cancelsFor platform interest cmdPrefix = none) :
    onCancelRequest platform outcomes interest cmdPrefix =
      negativeReply platform outcomes interest 403 := by
  unfold cancelsFor at asks
  unfold onCancelRequest
  cases extracted : extractParameter platform interest cmdPrefix with
  | error exn => rfl
  | ok parameter => simp [extracted] at asks

variable {fetchPrefix : Name} (asks : cancelsFor platform interest cmdPrefix = some fetchPrefix)
include asks

/-- A cancel command that decodes looks its fetch prefix up. -/
theorem onCancelRequest_apply : onCancelRequest platform outcomes interest cmdPrefix repo =
    (match repo.patterns[fetchPrefix]? with
      | none => negativeReply platform outcomes interest 402
      | some instanceId => cancelPattern outcomes fetchPrefix instanceId >>= fun _ =>
          negativeReply platform outcomes interest 101 : Handler Unit) repo := by
  unfold cancelsFor at asks
  unfold onCancelRequest
  cases extracted : extractParameter platform interest cmdPrefix with
  | error exn => simp [extracted] at asks
  | ok parameter =>
    simp only [extracted, Option.some.injEq] at asks
    subst asks
    rfl

theorem onCancelRequest_absent (absent : repo.patterns[fetchPrefix]? = none) :
    onCancelRequest platform outcomes interest cmdPrefix repo =
      negativeReply platform outcomes interest 402 repo := by
  rw [onCancelRequest_apply platform outcomes asks, absent]

theorem onCancelRequest_found {instanceId : InstanceId}
    (found : repo.patterns[fetchPrefix]? = some instanceId) :
    onCancelRequest platform outcomes interest cmdPrefix repo =
      (cancelPattern outcomes fetchPrefix instanceId >>= fun _ =>
        negativeReply platform outcomes interest 101 : Handler Unit) repo := by
  rw [onCancelRequest_apply platform outcomes asks, found]

end Cancel

end PatternHandle

end FastRepo
