/-
What an event can do to the patterns.

The entries stay and nothing new is pending, or a pattern is started under a fetch prefix without
entry (`PatternGrowth`), or the pattern of an entry is ended (`PatternEnd`). `growth_of_no_target`,
`sendsAtMost_of_target_absent` and `after_of_target_found` say which events do which, whatever the
libraries do. `WellKept` is the invariant that follows: entries have objects of their own, and only
counter patterns have anything pending.
-/

import FastRepo.Lib.Lookup
import FastRepo.Repo.Frames

namespace FastRepo

open Exits FastRepoImpl PatternHandle

namespace PatternState

/-! ### The pattern side of the state -/

/-- The kind of a pattern object. -/
def kindOf (repo : FastRepoImpl) (instanceId : InstanceId) : Option PatternKind :=
  repo.instances[instanceId]?.map FetchPattern.kind

/-- A timer or an Interest of the pattern object is pending. -/
def Pending (repo : FastRepoImpl) (instanceId : InstanceId) : Prop :=
  (∃ timer ∈ repo.face.timers, timer.pattern = instanceId) ∨
    ∃ interest ∈ repo.face.patternInterests, interest.pattern = instanceId

instance (repo : FastRepoImpl) (instanceId : InstanceId) : Decidable (Pending repo instanceId) :=
  inferInstanceAs (Decidable (_ ∨ _))

/-- The kinds of the objects of the first repo are the same in the second. -/
def KindsKept (repo next : FastRepoImpl) : Prop :=
  ∀ instanceId kind, kindOf repo instanceId = some kind → kindOf next instanceId = some kind

/-- The entries stay, and nothing new is pending. -/
structure PatternsKept (repo next : FastRepoImpl) : Prop where
  patterns : next.patterns = repo.patterns
  kinds : KindsKept repo next
  pending : ∀ instanceId, Pending next instanceId → Pending repo instanceId

/-- A pattern of the kind is started under a fetch prefix without entry. -/
structure PatternStarted (repo next : FastRepoImpl) (kind : PatternKind) (fetchPrefix : Name) :
    Prop where
  absent : repo.patterns[fetchPrefix]? = none
  patterns : next.patterns = repo.patterns.insert fetchPrefix repo.instances.length
  kinds : KindsKept repo next
  new : kindOf next repo.instances.length = some kind
  pending : ∀ instanceId, Pending next instanceId →
    Pending repo instanceId ∨ kind = .counter ∧ instanceId = repo.instances.length

/-- The entries stay, and a pattern may be started. -/
inductive PatternGrowth (repo next : FastRepoImpl) : Prop
  | kept (kept : PatternsKept repo next)
  | started (kind : PatternKind) (fetchPrefix : Name)
      (started : PatternStarted repo next kind fetchPrefix)

/-- The pattern of an entry is ended: the entry goes, and what is pending stays pending. -/
structure PatternEnd (repo next : FastRepoImpl) (fetchPrefix : Name) (instanceId : InstanceId) :
    Prop where
  found : repo.patterns[fetchPrefix]? = some instanceId
  patterns : next.patterns = repo.patterns.erase fetchPrefix
  kinds : KindsKept repo next
  pending : ∀ other, Pending next other ↔ Pending repo other

/-! ### Elementary changes -/

section Elementary

theorem KindsKept.refl (repo : FastRepoImpl) : KindsKept repo repo := fun _ _ same => same

theorem KindsKept.trans {first second third : FastRepoImpl} (left : KindsKept first second)
    (right : KindsKept second third) : KindsKept first third :=
  fun instanceId kind same => right instanceId kind (left instanceId kind same)

theorem kindsKept_setInstance (repo : FastRepoImpl) {instanceId : InstanceId}
    {old new : FetchPattern} (found : repo.instances[instanceId]? = some old)
    (kind : new.kind = old.kind) : KindsKept repo (repo.setInstance instanceId new) := by
  intro other known same
  unfold kindOf at same ⊢
  show (repo.instances.set instanceId new)[other]?.map FetchPattern.kind = some known
  rw [List.getElem?_set]
  split
  · rename_i equal
    subst equal
    rw [found] at same
    obtain ⟨bound, _⟩ := List.getElem?_eq_some_iff.mp found
    rw [if_pos bound, Option.map_some, kind]
    exact same
  · exact same

/-- Changing an object that has just been made leaves the others as they are. -/
theorem getElem?_new (repo : FastRepoImpl) (kind : PatternKind) (pattern : FetchPattern)
    {instanceId : InstanceId} (bound : instanceId < repo.instances.length) :
    ((repo.addInstance kind).setInstance repo.instances.length pattern).instances[instanceId]? =
      repo.instances[instanceId]? := by
  show ((repo.instances ++ [FetchPattern.ofKind kind]).set repo.instances.length
    pattern)[instanceId]? = _
  rw [List.getElem?_set_ne (Nat.ne_of_gt bound), List.getElem?_append_left bound]

theorem kindsKept_new (repo : FastRepoImpl) (kind : PatternKind) (pattern : FetchPattern) :
    KindsKept repo ((repo.addInstance kind).setInstance repo.instances.length pattern) := by
  intro instanceId known same
  obtain ⟨old, found, _⟩ := Option.map_eq_some_iff.mp same
  obtain ⟨bound, _⟩ := List.getElem?_eq_some_iff.mp found
  rw [kindOf, getElem?_new repo kind pattern bound]
  exact same

end Elementary

/-! ### The events -/

section Events

variable (platform : Platform)

/-- The part of the state the patterns live in. -/
def patternSide (repo : FastRepoImpl) :
    Std.TreeMap Name InstanceId × List FetchPattern × List Timer × List PatternInterest :=
  (repo.patterns, repo.instances, repo.face.timers, repo.face.patternInterests)

theorem patternSide_announced (repo : FastRepoImpl) (outcomes : Outcomes) (name : Name) :
    patternSide (repo.announced outcomes name) = patternSide repo :=
  part_announced patternSide (fun _ _ _ _ => rfl) repo outcomes name

theorem ignoresInserts_patternSide : IgnoresInserts platform patternSide where
  send _ _ := rfl
  announced := patternSide_announced
  written _ _ _ _ := rfl
  updateResponse _ _ _ := rfl
  eraseProcess _ _ := rfl
  addInsertInterest _ _ := rfl

/-- States with an equal pattern side have the same entries, kinds and pending callbacks. -/
theorem views_of_same {repo next : FastRepoImpl} (same : patternSide next = patternSide repo) :
    next.patterns = repo.patterns ∧
      (∀ instanceId, kindOf next instanceId = kindOf repo instanceId) ∧
      ∀ instanceId, Pending next instanceId ↔ Pending repo instanceId := by
  simp only [patternSide, Prod.mk.injEq] at same
  obtain ⟨patterns, instances, timers, interests⟩ := same
  refine ⟨patterns, fun instanceId => ?_, fun instanceId => ?_⟩
  · unfold kindOf
    rw [instances]
  · unfold Pending
    rw [timers, interests]

/-- An equal pattern side is no change. -/
theorem kept_of_same {repo next : FastRepoImpl} (same : patternSide next = patternSide repo) :
    PatternsKept repo next := by
  obtain ⟨patterns, kinds, pending⟩ := views_of_same same
  exact ⟨patterns, fun instanceId kind known => (kinds instanceId).trans known,
    fun instanceId => (pending instanceId).mp⟩

theorem patternSide_of_sendsAtMost {repo next : FastRepoImpl} (sends : SendsAtMost repo next) :
    patternSide next = patternSide repo := by
  rcases sends with rfl | ⟨packet, rfl⟩ <;> rfl

/-- A start is the same for a state with an equal pattern side. -/
theorem PatternStarted.congr {repo next other : FastRepoImpl} {kind : PatternKind}
    {fetchPrefix : Name} (started : PatternStarted repo next kind fetchPrefix)
    (same : patternSide other = patternSide next) :
    PatternStarted repo other kind fetchPrefix := by
  obtain ⟨patterns, kinds, pendingSame⟩ := views_of_same same
  exact ⟨started.absent, patterns.trans started.patterns,
    fun instanceId kind known => (kinds instanceId).trans (started.kinds instanceId kind known),
    (kinds _).trans started.new,
    fun instanceId here => started.pending instanceId ((pendingSame instanceId).mp here)⟩

/-- An end is the same for a state with an equal pattern side. -/
theorem PatternEnd.congr {repo next other : FastRepoImpl} {fetchPrefix : Name}
    {instanceId : InstanceId} (ended : PatternEnd repo next fetchPrefix instanceId)
    (same : patternSide other = patternSide next) :
    PatternEnd repo other fetchPrefix instanceId := by
  obtain ⟨patterns, kinds, pendingSame⟩ := views_of_same same
  exact ⟨ended.found, patterns.trans ended.patterns,
    fun instanceId kind known => (kinds instanceId).trans (ended.kinds instanceId kind known),
    fun other => (pendingSame other).trans (ended.pending other)⟩

/-- The pattern side after a pattern was started. -/
theorem patternSide_patternStarted (outcomes : Outcomes) (repo : FastRepoImpl) (kind : PatternKind)
    (fetchPrefix : Name) :
    patternSide (PatternHandle.started platform outcomes repo kind fetchPrefix) =
      (repo.patterns.insert fetchPrefix repo.instances.length,
        repo.instances ++ [FetchPattern.fetching platform kind fetchPrefix],
        repo.face.timers ++ FetchPattern.firstTimers kind repo.instances.length,
        repo.face.patternInterests) := by
  have entered : patternSide ((FetchPattern.fetched platform (repo.addInstance kind) kind
      repo.instances.length fetchPrefix).addPattern fetchPrefix repo.instances.length) =
      (repo.patterns.insert fetchPrefix repo.instances.length,
        repo.instances ++ [FetchPattern.fetching platform kind fetchPrefix],
        repo.face.timers ++ FetchPattern.firstTimers kind repo.instances.length,
        repo.face.patternInterests) := by
    have set : (repo.instances ++ [FetchPattern.ofKind kind]).set repo.instances.length
        (FetchPattern.fetching platform kind fetchPrefix) =
        repo.instances ++ [FetchPattern.fetching platform kind fetchPrefix] := by
      simp
    exact Prod.ext rfl (Prod.ext set rfl)
  unfold PatternHandle.started
  split
  · exact entered
  · exact (patternSide_announced _ _ _).trans entered

/-- The pattern side after the pattern of an entry was ended. -/
theorem patternSide_ended {repo : FastRepoImpl} (fetchPrefix : Name) {instanceId : InstanceId}
    {pattern : FetchPattern} (object : repo.instances[instanceId]? = some pattern) :
    patternSide (PatternHandle.ended repo fetchPrefix instanceId) =
      (repo.patterns.erase fetchPrefix, repo.instances.set instanceId pattern.cancelled,
        repo.face.timers, repo.face.patternInterests) := by
  unfold PatternHandle.ended FetchPattern.cancelledAt
  rw [object]
  rfl

/-- Starting a pattern sends nothing. -/
theorem sent_started (outcomes : Outcomes) (repo : FastRepoImpl) (kind : PatternKind)
    (fetchPrefix : Name) :
    (PatternHandle.started platform outcomes repo kind fetchPrefix).face.sent = repo.face.sent := by
  unfold PatternHandle.started
  split
  · rfl
  · exact part_announced (fun repo => repo.face.sent) (fun _ _ _ _ => rfl) _ _ _

theorem patternStarted_started (outcomes : Outcomes) (repo : FastRepoImpl) (kind : PatternKind)
    {fetchPrefix : Name} (absent : repo.patterns[fetchPrefix]? = none) :
    PatternStarted repo (PatternHandle.started platform outcomes repo kind fetchPrefix) kind
      fetchPrefix := by
  have side := patternSide_patternStarted platform outcomes repo kind fetchPrefix
  simp only [patternSide, Prod.mk.injEq] at side
  obtain ⟨patterns, instances, timers, interests⟩ := side
  refine ⟨absent, patterns, fun instanceId known same => ?_, ?_, ?_⟩
  · obtain ⟨old, found, _⟩ := Option.map_eq_some_iff.mp same
    obtain ⟨bound, _⟩ := List.getElem?_eq_some_iff.mp found
    rw [kindOf, instances, List.getElem?_append_left bound]
    exact same
  · rw [kindOf, instances, List.getElem?_concat_length, Option.map_some,
      FetchPattern.kind_fetching]
  · unfold Pending
    rw [timers, interests]
    rintro instanceId (⟨timer, member, same⟩ | interest)
    · rcases List.mem_append.mp member with old | new
      · exact Or.inl (Or.inl ⟨timer, old, same⟩)
      · cases kind with
        | counter =>
          rw [List.mem_singleton.mp new] at same
          exact Or.inr ⟨rfl, same.symm⟩
        | ndnrtc => cases new
        | gobj => cases new
    · exact Or.inl (Or.inr interest)

/-- The pattern command keeps the entries or starts a pattern. -/
theorem growth_patternCommand (outcomes : Outcomes) (interest : Interest) (cmdPrefix : Name)
    (repo : FastRepoImpl) :
    PatternGrowth repo (final (PatternHandle.onInterest platform outcomes interest cmdPrefix) repo) := by
  by_cases accepted : ∃ fetchPrefix kind,
      asksFor platform interest cmdPrefix = some (fetchPrefix, some kind) ∧
        repo.patterns[fetchPrefix]? = none
  · obtain ⟨fetchPrefix, kind, asks, absent⟩ := accepted
    by_cases returns : FetchPattern.FetchReturns platform outcomes kind fetchPrefix
    · exact .started kind fetchPrefix
        ((patternStarted_started platform outcomes repo kind absent).congr
        (patternSide_of_sendsAtMost (onInterest_starts platform outcomes asks absent returns)))
    · obtain ⟨pattern, threw⟩ := onInterest_threw platform outcomes asks absent returns
      rw [threw]
      exact .kept ⟨rfl, kindsKept_new repo kind pattern, fun _ pending => pending⟩
  · refine .kept (kept_of_same (patternSide_of_sendsAtMost
      (onInterest_refused platform outcomes fun fetchPrefix kind asks absent => ?_)))
    exact accepted ⟨fetchPrefix, kind, asks, absent⟩

/-- A timer that fires may put an Interest in its place. -/
theorem kept_timer (outcomes : Outcomes) {repo : FastRepoImpl} {timer : Timer}
    (pending : timer ∈ repo.face.timers) :
    PatternsKept repo (final (CounterPattern.doFetch outcomes timer.pattern)
      (repo.taken (.timer timer))) := by
  have taken : ∀ instanceId, Pending (repo.taken (.timer timer)) instanceId →
      Pending repo instanceId := by
    rintro instanceId (⟨other, member, same⟩ | interest)
    · exact Or.inl ⟨other, List.mem_of_mem_erase member, same⟩
    · exact Or.inr interest
  rcases CounterPattern.doFetch_cases outcomes timer.pattern (repo.taken (.timer timer)) with
    nothing | ⟨pattern, _, expressed⟩
  · rw [nothing]
    exact ⟨rfl, KindsKept.refl repo, taken⟩
  · rw [expressed]
    refine ⟨rfl, KindsKept.refl repo, ?_⟩
    rintro instanceId (timerPending | ⟨interest, member, same⟩)
    · exact taken instanceId (Or.inl timerPending)
    · rcases List.mem_append.mp member with old | new
      · exact taken instanceId (Or.inr ⟨interest, old, same⟩)
      · rw [List.mem_singleton.mp new] at same
        exact Or.inl ⟨timer, pending, same⟩

/-- Data for a counter pattern may put a timer in the place of the Interest it answers. -/
theorem kept_counterData (outcomes : Outcomes) {repo : FastRepoImpl} {interest : PatternInterest}
    (pending : interest ∈ repo.face.patternInterests) (data : Data) :
    PatternsKept repo (final (CounterPattern.onData platform outcomes interest.pattern data)
      (repo.taken (.counterData interest data))) := by
  have taken : ∀ instanceId, Pending (repo.taken (.counterData interest data)) instanceId →
      Pending repo instanceId := by
    rintro instanceId (timer | ⟨other, member, same⟩)
    · exact Or.inl timer
    · exact Or.inr ⟨other, List.mem_of_mem_erase member, same⟩
  rcases CounterPattern.onData_cases platform outcomes interest.pattern data
    (repo.taken (.counterData interest data)) with
    nothing | ⟨pattern, after, found, _, counted | scheduled⟩
  · rw [nothing]
    exact ⟨rfl, KindsKept.refl repo, taken⟩
  · rw [counted]
    exact ⟨rfl, kindsKept_setInstance repo found rfl, taken⟩
  · rw [scheduled]
    refine ⟨rfl, kindsKept_setInstance repo found rfl, ?_⟩
    rintro instanceId (⟨timer, member, same⟩ | other)
    · rcases List.mem_append.mp member with old | new
      · exact Or.inl ⟨timer, old, same⟩
      · rw [List.mem_singleton.mp new] at same
        exact Or.inr ⟨interest, pending, same⟩
    · exact taken instanceId (Or.inr other)

/-! ### Which events do what -/

/-- The fetch prefix whose entry an event asks to end. -/
def cancelTarget (event : Event) : Option Name :=
  match event with
  | .cancelCommand cmdPrefix interest => cancelsFor platform interest cmdPrefix
  | .removePattern fetchPrefix => some fetchPrefix
  | _ => none

/-- The event may change the entries: a command of the pattern handle, or a call of
`removePattern`. -/
def isPattern : Event → Bool
  | .patternCommand _ _ | .cancelCommand _ _ | .removePattern _ => true
  | _ => false

/-- Every other event keeps the entries. -/
theorem kept_of_not_pattern {repo : FastRepoImpl} {occurrence : Occurrence}
    (enabled : repo.Enabled occurrence.event) (other : isPattern occurrence.event = false) :
    PatternsKept repo (repo.after platform occurrence) := by
  cases insert : occurrence.event.isInsert with
  | true => exact kept_of_same (after_of_insert (ignoresInserts_patternSide platform) repo insert)
  | false =>
    obtain ⟨event, outcomes⟩ := occurrence
    cases event with
    | timer timer => exact kept_timer outcomes enabled
    | counterData interest data => exact kept_counterData platform outcomes enabled.1 data
    | counterTimeout interest =>
      refine ⟨rfl, KindsKept.refl repo, ?_⟩
      rintro instanceId (timer | ⟨other, member, same⟩)
      · exact Or.inl timer
      · exact Or.inr ⟨other, List.mem_of_mem_erase member, same⟩
    | recorderData instanceId data =>
      exact kept_of_same (frames_storeFun (fun _ _ _ => rfl) outcomes data repo)
    | readInterest interest =>
      exact kept_of_same (frames_answer (fun _ _ => rfl) outcomes interest repo)
    | patternCommand cmdPrefix interest => cases other
    | cancelCommand cmdPrefix interest => cases other
    | removePattern fetchPrefix => cases other
    | _ => cases insert

/-- An event that does not ask to end an entry keeps the entries or starts a pattern. -/
theorem growth_of_no_target {repo : FastRepoImpl} {occurrence : Occurrence}
    (enabled : repo.Enabled occurrence.event)
    (noTarget : cancelTarget platform occurrence.event = none) :
    PatternGrowth repo (repo.after platform occurrence) := by
  cases pattern : isPattern occurrence.event with
  | false => exact .kept (kept_of_not_pattern platform enabled pattern)
  | true =>
    obtain ⟨event, outcomes⟩ := occurrence
    cases event with
    | patternCommand cmdPrefix interest =>
      exact growth_patternCommand platform outcomes interest cmdPrefix repo
    | cancelCommand cmdPrefix interest =>
      show PatternGrowth repo (final (onCancelRequest platform outcomes interest cmdPrefix) repo)
      rw [onCancelRequest_rejected platform outcomes noTarget]
      exact .kept (kept_of_same (patternSide_of_sendsAtMost
        (sendsAtMost_negativeReply platform outcomes interest 403 repo)))
    | removePattern fetchPrefix => cases noTarget
    | _ => cases pattern

/-- An event that asks to end a fetch prefix without entry replies at most. -/
theorem sendsAtMost_of_target_absent {repo : FastRepoImpl} {occurrence : Occurrence} {fetchPrefix : Name}
    (target : cancelTarget platform occurrence.event = some fetchPrefix)
    (absent : repo.patterns[fetchPrefix]? = none) :
    SendsAtMost repo (repo.after platform occurrence) := by
  obtain ⟨event, outcomes⟩ := occurrence
  cases event with
  | cancelCommand cmdPrefix interest =>
    have same : repo.after platform ⟨.cancelCommand cmdPrefix interest, outcomes⟩ =
        final (BaseHandle.negativeReply platform outcomes interest 402) repo :=
      final_congr (onCancelRequest_absent platform outcomes target absent)
    rw [same]
    exact sendsAtMost_negativeReply platform outcomes interest 402 repo
  | removePattern other =>
    cases target
    exact Or.inl (final_of_ok (removePattern_absent outcomes absent))
  | _ => cases target

theorem patternEnd_ended {repo : FastRepoImpl} {fetchPrefix : Name} {instanceId : InstanceId}
    (found : repo.patterns[fetchPrefix]? = some instanceId) :
    PatternEnd repo (PatternHandle.ended repo fetchPrefix instanceId) fetchPrefix instanceId := by
  unfold PatternHandle.ended FetchPattern.cancelledAt
  cases object : repo.instances[instanceId]? with
  | none => exact ⟨found, rfl, KindsKept.refl repo, fun _ => Iff.rfl⟩
  | some pattern =>
    exact ⟨found, rfl,
      kindsKept_setInstance repo object (FetchPattern.kind_cancelled pattern),
      fun _ => Iff.rfl⟩

/-- An event that asks to end an entry ends its pattern and may reply, unless the stop of a recorder
throws. -/
theorem after_of_target {repo : FastRepoImpl} {occurrence : Occurrence} {fetchPrefix : Name}
    {instanceId : InstanceId}
    (target : cancelTarget platform occurrence.event = some fetchPrefix)
    (found : repo.patterns[fetchPrefix]? = some instanceId) :
    SendsAtMost (PatternHandle.ended repo fetchPrefix instanceId) (repo.after platform occurrence) ∨
      repo.after platform occurrence = repo ∧ kindOf repo instanceId = some .ndnrtc := by
  have kind : ∀ stream, repo.instances[instanceId]? = some (.ndnrtc (some stream)) →
      kindOf repo instanceId = some .ndnrtc := by
    intro stream object
    unfold kindOf
    rw [object]
    rfl
  obtain ⟨event, outcomes⟩ := occurrence
  cases event with
  | cancelCommand cmdPrefix interest =>
    have same : repo.after platform ⟨.cancelCommand cmdPrefix interest, outcomes⟩ =
        final (cancelPattern outcomes fetchPrefix instanceId >>= fun _ =>
          BaseHandle.negativeReply platform outcomes interest 101 : Handler Unit) repo :=
      final_congr (onCancelRequest_found platform outcomes target found)
    rw [same, final_bind]
    rcases cancelPattern_cases outcomes repo fetchPrefix instanceId with
      returned | ⟨exn, stream, threw, recorder⟩
    · rw [returned]
      exact Or.inl (sendsAtMost_negativeReply platform outcomes interest 101 _)
    · rw [threw]
      exact Or.inr ⟨rfl, kind stream recorder⟩
  | removePattern other =>
    cases target
    show SendsAtMost _ (final (removePattern outcomes fetchPrefix) repo) ∨
      final (removePattern outcomes fetchPrefix) repo = repo ∧ _
    rw [final_congr (removePattern_found outcomes found)]
    rcases cancelPattern_cases outcomes repo fetchPrefix instanceId with
      returned | ⟨exn, stream, threw, recorder⟩
    · rw [final_of_ok returned]
      exact Or.inl (Or.inl rfl)
    · exact Or.inr ⟨final_of_error threw, kind stream recorder⟩
  | _ => cases target

theorem after_of_target_found {repo : FastRepoImpl} {occurrence : Occurrence} {fetchPrefix : Name}
    {instanceId : InstanceId}
    (target : cancelTarget platform occurrence.event = some fetchPrefix)
    (found : repo.patterns[fetchPrefix]? = some instanceId) :
    PatternEnd repo (repo.after platform occurrence) fetchPrefix instanceId ∨
      repo.after platform occurrence = repo ∧ kindOf repo instanceId = some .ndnrtc :=
  (after_of_target platform target found).imp_left fun sends =>
    (patternEnd_ended found).congr (patternSide_of_sendsAtMost sends)

/-- Every event: **it keeps the entries and may start a pattern, or it ends the pattern of an
entry**. -/
theorem change_after {repo : FastRepoImpl} {occurrence : Occurrence}
    (enabled : repo.Enabled occurrence.event) :
    PatternGrowth repo (repo.after platform occurrence) ∨
      ∃ fetchPrefix instanceId,
        PatternEnd repo (repo.after platform occurrence) fetchPrefix instanceId := by
  cases target : cancelTarget platform occurrence.event with
  | none => exact Or.inl (growth_of_no_target platform enabled target)
  | some fetchPrefix =>
    cases found : repo.patterns[fetchPrefix]? with
    | none => exact Or.inl (.kept (kept_of_same (patternSide_of_sendsAtMost
        (sendsAtMost_of_target_absent platform target found))))
    | some instanceId =>
      rcases after_of_target_found platform target found with ended | ⟨same, _⟩
      · exact Or.inr ⟨fetchPrefix, instanceId, ended⟩
      · exact Or.inl (.kept (kept_of_same (congrArg patternSide same)))

/-! ### Every event, exactly -/

/-- The event is a pattern command that asks for a new entry of a known kind. -/
def Accepts (repo : FastRepoImpl) (event : Event) (fetchPrefix : Name) (kind : PatternKind) : Prop :=
  ∃ cmdPrefix interest, event = .patternCommand cmdPrefix interest ∧
    asksFor platform interest cmdPrefix = some (fetchPrefix, some kind) ∧
    repo.patterns[fetchPrefix]? = none

variable {platform} in
theorem Accepts.unique {repo : FastRepoImpl} {event : Event} {first second : Name}
    {one two : PatternKind} (left : Accepts platform repo event first one)
    (right : Accepts platform repo event second two) : first = second ∧ one = two := by
  obtain ⟨_, _, rfl, asks, _⟩ := left
  obtain ⟨_, _, same, asks', _⟩ := right
  cases same
  rw [asks] at asks'
  cases asks'
  exact ⟨rfl, rfl⟩

/-- The pattern object whose timer or Interest the face hands out. -/
def takenFrom : Event → Option InstanceId
  | .timer timer => some timer.pattern
  | .counterData interest _ | .counterTimeout interest => some interest.pattern
  | _ => none

theorem not_accepts_of_ne {repo : FastRepoImpl} {event : Event}
    (other : ∀ cmdPrefix interest, event ≠ .patternCommand cmdPrefix interest)
    (fetchPrefix : Name) (kind : PatternKind) : ¬Accepts platform repo event fetchPrefix kind := by
  rintro ⟨cmdPrefix, interest, same, _⟩
  exact other cmdPrefix interest same

/-- What an event does to the patterns: nothing, or it starts a pattern, or it tries to and throws,
or it runs a callback of a pattern object, or it ends the pattern of an entry. -/
inductive Change (repo : FastRepoImpl) (occurrence : Occurrence) (next : FastRepoImpl) : Prop
  | idle (same : patternSide next = patternSide repo) (noCallback : takenFrom occurrence.event = none)
      (refused : ∀ fetchPrefix kind, ¬Accepts platform repo occurrence.event fetchPrefix kind)
  | started (fetchPrefix : Name) (kind : PatternKind)
      (accepts : Accepts platform repo occurrence.event fetchPrefix kind)
      (same : patternSide next =
        patternSide (PatternHandle.started platform occurrence.outcomes repo kind fetchPrefix))
  | abandoned (fetchPrefix : Name) (kind : PatternKind) (pattern : FetchPattern)
      (accepts : Accepts platform repo occurrence.event fetchPrefix kind)
      (threw : ¬FetchPattern.FetchReturns platform occurrence.outcomes kind fetchPrefix)
      (same : next = (repo.addInstance kind).setInstance repo.instances.length pattern)
  | called (owner : InstanceId) (takes : takenFrom occurrence.event = some owner)
  | ended (fetchPrefix : Name) (instanceId : InstanceId)
      (target : cancelTarget platform occurrence.event = some fetchPrefix)
      (found : repo.patterns[fetchPrefix]? = some instanceId)
      (same : patternSide next = patternSide (PatternHandle.ended repo fetchPrefix instanceId))

theorem change_patternCommand (outcomes : Outcomes) (interest : Interest) (cmdPrefix : Name)
    (repo : FastRepoImpl) :
    Change platform repo ⟨.patternCommand cmdPrefix interest, outcomes⟩
      (final (PatternHandle.onInterest platform outcomes interest cmdPrefix) repo) := by
  by_cases accepted : ∃ fetchPrefix kind,
      Accepts platform repo (.patternCommand cmdPrefix interest) fetchPrefix kind
  · obtain ⟨fetchPrefix, kind, accepts⟩ := accepted
    obtain ⟨_, _, same, asks, absent⟩ := id accepts
    cases same
    by_cases returns : FetchPattern.FetchReturns platform outcomes kind fetchPrefix
    · exact .started fetchPrefix kind accepts (patternSide_of_sendsAtMost
        (onInterest_starts platform outcomes asks absent returns))
    · obtain ⟨pattern, threw⟩ := onInterest_threw platform outcomes asks absent returns
      exact .abandoned fetchPrefix kind pattern accepts returns threw
  · refine .idle (patternSide_of_sendsAtMost (onInterest_refused platform outcomes
      fun fetchPrefix kind asks absent => ?_)) rfl fun fetchPrefix kind accepts => ?_
    · exact accepted ⟨fetchPrefix, kind, cmdPrefix, interest, rfl, asks, absent⟩
    · exact accepted ⟨fetchPrefix, kind, accepts⟩

/-- An event that asks to end an entry ends its pattern, or changes nothing. -/
theorem change_of_target {repo : FastRepoImpl} {occurrence : Occurrence} {fetchPrefix : Name}
    (target : cancelTarget platform occurrence.event = some fetchPrefix) :
    Change platform repo occurrence (repo.after platform occurrence) := by
  have idle : patternSide (repo.after platform occurrence) = patternSide repo →
      Change platform repo occurrence (repo.after platform occurrence) := by
    intro same
    revert target same
    obtain ⟨event, outcomes⟩ := occurrence
    cases event with
    | cancelCommand cmdPrefix interest =>
      exact fun _ same => .idle same rfl (not_accepts_of_ne platform fun _ _ => Event.noConfusion)
    | removePattern other =>
      exact fun _ same => .idle same rfl (not_accepts_of_ne platform fun _ _ => Event.noConfusion)
    | _ => exact fun target => by cases target
  cases found : repo.patterns[fetchPrefix]? with
  | none =>
    exact idle (patternSide_of_sendsAtMost (sendsAtMost_of_target_absent platform target found))
  | some instanceId =>
    rcases after_of_target platform target found with sends | ⟨same, _⟩
    · exact .ended fetchPrefix instanceId target found (patternSide_of_sendsAtMost sends)
    · exact idle (congrArg patternSide same)

/-- The events: **each one changes the patterns in one of these ways**. -/
theorem change_of_event (repo : FastRepoImpl) (occurrence : Occurrence) :
    Change platform repo occurrence (repo.after platform occurrence) := by
  have insert : occurrence.event.isInsert = true →
      patternSide (repo.after platform occurrence) = patternSide repo :=
    after_of_insert (ignoresInserts_patternSide platform) repo
  obtain ⟨event, outcomes⟩ := occurrence
  cases event with
  | patternCommand cmdPrefix interest =>
    exact change_patternCommand platform outcomes interest cmdPrefix repo
  | cancelCommand cmdPrefix interest =>
    cases target : cancelTarget platform (.cancelCommand cmdPrefix interest) with
    | some fetchPrefix => exact change_of_target platform target
    | none =>
      refine .idle ?_ rfl (not_accepts_of_ne platform fun _ _ => Event.noConfusion)
      show patternSide (final (onCancelRequest platform outcomes interest cmdPrefix) repo) = _
      rw [onCancelRequest_rejected platform outcomes target]
      exact patternSide_of_sendsAtMost
        (sendsAtMost_negativeReply platform outcomes interest 403 repo)
  | removePattern fetchPrefix => exact change_of_target platform rfl
  | timer timer => exact .called timer.pattern rfl
  | counterData interest data => exact .called interest.pattern rfl
  | counterTimeout interest => exact .called interest.pattern rfl
  | recorderData instanceId data =>
    exact .idle (frames_storeFun (fun _ _ _ => rfl) outcomes data repo) rfl
      (not_accepts_of_ne platform fun _ _ => Event.noConfusion)
  | readInterest interest =>
    exact .idle (frames_answer (fun _ _ => rfl) outcomes interest repo) rfl
      (not_accepts_of_ne platform fun _ _ => Event.noConfusion)
  | _ => exact .idle (insert rfl) rfl (not_accepts_of_ne platform fun _ _ => Event.noConfusion)

end Events

/-! ### The invariant -/

/-- Entries have objects of their own, and only counter patterns have anything pending. -/
structure WellKept (repo : FastRepoImpl) : Prop where
  object : ∀ (fetchPrefix : Name) (instanceId : InstanceId),
    repo.patterns[fetchPrefix]? = some instanceId → ∃ kind, kindOf repo instanceId = some kind
  own : ∀ (first second : Name) (instanceId : InstanceId),
    repo.patterns[first]? = some instanceId → repo.patterns[second]? = some instanceId →
      first = second
  counters : ∀ instanceId, Pending repo instanceId → kindOf repo instanceId = some .counter

/-- An object that exists is not the next one to be made. -/
theorem ne_length_of_kindOf {repo : FastRepoImpl} {instanceId : InstanceId} {kind : PatternKind}
    (known : kindOf repo instanceId = some kind) : instanceId ≠ repo.instances.length := by
  obtain ⟨pattern, found, _⟩ := Option.map_eq_some_iff.mp known
  obtain ⟨bound, _⟩ := List.getElem?_eq_some_iff.mp found
  exact Nat.ne_of_lt bound

theorem wellKept_of_kept {repo next : FastRepoImpl} (kept : WellKept repo)
    (unchanged : PatternsKept repo next) : WellKept next := by
  obtain ⟨patterns, kinds, pending⟩ := unchanged
  refine ⟨fun fetchPrefix instanceId found => ?_, fun first second instanceId => ?_,
    fun instanceId here => kinds _ _ (kept.counters instanceId (pending instanceId here))⟩
  · rw [patterns] at found
    obtain ⟨kind, known⟩ := kept.object fetchPrefix instanceId found
    exact ⟨kind, kinds _ _ known⟩
  · rw [patterns]
    exact kept.own first second instanceId

theorem wellKept_of_started {repo next : FastRepoImpl} {kind : PatternKind} {fetchPrefix : Name}
    (kept : WellKept repo) (started : PatternStarted repo next kind fetchPrefix) :
    WellKept next := by
  obtain ⟨_, patterns, kinds, new, pending⟩ := started
  refine ⟨fun other instanceId found => ?_, fun first second instanceId one two => ?_,
    fun instanceId here => ?_⟩
  · rw [patterns, Lookup.getElem?_insert] at found
    split at found
    · cases found
      exact ⟨kind, new⟩
    · obtain ⟨known, same⟩ := kept.object other instanceId found
      exact ⟨known, kinds _ _ same⟩
  · rw [patterns, Lookup.getElem?_insert] at one two
    split at one
    · split at two
      · rename_i left right
        exact left.trans right.symm
      · cases one
        obtain ⟨known, same⟩ := kept.object second _ two
        exact absurd rfl (ne_length_of_kindOf same)
    · split at two
      · cases two
        obtain ⟨known, same⟩ := kept.object first _ one
        exact absurd rfl (ne_length_of_kindOf same)
      · exact kept.own first second instanceId one two
  · rcases pending instanceId here with before | ⟨rfl, rfl⟩
    · exact kinds _ _ (kept.counters instanceId before)
    · exact new

theorem wellKept_of_end {repo next : FastRepoImpl} {fetchPrefix : Name} {instanceId : InstanceId}
    (kept : WellKept repo) (ended : PatternEnd repo next fetchPrefix instanceId) :
    WellKept next := by
  obtain ⟨_, patterns, kinds, pending⟩ := ended
  refine ⟨fun other otherId held => ?_, fun first second otherId one two => ?_,
    fun other here => kinds _ _ (kept.counters other ((pending other).mp here))⟩
  · rw [patterns, Lookup.getElem?_erase] at held
    split at held
    · cases held
    · obtain ⟨known, same⟩ := kept.object other otherId held
      exact ⟨known, kinds _ _ same⟩
  · rw [patterns, Lookup.getElem?_erase] at one two
    split at one
    · cases one
    · split at two
      · cases two
      · exact kept.own first second otherId one two

/-- The step: **every event keeps the invariant**. -/
theorem wellKept_step (platform : Platform) {repo next : FastRepoImpl} {occurrence : Occurrence}
    (kept : WellKept repo) (step : repo.step platform occurrence = some next) :
    WellKept next := by
  obtain ⟨enabled, rfl⟩ := (FastRepoImpl.step_eq_some platform).mp step
  rcases change_after platform enabled with growth | ⟨fetchPrefix, instanceId, ended⟩
  · cases growth with
    | kept unchanged => exact wellKept_of_kept kept unchanged
    | started kind fetchPrefix started => exact wellKept_of_started kept started
  · exact wellKept_of_end kept ended

theorem patternSide_started (platform : Platform) (config : Config) (db : Db) :
    patternSide (FastRepoImpl.started platform config db) = (∅, [], [], []) :=
  part_started platform patternSide (fun _ _ => rfl) (fun _ => rfl) config db

theorem wellKept_started (platform : Platform) (config : Config) (db : Db) :
    WellKept (FastRepoImpl.started platform config db) := by
  have fresh := patternSide_started platform config db
  simp only [patternSide, Prod.mk.injEq] at fresh
  obtain ⟨patterns, instances, timers, interests⟩ := fresh
  refine ⟨?_, ?_, ?_⟩
  · intro fetchPrefix instanceId found
    simp [patterns] at found
  · intro first second instanceId found
    simp [patterns] at found
  · intro instanceId pending
    simp [Pending, timers, interests] at pending

theorem wellKept_run (platform : Platform) (config : Config) (db : Db)
    {occurrences : List Occurrence} {repo : FastRepoImpl}
    (reached : (FastRepoImpl.started platform config db).run platform occurrences = some repo) :
    WellKept repo :=
  Runs.run_invariant (wellKept_started platform config db) (fun _ _ _ => wellKept_step platform)
    reached

end PatternState

end FastRepo
