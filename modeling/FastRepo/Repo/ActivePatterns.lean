/-
Which entries of the pattern handle are really in progress.

`patterns_` is what the repo calls active: a command for a fetch prefix with an entry is refused.
`InProgress` says that the pattern of an entry can still do something. An entry is only taken out by
a cancel, so it outlives its fetch: `Stalls` names every event that ends the fetch of an entry, or
enters one that has none, and `activeOnly_iff` says that the entries of a run are in progress
exactly as long as no such event happens.

The proof follows the callbacks: a pattern object has at most one timer or Interest pending
(`AtMostOne`), so a callback that does not ask for the next one leaves the pattern with nothing.
-/

import FastRepo.Repo.CallbackLifetime

namespace FastRepo

open Exits FastRepoImpl PatternHandle PatternState CallbackLifetime

namespace ActivePatterns

/-! ### Progress -/

/-- The pattern object can still make progress: a counter pattern is running and has a timer or an
Interest pending, an ndnrtc pattern has a recorder. A generalized object pattern never does
anything. -/
def InProgress (repo : FastRepoImpl) (instanceId : InstanceId) : Prop :=
  match repo.instances[instanceId]? with
  | some (.counter pattern) => pattern.running = true ∧ Pending repo instanceId
  | some (.ndnrtc streamRecorder) => streamRecorder.isSome = true
  | some .gobj | none => False

/-- Every entry is in progress. -/
def AllActive (repo : FastRepoImpl) : Prop :=
  ∀ instanceId, Held repo instanceId → InProgress repo instanceId

theorem inProgress_counter_iff {repo : FastRepoImpl} {instanceId : InstanceId}
    {pattern : CounterPattern} (found : repo.instances[instanceId]? = some (.counter pattern)) :
    InProgress repo instanceId ↔ pattern.running = true ∧ Pending repo instanceId := by
  unfold InProgress
  rw [found]

theorem inProgress_congr {repo next : FastRepoImpl} {instanceId : InstanceId}
    (object : next.instances[instanceId]? = repo.instances[instanceId]?)
    (pending : Pending next instanceId ↔ Pending repo instanceId) :
    InProgress next instanceId ↔ InProgress repo instanceId := by
  unfold InProgress
  rw [object]
  cases repo.instances[instanceId]? with
  | none => exact Iff.rfl
  | some pattern =>
    cases pattern with
    | counter pattern => exact and_congr_right fun _ => pending
    | ndnrtc streamRecorder => exact Iff.rfl
    | gobj => exact Iff.rfl

theorem inProgress_of_same {repo next : FastRepoImpl}
    (same : patternSide next = patternSide repo) (instanceId : InstanceId) :
    InProgress next instanceId ↔ InProgress repo instanceId := by
  refine inProgress_congr ?_ ((views_of_same same).2.2 instanceId)
  simp only [patternSide, Prod.mk.injEq] at same
  rw [same.2.1]

theorem held_congr {repo next : FastRepoImpl} (same : next.patterns = repo.patterns)
    (instanceId : InstanceId) : Held next instanceId ↔ Held repo instanceId := by
  unfold Held
  rw [same]

theorem allActive_of_same {repo next : FastRepoImpl}
    (same : patternSide next = patternSide repo) : AllActive next ↔ AllActive repo :=
  forall_congr' fun instanceId => imp_congr
    (held_congr (views_of_same same).1 instanceId) (inProgress_of_same same instanceId)

/-! ### The callbacks of one object -/

/-- How many timers and Interests of the pattern object are pending. -/
def callbacks (repo : FastRepoImpl) (instanceId : InstanceId) : Nat :=
  repo.face.timers.countP (fun timer => timer.pattern = instanceId) +
    repo.face.patternInterests.countP fun interest => interest.pattern = instanceId

/-- No pattern object has more than one timer or Interest pending. -/
def AtMostOne (repo : FastRepoImpl) : Prop := ∀ instanceId, callbacks repo instanceId ≤ 1

theorem pending_iff (repo : FastRepoImpl) (instanceId : InstanceId) :
    Pending repo instanceId ↔ 0 < callbacks repo instanceId := by
  unfold Pending callbacks
  rw [Nat.add_pos_iff_pos_or_pos, List.countP_pos_iff, List.countP_pos_iff]
  simp only [decide_eq_true_eq]

theorem callbacks_congr {repo next : FastRepoImpl} (timers : next.face.timers = repo.face.timers)
    (interests : next.face.patternInterests = repo.face.patternInterests)
    (instanceId : InstanceId) : callbacks next instanceId = callbacks repo instanceId := by
  rw [callbacks, timers, interests, callbacks]

@[simp] theorem callbacks_addTimer (repo : FastRepoImpl) (timer : Timer) (instanceId : InstanceId) :
    callbacks (repo.addTimer timer) instanceId =
      callbacks repo instanceId + if timer.pattern = instanceId then 1 else 0 := by
  simp only [callbacks, addTimer, List.countP_append, List.countP_singleton, decide_eq_true_eq]
  omega

@[simp] theorem callbacks_addPatternInterest (repo : FastRepoImpl) (interest : PatternInterest)
    (instanceId : InstanceId) : callbacks (repo.addPatternInterest interest) instanceId =
      callbacks repo instanceId + if interest.pattern = instanceId then 1 else 0 := by
  simp only [callbacks, addPatternInterest, List.countP_append, List.countP_singleton,
    decide_eq_true_eq]
  omega

theorem countP_eq_erase_add {α : Type} [DecidableEq α] {a : α} {items : List α} (member : a ∈ items)
    (p : α → Bool) : items.countP p = (items.erase a).countP p + if p a = true then 1 else 0 := by
  rw [(List.perm_cons_erase member).countP_eq, List.countP_cons]

/-- The face hands out one timer or Interest. -/
theorem callbacks_taken {repo : FastRepoImpl} {event : Event} {owner : InstanceId}
    (enabled : repo.Enabled event) (takes : takenFrom event = some owner)
    (instanceId : InstanceId) : callbacks repo instanceId =
      callbacks (repo.taken event) instanceId + if owner = instanceId then 1 else 0 := by
  have interestTaken : ∀ interest ∈ repo.face.patternInterests,
      callbacks repo instanceId = callbacks (repo.taken (.counterTimeout interest)) instanceId +
        if interest.pattern = instanceId then 1 else 0 := by
    intro interest member
    rw [callbacks, countP_eq_erase_add member, ← Nat.add_assoc]
    simp only [decide_eq_true_eq]
    rfl
  cases event with
  | timer timer =>
    cases takes
    rw [callbacks, countP_eq_erase_add (show timer ∈ repo.face.timers from enabled),
      Nat.add_right_comm]
    simp only [decide_eq_true_eq]
    rfl
  | counterData interest data =>
    cases takes
    exact interestTaken interest enabled.1
  | counterTimeout interest =>
    cases takes
    exact interestTaken interest enabled
  | _ => cases takes

/-- What is handed out was the only callback of its object. -/
theorem callbacks_taken_owner {repo : FastRepoImpl} {event : Event} {owner : InstanceId}
    (one : AtMostOne repo) (enabled : repo.Enabled event) (takes : takenFrom event = some owner) :
    callbacks (repo.taken event) owner = 0 := by
  have count := callbacks_taken enabled takes owner
  have most := one owner
  rw [if_pos rfl] at count
  omega

/-! ### What a callback leaves behind -/

section Callbacks

variable (platform : Platform)

/-- A callback of a pattern object changes that object alone, and asks for one more callback at
most. -/
structure CallsBack (repo next : FastRepoImpl) (owner : InstanceId) : Prop where
  patterns : next.patterns = repo.patterns
  objects : ∀ instanceId, instanceId ≠ owner →
    next.instances[instanceId]? = repo.instances[instanceId]?
  others : ∀ instanceId, instanceId ≠ owner → callbacks next instanceId = callbacks repo instanceId
  own : callbacks next owner ≤ callbacks repo owner + 1

theorem callsBack_refl (repo : FastRepoImpl) (owner : InstanceId) : CallsBack repo repo owner :=
  ⟨rfl, fun _ _ => rfl, fun _ _ => rfl, Nat.le_succ _⟩

theorem callsBack_doFetch (outcomes : Outcomes) (repo : FastRepoImpl) (owner : InstanceId) :
    CallsBack repo (final (CounterPattern.doFetch outcomes owner) repo) owner := by
  rcases CounterPattern.doFetch_cases outcomes owner repo with nothing | ⟨pattern, _, expressed⟩
  · rw [nothing]
    exact callsBack_refl repo owner
  · rw [expressed]
    refine ⟨rfl, fun _ _ => rfl, fun instanceId different => ?_, ?_⟩
    · rw [callbacks_addPatternInterest, if_neg (Ne.symm different), Nat.add_zero]
    · rw [callbacks_addPatternInterest, if_pos rfl]

theorem callsBack_onData (outcomes : Outcomes) (data : Data) (repo : FastRepoImpl)
    (owner : InstanceId) :
    CallsBack repo (final (CounterPattern.onData platform outcomes owner data) repo) owner := by
  rcases CounterPattern.onData_cases platform outcomes owner data repo with
    nothing | ⟨pattern, after, _, _, counted | scheduled⟩
  · rw [nothing]
    exact callsBack_refl repo owner
  · rw [counted]
    exact ⟨rfl, fun _ different => List.getElem?_set_ne (Ne.symm different), fun _ _ => rfl,
      Nat.le_succ _⟩
  · rw [scheduled]
    refine ⟨rfl, fun _ different => List.getElem?_set_ne (Ne.symm different),
      fun instanceId different => ?_, ?_⟩
    · rw [callbacks_addTimer, if_neg (Ne.symm different), Nat.add_zero]
      rfl
    · rw [callbacks_addTimer, if_pos rfl]
      exact Nat.le_refl _

/-- An event that hands out a timer or an Interest runs a callback after it. -/
theorem callsBack_after {repo : FastRepoImpl} {occurrence : Occurrence} {owner : InstanceId}
    (takes : takenFrom occurrence.event = some owner) :
    CallsBack (repo.taken occurrence.event) (repo.after platform occurrence) owner := by
  obtain ⟨event, outcomes⟩ := occurrence
  cases event with
  | timer timer =>
    cases takes
    exact callsBack_doFetch outcomes _ timer.pattern
  | counterData interest data =>
    cases takes
    exact callsBack_onData platform outcomes data _ interest.pattern
  | counterTimeout interest => exact callsBack_refl _ owner
  | _ => cases takes

theorem taken_objects (repo : FastRepoImpl) (event : Event) :
    (repo.taken event).patterns = repo.patterns ∧ (repo.taken event).instances = repo.instances := by
  cases event <;> exact ⟨rfl, rfl⟩

/-- The callback asks for the next one: a timer expresses the next Interest, and data that is not
the last sets the next timer. -/
def Continues (repo : FastRepoImpl) (occurrence : Occurrence) : Prop :=
  match occurrence.event with
  | .timer _ => occurrence.outcomes.throws .expressInterest = none
  | .counterData interest _ => occurrence.outcomes.throws .storagePut = none ∧
      ∃ pattern, repo.instances[interest.pattern]? = some (.counter pattern) ∧
        CounterPattern.Schedules occurrence.outcomes pattern
  | _ => False

variable {platform}

theorem getElem?_setInstance_self {repo : FastRepoImpl} {instanceId : InstanceId}
    {old : FetchPattern} (found : repo.instances[instanceId]? = some old) (new : FetchPattern) :
    (repo.setInstance instanceId new).instances[instanceId]? = some new := by
  obtain ⟨bound, _⟩ := List.getElem?_eq_some_iff.mp found
  exact List.getElem?_set_self bound

/-- A counter pattern without callbacks is not in progress. -/
theorem not_inProgress_of_idle {repo : FastRepoImpl} {owner : InstanceId} {pattern : CounterPattern}
    (idle : callbacks repo owner = 0)
    (found : repo.instances[owner]? = some (.counter pattern)) : ¬InProgress repo owner := by
  rw [inProgress_counter_iff found, pending_iff, idle]
  exact fun both => Nat.lt_irrefl 0 both.2

section Idle

variable (outcomes : Outcomes) {repo : FastRepoImpl} {owner : InstanceId} {pattern : CounterPattern}
  (idle : callbacks repo owner = 0) (found : repo.instances[owner]? = some (.counter pattern))
  (running : pattern.running = true)

include idle found running

theorem inProgress_doFetch_iff :
    InProgress (final (CounterPattern.doFetch outcomes owner) repo) owner ↔
      outcomes.throws .expressInterest = none := by
  rw [CounterPattern.final_doFetch outcomes found]
  by_cases taken : outcomes.throws .expressInterest = none
  · have same : (repo.addPatternInterest ⟨pattern.fetchName, 4000, owner⟩).instances[owner]? =
        some (.counter pattern) := found
    rw [if_pos ⟨running, taken⟩, inProgress_counter_iff same, pending_iff,
      callbacks_addPatternInterest, if_pos rfl]
    exact iff_of_true ⟨running, Nat.succ_pos _⟩ taken
  · rw [if_neg fun both => taken both.2]
    exact iff_of_false (not_inProgress_of_idle idle found) taken

theorem inProgress_scheduleNext_iff :
    InProgress (final (CounterPattern.scheduleNext outcomes owner pattern) repo) owner ↔
      CounterPattern.Schedules outcomes pattern := by
  have counted := getElem?_setInstance_self found (.counter pattern.next)
  rw [CounterPattern.final_scheduleNext]
  by_cases schedules : CounterPattern.Schedules outcomes pattern
  · have same : ((repo.setInstance owner (.counter pattern.next)).addTimer
        ⟨2000, owner⟩).instances[owner]? = some (.counter pattern.next) := counted
    have still : pattern.next.running = true := by
      simp [CounterPattern.next, running, schedules.1]
    rw [if_pos schedules, inProgress_counter_iff same, pending_iff, callbacks_addTimer, if_pos rfl]
    exact iff_of_true ⟨still, Nat.succ_pos _⟩ schedules
  · rw [if_neg schedules]
    exact iff_of_false (not_inProgress_of_idle idle counted) schedules

end Idle

/-- A running pattern is still in progress after a callback exactly when the callback continues. -/
theorem inProgress_after_iff {repo : FastRepoImpl} {occurrence : Occurrence} {owner : InstanceId}
    {pattern : CounterPattern} (one : AtMostOne repo) (enabled : repo.Enabled occurrence.event)
    (takes : takenFrom occurrence.event = some owner)
    (found : repo.instances[owner]? = some (.counter pattern)) (running : pattern.running = true) :
    InProgress (repo.after platform occurrence) owner ↔ Continues repo occurrence := by
  have idle := callbacks_taken_owner one enabled takes
  have object : (repo.taken occurrence.event).instances[owner]? = some (.counter pattern) := by
    rw [(taken_objects repo occurrence.event).2, found]
  obtain ⟨event, outcomes⟩ := occurrence
  cases event with
  | timer timer =>
    cases takes
    exact inProgress_doFetch_iff outcomes idle object running
  | counterData interest data =>
    cases takes
    show InProgress (final (CounterPattern.onData platform outcomes interest.pattern data) _)
      interest.pattern ↔ outcomes.throws .storagePut = none ∧ ∃ pattern, _
    have continues : (∃ pattern, repo.instances[interest.pattern]? = some (.counter pattern) ∧
        CounterPattern.Schedules outcomes pattern) ↔ CounterPattern.Schedules outcomes pattern := by
      rw [found]
      constructor
      · rintro ⟨_, same, schedules⟩
        cases same
        exact schedules
      · exact fun schedules => ⟨pattern, rfl, schedules⟩
    rw [continues, CounterPattern.final_onData platform outcomes data object]
    by_cases written : outcomes.throws .storagePut = none
    · rw [if_pos written, and_iff_right written]
      exact inProgress_scheduleNext_iff outcomes idle object running
    · rw [if_neg written]
      exact iff_of_false (not_inProgress_of_idle idle object) fun both => written both.1
  | counterTimeout interest =>
    cases takes
    exact iff_of_false (not_inProgress_of_idle idle object) id
  | _ => cases takes

end Callbacks

/-! ### One step -/

section Step

variable (platform : Platform)

/-- An event after which an entry has no fetch in progress: it enters a pattern that fetches
nothing, or it is a callback of an entry and asks for no other. -/
def Stalls (repo : FastRepoImpl) (occurrence : Occurrence) : Prop :=
  (∃ fetchPrefix kind, Accepts platform repo occurrence.event fetchPrefix kind ∧
      ¬FetchPattern.Fetches platform kind fetchPrefix) ∨
    ∃ owner, takenFrom occurrence.event = some owner ∧ Held repo owner ∧
      ¬Continues repo occurrence

variable {platform} {repo : FastRepoImpl} {occurrence : Occurrence}

theorem takenFrom_of_accepts {event : Event} {fetchPrefix : Name} {kind : PatternKind}
    (accepts : Accepts platform repo event fetchPrefix kind) : takenFrom event = none := by
  obtain ⟨_, _, rfl, _⟩ := accepts
  rfl

theorem not_accepts_of_taken {event : Event} {owner : InstanceId}
    (takes : takenFrom event = some owner) (fetchPrefix : Name) (kind : PatternKind) :
    ¬Accepts platform repo event fetchPrefix kind := by
  intro accepts
  rw [takenFrom_of_accepts accepts] at takes
  cases takes

theorem stalls_of_accepts_iff {fetchPrefix : Name} {kind : PatternKind}
    (accepts : Accepts platform repo occurrence.event fetchPrefix kind) :
    Stalls platform repo occurrence ↔ ¬FetchPattern.Fetches platform kind fetchPrefix := by
  constructor
  · rintro (⟨otherPrefix, otherKind, other, fails⟩ | ⟨owner, takes, _⟩)
    · obtain ⟨rfl, rfl⟩ := accepts.unique other
      exact fails
    · exact absurd accepts (not_accepts_of_taken takes fetchPrefix kind)
  · exact fun fails => Or.inl ⟨fetchPrefix, kind, accepts, fails⟩

theorem stalls_of_taken_iff {owner : InstanceId} (takes : takenFrom occurrence.event = some owner) :
    Stalls platform repo occurrence ↔ Held repo owner ∧ ¬Continues repo occurrence := by
  constructor
  · rintro (⟨fetchPrefix, kind, accepts, _⟩ | ⟨other, takes', held, stops⟩)
    · exact absurd accepts (not_accepts_of_taken takes fetchPrefix kind)
    · rw [takes] at takes'
      cases takes'
      exact ⟨held, stops⟩
  · exact fun stalls => Or.inr ⟨owner, takes, stalls⟩

theorem not_stalls_of_idle (noCallback : takenFrom occurrence.event = none)
    (refused : ∀ fetchPrefix kind, ¬Accepts platform repo occurrence.event fetchPrefix kind) :
    ¬Stalls platform repo occurrence := by
  rintro (⟨fetchPrefix, kind, accepts, _⟩ | ⟨owner, takes, _⟩)
  · exact refused fetchPrefix kind accepts
  · rw [noCallback] at takes
    cases takes

theorem takenFrom_of_target {event : Event} {fetchPrefix : Name}
    (target : cancelTarget platform event = some fetchPrefix) : takenFrom event = none := by
  cases event with
  | cancelCommand cmdPrefix interest => rfl
  | removePattern other => rfl
  | _ => cases target

/-- A pattern that cannot fetch makes no call that could throw. -/
theorem fetches_of_threw {outcomes : Outcomes} {kind : PatternKind} {fetchPrefix : Name}
    (threw : ¬FetchPattern.FetchReturns platform outcomes kind fetchPrefix) :
    FetchPattern.Fetches platform kind fetchPrefix := by
  cases kind with
  | counter => trivial
  | ndnrtc =>
    by_contra notStream
    exact threw fun stream => absurd stream notStream
  | gobj => exact absurd trivial threw

theorem callbacks_owner_pos {event : Event} {owner : InstanceId} (enabled : repo.Enabled event)
    (takes : takenFrom event = some owner) : Pending repo owner := by
  rw [pending_iff, callbacks_taken enabled takes owner, if_pos rfl]
  exact Nat.succ_pos _

/-- An object that has callbacks or an entry is not the next one to be made. -/
theorem callbacks_length (kept : WellKept repo) : callbacks repo repo.instances.length = 0 := by
  by_contra busy
  have pending := (pending_iff _ _).mpr (Nat.pos_of_ne_zero busy)
  exact ne_length_of_kindOf (kept.counters _ pending) rfl

theorem lt_length_of_held (kept : WellKept repo) {instanceId : InstanceId}
    (held : Held repo instanceId) : instanceId < repo.instances.length := by
  obtain ⟨fetchPrefix, found⟩ := held
  obtain ⟨kind, known⟩ := kept.object fetchPrefix instanceId found
  obtain ⟨pattern, object, _⟩ := Option.map_eq_some_iff.mp known
  exact (List.getElem?_eq_some_iff.mp object).1

/-- Callbacks: **no step leaves a pattern object with two of them**. -/
theorem atMostOne_after (kept : WellKept repo) (one : AtMostOne repo)
    (enabled : repo.Enabled occurrence.event) : AtMostOne (repo.after platform occurrence) := by
  intro instanceId
  cases change_of_event platform repo occurrence with
  | idle same _ _ =>
    simp only [patternSide, Prod.mk.injEq] at same
    rw [callbacks_congr same.2.2.1 same.2.2.2]
    exact one instanceId
  | started fetchPrefix kind _ same =>
    rw [patternSide_patternStarted] at same
    simp only [patternSide, Prod.mk.injEq] at same
    obtain ⟨_, _, timers, interests⟩ := same
    have before := one instanceId
    have fresh := callbacks_length kept
    unfold callbacks at before fresh ⊢
    rw [timers, interests, List.countP_append]
    cases kind with
    | counter =>
      rw [FetchPattern.firstTimers, List.countP_singleton]
      by_cases new : repo.instances.length = instanceId
      · subst new
        simp only [decide_true, if_true]
        omega
      · simp only [new, decide_false, Bool.false_eq_true, if_false]
        omega
    | ndnrtc => exact before
    | gobj => exact before
  | abandoned fetchPrefix kind pattern _ _ same =>
    rw [same]
    exact one instanceId
  | called owner takes =>
    have called : CallsBack (repo.taken occurrence.event) (repo.after platform occurrence) owner :=
      callsBack_after platform takes
    have taken := callbacks_taken enabled takes instanceId
    have before := one instanceId
    by_cases own : instanceId = owner
    · subst own
      have most := called.own
      rw [callbacks_taken_owner one enabled takes] at most
      exact most
    · rw [called.others instanceId own]
      omega
  | ended fetchPrefix ended _ found same =>
    obtain ⟨kind, known⟩ := kept.object fetchPrefix ended found
    obtain ⟨pattern, object, _⟩ := Option.map_eq_some_iff.mp known
    rw [patternSide_ended fetchPrefix object] at same
    simp only [patternSide, Prod.mk.injEq] at same
    rw [callbacks_congr same.2.2.1 same.2.2.2]
    exact one instanceId

/-- An entry of the pattern that was started, or one that was there before. -/
theorem held_started_iff {outcomes : Outcomes} {kind : PatternKind} {fetchPrefix : Name}
    (absent : repo.patterns[fetchPrefix]? = none) (instanceId : InstanceId) :
    Held (PatternHandle.started platform outcomes repo kind fetchPrefix) instanceId ↔
      instanceId = repo.instances.length ∨ Held repo instanceId := by
  have patterns := (patternStarted_started platform outcomes repo kind absent).patterns
  unfold Held
  constructor
  · rintro ⟨other, found⟩
    rw [patterns, Lookup.getElem?_insert] at found
    split at found
    · exact Or.inl (Option.some.inj found).symm
    · exact Or.inr ⟨other, found⟩
  · rintro (rfl | ⟨other, found⟩)
    · refine ⟨fetchPrefix, ?_⟩
      rw [patterns, Lookup.getElem?_insert, if_pos rfl]
    · refine ⟨other, ?_⟩
      rw [patterns, Lookup.getElem?_insert, if_neg, found]
      rintro rfl
      rw [absent] at found
      cases found

/-- A pattern that was started is in progress exactly when it fetches. -/
theorem inProgress_started_iff {outcomes : Outcomes} (repo : FastRepoImpl) (kind : PatternKind)
    (fetchPrefix : Name) :
    InProgress (PatternHandle.started platform outcomes repo kind fetchPrefix)
        repo.instances.length ↔
      FetchPattern.Fetches platform kind fetchPrefix := by
  have side := patternSide_patternStarted platform outcomes repo kind fetchPrefix
  simp only [patternSide, Prod.mk.injEq] at side
  obtain ⟨_, instances, timers, _⟩ := side
  have object : (PatternHandle.started platform outcomes repo kind
      fetchPrefix).instances[repo.instances.length]? =
        some (FetchPattern.fetching platform kind fetchPrefix) := by
    rw [instances, List.getElem?_concat_length]
  unfold InProgress
  rw [object]
  cases kind with
  | counter =>
    refine iff_of_true ⟨rfl, Or.inl ⟨⟨1, repo.instances.length⟩, ?_, rfl⟩⟩ trivial
    rw [timers]
    exact List.mem_append_right _ (List.mem_singleton_self _)
  | ndnrtc =>
    show Option.isSome (if platform.extractInfo fetchPrefix then some fetchPrefix else none) = true ↔
      platform.extractInfo fetchPrefix = true
    cases platform.extractInfo fetchPrefix <;> simp
  | gobj => exact Iff.rfl

/-- Starting a pattern leaves the objects of the other entries as they are. -/
theorem inProgress_started_other (kept : WellKept repo) (kind : PatternKind) (fetchPrefix : Name)
    {instanceId : InstanceId} (held : Held repo instanceId) :
    InProgress (PatternHandle.started platform outcomes repo kind fetchPrefix) instanceId ↔
      InProgress repo instanceId := by
  have bound := lt_length_of_held kept held
  have side := patternSide_patternStarted platform outcomes repo kind fetchPrefix
  simp only [patternSide, Prod.mk.injEq] at side
  obtain ⟨_, instances, timers, interests⟩ := side
  refine inProgress_congr ?_ ?_
  · rw [instances, List.getElem?_append_left bound]
  · rw [pending_iff, pending_iff]
    unfold callbacks
    rw [timers, interests, List.countP_append]
    cases kind with
    | counter =>
      have apart : repo.instances.length ≠ instanceId := Nat.ne_of_gt bound
      simp [FetchPattern.firstTimers, apart]
    | ndnrtc => exact Iff.rfl
    | gobj => exact Iff.rfl

/-- An entry that is left when another one ends was there before, with an object of its own. -/
theorem held_ended (kept : WellKept repo) {fetchPrefix : Name} {ended instanceId : InstanceId}
    (found : repo.patterns[fetchPrefix]? = some ended)
    (held : Held (PatternHandle.ended repo fetchPrefix ended) instanceId) :
    Held repo instanceId ∧ ended ≠ instanceId := by
  obtain ⟨other, still⟩ := held
  rw [PatternHandle.ended_patterns, Lookup.getElem?_erase] at still
  split at still
  · cases still
  · rename_i different
    refine ⟨⟨other, still⟩, ?_⟩
    rintro rfl
    exact different (kept.own other fetchPrefix ended still found)

/-- Ending an entry leaves the objects of the other entries as they are. -/
theorem inProgress_of_ended (kept : WellKept repo) (active : AllActive repo) {fetchPrefix : Name}
    {ended : InstanceId} (found : repo.patterns[fetchPrefix]? = some ended) :
    AllActive (PatternHandle.ended repo fetchPrefix ended) := by
  obtain ⟨kind, known⟩ := kept.object fetchPrefix ended found
  obtain ⟨pattern, object, _⟩ := Option.map_eq_some_iff.mp known
  have side := patternSide_ended fetchPrefix object
  simp only [patternSide, Prod.mk.injEq] at side
  obtain ⟨_, instances, timers, interests⟩ := side
  intro instanceId held
  obtain ⟨before, apart⟩ := held_ended kept found held
  refine (inProgress_congr ?_ ?_).mpr (active instanceId before)
  · rw [instances, List.getElem?_set_ne apart]
  · rw [pending_iff, pending_iff, callbacks_congr timers interests]

/-- An event that runs a callback of an object leaves all entries in progress exactly when it leaves
the entry of that object in progress. -/
theorem allActive_called_iff (kept : WellKept repo) (one : AtMostOne repo) (active : AllActive repo)
    (enabled : repo.Enabled occurrence.event) {owner : InstanceId}
    (takes : takenFrom occurrence.event = some owner) :
    AllActive (repo.after platform occurrence) ↔ (Held repo owner → Continues repo occurrence) := by
  have called : CallsBack (repo.taken occurrence.event) (repo.after platform occurrence) owner :=
    callsBack_after platform takes
  obtain ⟨samePatterns, sameInstances⟩ := taken_objects repo occurrence.event
  have held : ∀ instanceId, Held (repo.after platform occurrence) instanceId ↔
      Held repo instanceId := held_congr (called.patterns.trans samePatterns)
  have others : ∀ instanceId, instanceId ≠ owner →
      (InProgress (repo.after platform occurrence) instanceId ↔ InProgress repo instanceId) := by
    intro instanceId different
    refine inProgress_congr ?_ ?_
    · rw [called.objects instanceId different, sameInstances]
    · rw [pending_iff, pending_iff, called.others instanceId different,
        callbacks_taken enabled takes instanceId, if_neg (Ne.symm different), Nat.add_zero]
  have own : Held repo owner → (InProgress (repo.after platform occurrence) owner ↔
      Continues repo occurrence) := by
    intro here
    have counter := kept.counters owner (callbacks_owner_pos enabled takes)
    obtain ⟨object, found, kind⟩ := Option.map_eq_some_iff.mp counter
    cases object with
    | counter pattern =>
      have running := ((inProgress_counter_iff found).mp (active owner here)).1
      exact inProgress_after_iff one enabled takes found running
    | ndnrtc streamRecorder => cases kind
    | gobj => cases kind
  constructor
  · exact fun still here => (own here).mp (still owner ((held owner).mpr here))
  · intro continues instanceId here
    have before := (held instanceId).mp here
    by_cases same : instanceId = owner
    · subst same
      exact (own before).mpr (continues before)
    · exact (others instanceId same).mpr (active instanceId before)

/-- One step: **the entries stay in progress exactly when the event does not stall one**. -/
theorem allActive_after_iff (kept : WellKept repo) (one : AtMostOne repo) (active : AllActive repo)
    (enabled : repo.Enabled occurrence.event) :
    AllActive (repo.after platform occurrence) ↔ ¬Stalls platform repo occurrence := by
  cases change_of_event platform repo occurrence with
  | idle same noCallback refused =>
    exact iff_of_true ((allActive_of_same same).mpr active) (not_stalls_of_idle noCallback refused)
  | started fetchPrefix kind accepts same =>
    have absent : repo.patterns[fetchPrefix]? = none := by
      obtain ⟨_, _, _, _, absent⟩ := accepts
      exact absent
    rw [stalls_of_accepts_iff accepts, not_not, allActive_of_same same,
      ← inProgress_started_iff repo kind fetchPrefix]
    constructor
    · exact fun still => still _ ((held_started_iff absent _).mpr (Or.inl rfl))
    · intro new instanceId held
      rcases (held_started_iff absent instanceId).mp held with rfl | before
      · exact new
      · exact (inProgress_started_other kept kind fetchPrefix before).mpr (active _ before)
  | abandoned fetchPrefix kind pattern accepts threw same =>
    rw [stalls_of_accepts_iff accepts, not_not]
    refine iff_of_true ?_ (fetches_of_threw threw)
    rw [same]
    intro instanceId held
    have bound := lt_length_of_held kept (show Held repo instanceId from held)
    have callbacks : Pending ((repo.addInstance kind).setInstance repo.instances.length pattern)
        instanceId ↔ Pending repo instanceId := Iff.rfl
    exact (inProgress_congr (getElem?_new repo kind pattern bound) callbacks).mpr
      (active instanceId held)
  | called owner takes =>
    rw [allActive_called_iff kept one active enabled takes, stalls_of_taken_iff takes,
      not_and, not_not]
  | ended fetchPrefix ended target found same =>
    refine iff_of_true ((allActive_of_same same).mpr (inProgress_of_ended kept active found)) ?_
    refine not_stalls_of_idle (takenFrom_of_target target) (not_accepts_of_ne platform ?_)
    intro cmdPrefix interest event
    rw [event] at target
    cases target

end Step

/-! ### Runs -/

section Runs

variable (platform : Platform)

/-- How a pattern command is handled when its fetch prefix has no entry. -/
def handledAsNew (outcomes : Outcomes) (interest : Interest) (fetchPrefix : Name)
    (kind : Option PatternKind) : Handler Unit :=
  kind.elim (BaseHandle.negativeReply platform outcomes interest 404) fun kind =>
    startPattern platform outcomes kind fetchPrefix >>= fun _ =>
      BaseHandle.negativeReply platform outcomes interest 100

/-- What is asked of the entries in a run: they are in progress in every state, so a command is
refused as a duplicate only while a fetch of its prefix is in progress, and is handled as a new one
otherwise. -/
structure ActiveOnly (start : FastRepoImpl) (occurrences : List Occurrence) : Prop where
  active : ∀ s, Runs.Passes (step platform) start occurrences s → AllActive s
  refused : ∀ s occurrence, Runs.Takes (step platform) start occurrences s occurrence →
    ∀ cmdPrefix interest fetchPrefix kind, occurrence.event = .patternCommand cmdPrefix interest →
      asksFor platform interest cmdPrefix = some (fetchPrefix, kind) →
        match s.patterns[fetchPrefix]? with
        | some instanceId => InProgress s instanceId ∧
            onInterest platform occurrence.outcomes interest cmdPrefix s =
              BaseHandle.negativeReply platform occurrence.outcomes interest 402 s
        | none => onInterest platform occurrence.outcomes interest cmdPrefix s =
            handledAsNew platform occurrence.outcomes interest fetchPrefix kind s

/-- At the start the map is empty. -/
theorem not_held_started (config : Config) (db : Db) (instanceId : InstanceId) :
    ¬Held (started platform config db) instanceId := by
  rintro ⟨fetchPrefix, found⟩
  have patterns : (started platform config db).patterns = ∅ :=
    congrArg Prod.fst (patternSide_started platform config db)
  simp [patterns] at found

theorem activeSide_started (config : Config) (db : Db) :
    AtMostOne (started platform config db) ∧ AllActive (started platform config db) := by
  have fresh := patternSide_started platform config db
  simp only [patternSide, Prod.mk.injEq] at fresh
  obtain ⟨_, _, timers, interests⟩ := fresh
  constructor
  · intro instanceId
    rw [callbacks, timers, interests]
    exact Nat.zero_le 1
  · exact fun instanceId held => absurd held (not_held_started platform config db instanceId)

/-- Activity: **in a run from the start the entries are in progress exactly when no step stalls
one**, whatever the libraries do. -/
theorem activeOnly_iff (config : Config) (db : Db) {occurrences : List Occurrence}
    {repo : FastRepoImpl}
    (reached : (started platform config db).run platform occurrences = some repo) :
    ActiveOnly platform (started platform config db) occurrences ↔
      ∀ s occurrence, Runs.Takes (step platform) (started platform config db) occurrences s
        occurrence → ¬Stalls platform s occurrence := by
  obtain ⟨one, active⟩ := activeSide_started platform config db
  have everywhere := Runs.run_forall_iff (I := fun s => WellKept s ∧ AtMostOne s) (P := AllActive)
    (C := fun s occurrence => ¬Stalls platform s occurrence)
    ⟨wellKept_started platform config db, one⟩
    (fun s occurrence next inside step => by
      refine ⟨wellKept_step platform inside.1 step, ?_⟩
      obtain ⟨enabled, rfl⟩ := (step_eq_some platform).mp step
      exact atMostOne_after inside.1 inside.2 enabled)
    active
    (fun s occurrence next inside before step => by
      obtain ⟨enabled, rfl⟩ := (step_eq_some platform).mp step
      exact allActive_after_iff inside.1 inside.2 before enabled) reached
  rw [← everywhere]
  refine ⟨ActiveOnly.active, fun active => ⟨active, ?_⟩⟩
  intro s occurrence taken cmdPrefix interest fetchPrefix kind _ asks
  split
  · rename_i instanceId found
    exact ⟨active s taken.passes instanceId ⟨fetchPrefix, found⟩,
      onInterest_taken platform occurrence.outcomes asks found⟩
  · rename_i absent
    rw [onInterest_apply platform occurrence.outcomes asks, if_neg (Lookup.not_contains absent),
      handledAsNew]

end Runs

/-! ### A fetch that stalls, and one that goes on -/

/-- The first Interest of the pattern for `/p`, which the repo expresses when its timer fires. -/
def firstInterest : PatternInterest := ⟨nameOf ["p", "0"], 4000, 0⟩

/-- The pattern expresses its first Interest, which then times out. -/
def lostInterest : List Occurrence :=
  [startCounter, ⟨.timer ⟨1, 0⟩, {}⟩, ⟨.counterTimeout firstInterest, {}⟩]

/-- After the timeout the entry of `/p` has nothing pending, and the next command for `/p` is
refused all the same. -/
theorem not_activeOnly_lostInterest :
    ∃ repo, smallRepo.run (tlvPlatform false false) (lostInterest ++ [startCounter]) = some repo ∧
      ¬ActiveOnly (tlvPlatform false false) smallRepo (lostInterest ++ [startCounter]) := by
  have runs : (smallRepo.run (tlvPlatform false false)
      (lostInterest ++ [startCounter])).isSome = true := by decide
  have stalled : (smallRepo.run (tlvPlatform false false) lostInterest).map
      (fun repo => (repo.patterns[nameOf ["p"]]?, repo.instances, repo.face.timers,
        repo.face.patternInterests)) =
      some (some 0, [.counter ⟨true, 0, nameOf ["p"]⟩], [], []) := by decide
  obtain ⟨lost, reached, same⟩ := Option.map_eq_some_iff.mp stalled
  simp only [Prod.mk.injEq] at same
  obtain ⟨found, instances, timers, interests⟩ := same
  refine ⟨_, (Option.some_get runs).symm, fun activeOnly => ?_⟩
  have progress := activeOnly.active lost ⟨lostInterest, List.prefix_append _ _, reached⟩ 0
    ⟨nameOf ["p"], found⟩
  have object : lost.instances[0]? = some (.counter ⟨true, 0, nameOf ["p"]⟩) := by
    rw [instances]
    rfl
  have pending := ((inProgress_counter_iff object).mp progress).2
  simp [Pending, timers, interests] at pending

/-- While the first Interest is outstanding, a second command for `/p` is refused. -/
def secondCommand : List Occurrence := [startCounter, ⟨.timer ⟨1, 0⟩, {}⟩, startCounter]

theorem activeOnly_secondCommand :
    ActiveOnly (tlvPlatform false false) smallRepo secondCommand := by
  have runs : (smallRepo.run (tlvPlatform false false) secondCommand).isSome = true := by decide
  have asks : asksFor (tlvPlatform false false) (commandInterest (nameOf ["r", "pattern"])
      (patternParameter (ascii "counter") [ascii "p"])) (nameOf ["r", "pattern"]) =
      some (nameOf ["p"], some .counter) := by decide
  refine (activeOnly_iff (tlvPlatform false false) { repoPrefixes := [nameOf ["r"]] } ∅
    (Option.some_get runs).symm).mpr ?_
  rintro s occurrence ⟨before, within, _⟩ stalls
  have member : occurrence ∈ secondCommand := within.subset (by simp)
  have command : ¬Stalls (tlvPlatform false false) s startCounter := by
    rintro (⟨fetchPrefix, kind, ⟨_, _, same, asked, _⟩, fails⟩ | ⟨owner, takes, _⟩)
    · cases same
      rw [asks] at asked
      cases asked
      exact fails trivial
    · cases takes
  simp only [secondCommand, List.mem_cons, List.not_mem_nil, or_false] at member
  rcases member with rfl | rfl | rfl
  · exact command stalls
  · rcases stalls with ⟨fetchPrefix, kind, ⟨_, _, same, _⟩, _⟩ | ⟨owner, _, _, stops⟩
    · cases same
    · exact stops rfl
  · exact command stalls

end ActivePatterns

end FastRepo
