/-
The fetch of a counter pattern, from its command to its end.

`viewOf` is what is seen of one pattern object: its state, its pending callbacks and its writes.
`moves_after` says once what an event does to a view; the results about runs follow from it.

* `fetchesInOrder_run`: the packets are those of the numbers from zero, in order, at most ten.
* `callbacks_bounded`: a pattern calls back at most twenty times.
* `paced_run`: when nothing disturbs it, a pattern is as far as its callbacks say.

An object is one that lives until its last callback, also when it was cut off before
(`CallbackLifetime.CutsOff`). The source destroys it then, and its memory may become another object.
-/

import FastRepo.Repo.CancelFinality

namespace FastRepo

open Exits FastRepoImpl PatternHandle PatternState CallbackLifetime ActivePatterns StoreState
  CancelFinality

namespace CounterFetch

variable (platform : Platform)

/-! ### One pattern object -/

/-- What is seen of one pattern object: its state, how many timers it has pending, its outstanding
Interests, and its writes. -/
structure View where
  object : Option FetchPattern
  timers : Nat
  interests : List PatternInterest
  writes : List Put

/-- The view of a pattern object. -/
def viewOf (repo : FastRepoImpl) (instanceId : InstanceId) : View where
  object := repo.instances[instanceId]?
  timers := repo.face.timers.countP fun timer => timer.pattern = instanceId
  interests := interestsOf repo instanceId
  writes := writesOf repo instanceId

/-- A pattern object as a command makes it: a counter pattern starts at zero, runs unless its first
timer is refused, and has set that timer when it runs. -/
def Fresh (outcomes : Outcomes) : FetchPattern → Nat → Prop
  | .counter pattern, timers => pattern.counter = 0 ∧
      (outcomes.throws .callLater = none → pattern.running = true) ∧
      timers = if pattern.running then 1 else 0
  | _, timers => timers = 0

/-- The timer a counter pattern sets after a packet, if any. -/
def nextTimers (outcomes : Outcomes) (pattern : CounterPattern) : Nat :=
  if CounterPattern.Schedules outcomes pattern then 1 else 0

/-- The Interest a counter pattern expresses when its timer fires, if any. -/
def nextInterests (outcomes : Outcomes) (instanceId : InstanceId) (pattern : CounterPattern) :
    List PatternInterest :=
  if pattern.running = true ∧ outcomes.throws .expressInterest = none then
    [⟨pattern.fetchName, 4000, instanceId⟩]
  else []

/-- The event loses the Interest it hands out: it times out, or the write of its data throws. -/
def Loses (occurrence : Occurrence) : Prop :=
  match occurrence.event with
  | .counterTimeout _ => True
  | .counterData _ _ => occurrence.outcomes.throws .storagePut ≠ none
  | _ => False

/-- The event asks to end the entry that holds the object. -/
def Ends (repo : FastRepoImpl) (occurrence : Occurrence) (instanceId : InstanceId) : Prop :=
  ∃ fetchPrefix, cancelTarget platform occurrence.event = some fetchPrefix ∧
    repo.patterns[fetchPrefix]? = some instanceId

/-- What an event does to the view of one pattern object. -/
inductive Moves (repo : FastRepoImpl) (occurrence : Occurrence) (instanceId : InstanceId)
    (view next : View) : Prop
  | still (elsewhere : takenFrom occurrence.event ≠ some instanceId) (same : next = view)
  | made (pattern : FetchPattern) (timers : Nat)
      (elsewhere : takenFrom occurrence.event ≠ some instanceId) (absent : view.object = none)
      (fresh : Fresh occurrence.outcomes pattern timers)
      (same : next = { view with object := some pattern, timers := view.timers + timers })
  | cancelled (pattern : FetchPattern) (elsewhere : takenFrom occurrence.event ≠ some instanceId)
      (ends : Ends platform repo occurrence instanceId)
      (found : view.object = some pattern)
      (same : next = { view with object := some pattern.cancelled })
  | fired (timer : Timer) (pattern : CounterPattern) (writes : List Put)
      (event : occurrence.event = .timer timer) (own : timer.pattern = instanceId)
      (before : view = ⟨some (.counter pattern), 1, [], writes⟩)
      (same : next = ⟨some (.counter pattern), 0,
        nextInterests occurrence.outcomes instanceId pattern, writes⟩)
  | answered (interest : PatternInterest) (data : Data) (n : Name) (pattern : CounterPattern)
      (writes : List Put) (event : occurrence.event = .counterData interest data)
      (own : interest.pattern = instanceId) (answers : interest.name <+: data.name)
      (before : view = ⟨some (.counter pattern), 0, [interest], writes⟩)
      (same : next = ⟨some (.counter pattern.next), nextTimers occurrence.outcomes pattern, [],
        writes ++ [⟨.pattern instanceId, data, n⟩]⟩)
  | lost (interest : PatternInterest) (pattern : CounterPattern) (writes : List Put)
      (own : takenFrom occurrence.event = some instanceId) (loses : Loses occurrence)
      (before : view = ⟨some (.counter pattern), 0, [interest], writes⟩)
      (same : next = ⟨some (.counter pattern), 0, [], writes⟩)

/-! ### The elementary changes -/

section Elementary

variable {repo : FastRepoImpl} {instanceId : InstanceId}

theorem viewOf_addTimer (timer : Timer) : viewOf (repo.addTimer timer) instanceId =
    { viewOf repo instanceId with
      timers := (viewOf repo instanceId).timers + if timer.pattern = instanceId then 1 else 0 } := by
  simp [viewOf, addTimer, List.countP_append, List.countP_singleton, interestsOf, writesOf]

theorem viewOf_addPatternInterest (interest : PatternInterest) :
    viewOf (repo.addPatternInterest interest) instanceId =
      { viewOf repo instanceId with
        interests := (viewOf repo instanceId).interests ++
          if interest.pattern = instanceId then [interest] else [] } := by
  simp only [viewOf, interestsOf, writesOf, addPatternInterest, List.filter_append,
    List.filter_singleton, Bool.cond_decide]

theorem viewOf_setInstance_other {owner : InstanceId} (other : owner ≠ instanceId)
    (pattern : FetchPattern) :
    viewOf (repo.setInstance owner pattern) instanceId = viewOf repo instanceId := by
  unfold viewOf
  rw [show (repo.setInstance owner pattern).instances[instanceId]? = repo.instances[instanceId]?
    from List.getElem?_set_ne other]
  rfl

theorem viewOf_setInstance_self {old : FetchPattern}
    (found : repo.instances[instanceId]? = some old) (pattern : FetchPattern) :
    viewOf (repo.setInstance instanceId pattern) instanceId =
      { viewOf repo instanceId with object := some pattern } := by
  unfold viewOf
  rw [getElem?_setInstance_self found]
  rfl

theorem viewOf_written (ok : Bool) (owner : InstanceId) (data : Data) :
    viewOf (repo.written platform ok (.pattern owner) data).1 instanceId =
      { viewOf repo instanceId with
        writes := (viewOf repo instanceId).writes ++ if owner = instanceId then
          [⟨.pattern owner, data, (repo.written platform ok (.pattern owner) data).2⟩] else [] } := by
  unfold viewOf writesOf
  show View.mk _ _ _ ((repo.puts ++ [_]).filter _) = _
  by_cases own : owner = instanceId
  · simp [own, interestsOf, written]
  · simp [own, interestsOf, written]

/-- The face hands out a timer. -/
theorem viewOf_taken_timer {timer : Timer} (pending : timer ∈ repo.face.timers) :
    viewOf repo instanceId =
      { viewOf (repo.taken (.timer timer)) instanceId with
        timers := (viewOf (repo.taken (.timer timer)) instanceId).timers +
          if timer.pattern = instanceId then 1 else 0 } := by
  unfold viewOf
  rw [countP_eq_erase_add pending]
  simp only [decide_eq_true_eq]
  rfl

/-- The face hands out an Interest. -/
theorem interestsOf_taken (interest : PatternInterest) (event : Event)
    (hands : (repo.taken event).face.patternInterests = repo.face.patternInterests.erase interest) :
    interestsOf (repo.taken event) instanceId = (interestsOf repo instanceId).erase interest := by
  unfold interestsOf
  rw [hands, List.erase_filter]

end Elementary

section Step

variable {platform} {repo : FastRepoImpl} {occurrence : Occurrence} {instanceId : InstanceId}

/-- An event that is no callback of the object writes nothing for it. -/
theorem writesOf_elsewhere (elsewhere : takenFrom occurrence.event ≠ some instanceId) :
    writesOf (repo.after platform occurrence) instanceId = writesOf repo instanceId := by
  rcases writesAtMost_after platform repo occurrence with same | ⟨writer, data, writes, same⟩
  · exact writesOf_congr same
  · have foreign : writer ≠ .pattern instanceId := by
      rintro rfl
      obtain ⟨event, outcomes⟩ := occurrence
      cases event with
      | counterData interest packet =>
        cases writes
        exact elsewhere rfl
      | _ => cases writes
    exact (writesOf_congr same).trans (writesOf_written foreign _ data)

/-- The view is made of the pattern side and the writes. -/
theorem viewOf_congr {next : FastRepoImpl} (same : patternSide next = patternSide repo)
    (writes : writesOf next instanceId = writesOf repo instanceId) :
    viewOf next instanceId = viewOf repo instanceId := by
  simp only [patternSide, Prod.mk.injEq] at same
  obtain ⟨_, instances, timers, interests⟩ := same
  unfold viewOf interestsOf
  rw [instances, timers, interests, writes]

/-- A callback of another object leaves the view alone. -/
theorem viewOf_called_other {owner : InstanceId} (enabled : repo.Enabled occurrence.event)
    (takes : takenFrom occurrence.event = some owner) (other : owner ≠ instanceId) :
    viewOf (repo.after platform occurrence) instanceId = viewOf repo instanceId := by
  obtain ⟨event, outcomes⟩ := occurrence
  have interestTaken : ∀ interest : PatternInterest, interest.pattern = owner →
      (repo.taken event).face.patternInterests = repo.face.patternInterests.erase interest →
      (repo.taken event).face.timers = repo.face.timers →
      viewOf (repo.taken event) instanceId = viewOf repo instanceId := by
    intro interest own hands timers
    have kept : interestsOf (repo.taken event) instanceId =
        (interestsOf repo instanceId).erase interest := interestsOf_taken interest event hands
    rw [List.erase_of_not_mem] at kept
    · unfold viewOf writesOf
      rw [kept, timers, (taken_objects repo event).2]
      cases event <;> rfl
    · intro member
      have same := of_decide_eq_true (List.mem_filter.mp member).2
      exact other (own.symm.trans same)
  cases event with
  | timer timer =>
    cases takes
    have taken : viewOf (repo.taken (.timer timer)) instanceId = viewOf repo instanceId := by
      rw [viewOf_taken_timer enabled, if_neg other, Nat.add_zero]
    show viewOf (final (CounterPattern.doFetch outcomes timer.pattern) _) instanceId = _
    rcases CounterPattern.doFetch_cases outcomes timer.pattern (repo.taken (.timer timer)) with
      nothing | ⟨pattern, _, expressed⟩
    · rw [nothing, taken]
    · rw [expressed, viewOf_addPatternInterest, if_neg other, List.append_nil, taken]
  | counterData interest data =>
    cases takes
    have taken := interestTaken interest rfl rfl rfl
    show viewOf (final (CounterPattern.onData platform outcomes interest.pattern data) _)
      instanceId = _
    rcases CounterPattern.onData_cases platform outcomes interest.pattern data
      (repo.taken (.counterData interest data)) with nothing | ⟨_, _, _, _, counted | scheduled⟩
    · rw [nothing, taken]
    · rw [counted, viewOf_setInstance_other other, viewOf_written, if_neg other, List.append_nil,
        taken]
    · rw [scheduled, viewOf_addTimer, if_neg other, viewOf_setInstance_other other, viewOf_written,
        if_neg other, List.append_nil, taken]
      rfl
  | counterTimeout interest =>
    cases takes
    exact interestTaken interest rfl rfl rfl
  | _ => cases takes

/-- The view of an object with no callback. -/
theorem viewOf_idle (idle : callbacks repo instanceId = 0) : viewOf repo instanceId =
    ⟨repo.instances[instanceId]?, 0, [], writesOf repo instanceId⟩ := by
  unfold callbacks at idle
  obtain ⟨timers, interests⟩ := Nat.add_eq_zero_iff.mp idle
  unfold viewOf
  rw [timers]
  unfold interestsOf
  rw [List.filter_eq_nil_iff.mpr (List.countP_eq_zero.mp interests)]

/-- The view of an object whose only callback is an Interest. -/
theorem viewOf_asking (one : AtMostOne repo) {interest : PatternInterest}
    (pending : interest ∈ repo.face.patternInterests) (own : interest.pattern = instanceId) :
    viewOf repo instanceId =
      ⟨repo.instances[instanceId]?, 0, [interest], writesOf repo instanceId⟩ := by
  have most := one instanceId
  have member : interest ∈ interestsOf repo instanceId :=
    List.mem_filter.mpr ⟨pending, decide_eq_true own⟩
  unfold callbacks at most
  rw [List.countP_eq_length_filter (l := repo.face.patternInterests)] at most
  have some : 0 < (interestsOf repo instanceId).length := List.length_pos_of_mem member
  unfold interestsOf at some
  obtain ⟨only, single⟩ := List.length_eq_one_iff.mp
    (show (interestsOf repo instanceId).length = 1 by unfold interestsOf; omega)
  rw [single, List.mem_singleton] at member
  unfold viewOf
  rw [single, member]
  congr 1
  omega

theorem counter_of_pending (kept : WellKept repo) (pending : Pending repo instanceId) :
    ∃ pattern : CounterPattern, repo.instances[instanceId]? = some (.counter pattern) := by
  obtain ⟨pattern, found, kind⟩ := Option.map_eq_some_iff.mp (kept.counters instanceId pending)
  cases pattern with
  | counter state => exact ⟨state, found⟩
  | _ => cases kind

/-- A callback of the object itself. -/
theorem moves_called (kept : WellKept repo) (one : AtMostOne repo)
    (enabled : repo.Enabled occurrence.event)
    (takes : takenFrom occurrence.event = some instanceId) :
    Moves platform repo occurrence instanceId (viewOf repo instanceId)
      (viewOf (repo.after platform occurrence) instanceId) := by
  obtain ⟨pattern, found⟩ := counter_of_pending kept (callbacks_owner_pos enabled takes)
  have idle := viewOf_idle (callbacks_taken_owner one enabled takes)
  rw [(taken_objects repo occurrence.event).2, found] at idle
  have there : (repo.taken occurrence.event).instances[instanceId]? = some (.counter pattern) := by
    rw [(taken_objects repo occurrence.event).2, found]
  obtain ⟨event, outcomes⟩ := occurrence
  cases event with
  | timer timer =>
    cases takes
    refine .fired timer pattern (writesOf repo timer.pattern) rfl rfl ?_ ?_
    · rw [viewOf_taken_timer enabled, idle, if_pos rfl]
      rfl
    · show viewOf (final (CounterPattern.doFetch outcomes timer.pattern) _) timer.pattern = _
      unfold nextInterests
      rw [CounterPattern.final_doFetch outcomes there]
      split
      · rw [viewOf_addPatternInterest, idle, if_pos rfl]
        rfl
      · exact idle
  | counterData interest data =>
    cases takes
    have asking := viewOf_asking one enabled.1 rfl
    rw [found] at asking
    by_cases returns : outcomes.throws .storagePut = none
    · let written := (repo.taken (.counterData interest data)).written platform outcomes.dbPut
        (.pattern interest.pattern) data
      refine .answered interest data written.2 pattern (writesOf repo interest.pattern) rfl rfl
        enabled.2 asking ?_
      show viewOf (final (CounterPattern.onData platform outcomes interest.pattern data) _)
        interest.pattern = _
      have object : written.1.instances[interest.pattern]? = some (.counter pattern) := there
      unfold nextTimers
      rw [CounterPattern.final_onData platform outcomes data there, if_pos returns,
        CounterPattern.final_scheduleNext]
      split
      · rw [viewOf_addTimer, viewOf_setInstance_self object, viewOf_written, idle, if_pos rfl,
          if_pos rfl]
        rfl
      · rw [viewOf_setInstance_self object, viewOf_written, idle, if_pos rfl]
        rfl
    · refine .lost interest pattern (writesOf repo interest.pattern) rfl returns asking ?_
      show viewOf (final (CounterPattern.onData platform outcomes interest.pattern data) _)
        interest.pattern = _
      rw [CounterPattern.final_onData platform outcomes data there, if_neg returns]
      exact idle
  | counterTimeout interest =>
    cases takes
    have asking := viewOf_asking one enabled rfl
    rw [found] at asking
    exact .lost interest pattern (writesOf repo interest.pattern) rfl trivial asking idle
  | _ => cases takes

/-- A pattern object whose `fetch` threw: it has its prefix, and nothing of it is pending. -/
def unfetched (kind : PatternKind) (fetchPrefix : Name) : FetchPattern :=
  match kind with
  | .counter => .counter ⟨false, 0, fetchPrefix⟩
  | .ndnrtc => .ndnrtc (some fetchPrefix)
  | .gobj => .gobj

theorem fetch_throws (repo : FastRepoImpl) (instanceId : InstanceId) {outcomes : Outcomes}
    {kind : PatternKind} {fetchPrefix : Name}
    (throws : ¬FetchPattern.FetchReturns platform outcomes kind fetchPrefix) :
    ∃ exn, FetchPattern.fetch platform outcomes kind instanceId fetchPrefix repo =
      .error exn (repo.setInstance instanceId (unfetched kind fetchPrefix)) := by
  cases kind with
  | counter =>
    obtain ⟨exn, threw⟩ := Option.ne_none_iff_exists'.mp throws
    refine ⟨exn, ?_⟩
    unfold FetchPattern.fetch CounterPattern.fetch call
    rw [threw]
    rfl
  | ndnrtc =>
    obtain ⟨stream, throws⟩ := Classical.not_imp.mp throws
    obtain ⟨exn, threw⟩ := Option.ne_none_iff_exists'.mp throws
    refine ⟨exn, ?_⟩
    unfold FetchPattern.fetch FetchPattern.fetchNdnrtc call
    rw [if_pos stream, threw]
    rfl
  | gobj => exact absurd trivial throws

/-- A pattern command whose `fetch` throws leaves an object without entry behind. -/
theorem after_abandoned {fetchPrefix : Name} {kind : PatternKind}
    (accepts : Accepts platform repo occurrence.event fetchPrefix kind)
    (throws : ¬FetchPattern.FetchReturns platform occurrence.outcomes kind fetchPrefix) :
    repo.after platform occurrence =
      (repo.addInstance kind).setInstance repo.instances.length (unfetched kind fetchPrefix) := by
  obtain ⟨event, outcomes⟩ := occurrence
  obtain ⟨cmdPrefix, interest, rfl, asks, absent⟩ := accepts
  obtain ⟨exn, threw⟩ := fetch_throws (repo.addInstance kind) repo.instances.length throws
  have apply := onInterest_known platform outcomes asks absent
  rw [bind_apply, startPattern_apply, bind_apply, threw] at apply
  exact final_of_error apply

/-- A new object beside the others. -/
theorem getElem?_concat_of_ne {objects : List FetchPattern} (pattern : FetchPattern)
    (other : instanceId ≠ objects.length) : (objects ++ [pattern])[instanceId]? =
      objects[instanceId]? := by
  rcases Nat.lt_or_gt_of_ne other with below | above
  · exact List.getElem?_append_left below
  · rw [List.getElem?_eq_none_iff.mpr (by rw [List.length_append]; exact above),
      List.getElem?_eq_none (Nat.le_of_lt above)]

/-- A new object is made with its first timers: it is seen as fresh, and the others as before. -/
theorem moves_new {pattern : FetchPattern} {timers : List Timer}
    (idle : takenFrom occurrence.event = none)
    (instances : (repo.after platform occurrence).instances = repo.instances ++ [pattern])
    (armed : (repo.after platform occurrence).face.timers = repo.face.timers ++ timers)
    (own : ∀ timer ∈ timers, timer.pattern = repo.instances.length)
    (interests : (repo.after platform occurrence).face.patternInterests =
      repo.face.patternInterests)
    (fresh : Fresh occurrence.outcomes pattern timers.length) :
    Moves platform repo occurrence instanceId (viewOf repo instanceId)
      (viewOf (repo.after platform occurrence) instanceId) := by
  have elsewhere : takenFrom occurrence.event ≠ some instanceId := by simp [idle]
  have writes : writesOf (repo.after platform occurrence) instanceId = writesOf repo instanceId :=
    writesOf_elsewhere elsewhere
  have asked : interestsOf (repo.after platform occurrence) instanceId =
      interestsOf repo instanceId := by
    unfold interestsOf
    rw [interests]
  by_cases new : instanceId = repo.instances.length
  · subst new
    have count : timers.countP (fun timer => timer.pattern = repo.instances.length) =
        timers.length :=
      List.countP_eq_length.mpr fun timer member => decide_eq_true (own timer member)
    refine .made pattern timers.length elsewhere (List.getElem?_eq_none (Nat.le_refl _)) fresh ?_
    unfold viewOf
    rw [instances, armed, asked, writes, List.getElem?_concat_length, List.countP_append, count]
  · have count : timers.countP (fun timer => timer.pattern = instanceId) = 0 :=
      List.countP_eq_zero.mpr fun timer member => by
        rw [decide_eq_true_eq, own timer member]
        exact Ne.symm new
    refine .still elsewhere ?_
    unfold viewOf
    rw [instances, armed, asked, writes, getElem?_concat_of_ne pattern new, List.countP_append,
      count, Nat.add_zero]

/-- One event: **it moves every pattern object in one of these ways**. -/
theorem moves_after (kept : WellKept repo) (one : AtMostOne repo)
    (enabled : repo.Enabled occurrence.event) :
    Moves platform repo occurrence instanceId (viewOf repo instanceId)
      (viewOf (repo.after platform occurrence) instanceId) := by
  cases change_of_event platform repo occurrence with
  | idle same noCallback _ =>
    have elsewhere : takenFrom occurrence.event ≠ some instanceId := by simp [noCallback]
    exact .still elsewhere (viewOf_congr same (writesOf_elsewhere elsewhere))
  | started fetchPrefix kind accepts same =>
    have side := same.trans (patternSide_patternStarted platform occurrence.outcomes repo kind
      fetchPrefix)
    simp only [patternSide, Prod.mk.injEq] at side
    obtain ⟨_, instances, timers, interests⟩ := side
    refine moves_new (takenFrom_of_accepts accepts) instances timers ?_ interests ?_
    · intro timer member
      cases kind with
      | counter => rw [List.mem_singleton.mp member]
      | _ => cases member
    · cases kind with
      | counter => exact ⟨rfl, fun _ => rfl, rfl⟩
      | _ => rfl
  | abandoned fetchPrefix kind pattern accepts threw same =>
    have left := after_abandoned accepts threw
    have instances : (repo.after platform occurrence).instances =
        repo.instances ++ [unfetched kind fetchPrefix] := by
      rw [left]
      simp [FastRepoImpl.setInstance, FastRepoImpl.addInstance]
    have armed : (repo.after platform occurrence).face.timers = repo.face.timers ++ [] := by
      rw [left, List.append_nil]
      rfl
    refine moves_new (takenFrom_of_accepts accepts) instances armed
      (fun _ member => absurd member List.not_mem_nil) ?_ ?_
    · rw [left]
      rfl
    · cases kind with
      | counter => exact ⟨rfl, fun returns => absurd returns threw, rfl⟩
      | _ => rfl
  | called owner takes =>
    by_cases own : owner = instanceId
    · subst own
      exact moves_called kept one enabled takes
    · refine .still ?_ (viewOf_called_other enabled takes own)
      rw [takes]
      exact fun same => own (Option.some.inj same)
  | ended fetchPrefix ended target found same =>
    have elsewhere : takenFrom occurrence.event ≠ some instanceId := by
      rw [takenFrom_of_target target]
      exact (Option.some_ne_none _).symm
    obtain ⟨kind, known⟩ := kept.object fetchPrefix ended found
    obtain ⟨pattern, object, _⟩ := Option.map_eq_some_iff.mp known
    have side := same.trans (patternSide_ended fetchPrefix object)
    have cancelled : viewOf (repo.after platform occurrence) instanceId =
        viewOf (repo.setInstance ended pattern.cancelled) instanceId := by
      simp only [patternSide, Prod.mk.injEq] at side
      obtain ⟨_, instances, timers, interests⟩ := side
      unfold viewOf
      rw [writesOf_elsewhere elsewhere, instances, timers]
      unfold interestsOf
      rw [interests]
      rfl
    by_cases own : ended = instanceId
    · subst own
      exact .cancelled pattern elsewhere ⟨fetchPrefix, target, found⟩ object
        (cancelled.trans (viewOf_setInstance_self object _))
    · exact .still elsewhere (cancelled.trans (viewOf_setInstance_other own _))

end Step

/-! ### The packets, in order -/

/-- The fetch of a counter pattern is in order: it has written as many packets as it counts, at most
ten, each for the name of its position, and what it has pending is for the next one. -/
structure Ordered (pattern : CounterPattern) (view : View) : Prop where
  counted : view.writes.length = pattern.counter
  limited : pattern.counter ≤ CounterPattern.limit
  named : ∀ (index : Nat) (put : Put), view.writes[index]? = some put →
    pattern.fetchPrefix ++ [.generic (Decimal.decimal index)] <+: put.data.name
  goesOn : 0 < view.timers → pattern.counter < CounterPattern.limit
  asks : ∀ interest ∈ view.interests,
    interest.name = pattern.fetchName ∧ pattern.counter < CounterPattern.limit

/-- What is true of the view of every object: a counter pattern is in order, and no other object
calls back or writes. -/
def InOrder (view : View) : Prop :=
  match view.object with
  | none => view = ⟨none, 0, [], []⟩
  | some (.counter pattern) => Ordered pattern view
  | some _ => view.timers = 0 ∧ view.interests = [] ∧ view.writes = []

section InOrder

variable {platform} {repo : FastRepoImpl} {occurrence : Occurrence} {instanceId : InstanceId}
  {view next : View}

theorem nextTimers_pos {outcomes : Outcomes} {pattern : CounterPattern}
    (due : 0 < nextTimers outcomes pattern) : pattern.counter + 1 < CounterPattern.limit := by
  unfold nextTimers at due
  split at due
  · rename_i schedules
    exact schedules.1
  · exact absurd due (Nat.lt_irrefl 0)

theorem mem_nextInterests {outcomes : Outcomes} {pattern : CounterPattern}
    {interest : PatternInterest} (member : interest ∈ nextInterests outcomes instanceId pattern) :
    interest.name = pattern.fetchName := by
  unfold nextInterests at member
  split at member
  · rw [List.mem_singleton.mp member]
  · exact absurd member List.not_mem_nil

/-- The next packet is for the name at the end. -/
theorem Ordered.answered {pattern : CounterPattern} {interest : PatternInterest} {data : Data}
    {writes : List Put} (ordered : Ordered pattern ⟨some (.counter pattern), 0, [interest], writes⟩)
    (answers : interest.name <+: data.name) (writer : Writer) (n : Name) {timers : Nat}
    (due : 0 < timers → pattern.counter + 1 < CounterPattern.limit) :
    Ordered pattern.next
      ⟨some (.counter pattern.next), timers, [], writes ++ [⟨writer, data, n⟩]⟩ := by
  obtain ⟨name, below⟩ := ordered.asks interest (List.mem_singleton.mpr rfl)
  have counted : writes.length = pattern.counter := ordered.counted
  refine ⟨?_, below, fun index put found => ?_, due, fun _ member => absurd member List.not_mem_nil⟩
  · show (writes ++ [_]).length = pattern.counter + 1
    rw [List.length_append, counted]
    rfl
  · show pattern.fetchPrefix ++ _ <+: _
    rcases Nat.lt_trichotomy index writes.length with earlier | rfl | beyond
    · rw [List.getElem?_append_left earlier] at found
      exact ordered.named index put found
    · rw [List.getElem?_concat_length] at found
      cases found
      rw [counted]
      rw [name] at answers
      exact answers
    · rw [List.getElem?_eq_none (by rw [List.length_append]; exact beyond)] at found
      cases found

/-- Order: **every event keeps the fetch of an object in order**. -/
theorem inOrder_moves (ordered : InOrder view)
    (moves : Moves platform repo occurrence instanceId view next) : InOrder next := by
  cases moves with
  | still _ same => exact same ▸ ordered
  | made pattern timers _ absent fresh same =>
    unfold InOrder at ordered
    rw [absent] at ordered
    subst ordered same
    cases pattern with
    | counter pattern =>
      obtain ⟨zero, _, _⟩ := fresh
      refine ⟨zero.symm, ?_, fun _ _ found => ?_, fun _ => ?_,
        fun _ member => absurd member List.not_mem_nil⟩
      · rw [zero]
        exact Nat.zero_le _
      · cases found
      · rw [zero]
        exact Nat.zero_lt_succ 9
    | _ => exact ⟨by rw [show timers = 0 from fresh], rfl, rfl⟩
  | cancelled pattern _ _ found same =>
    unfold InOrder at ordered
    rw [found] at ordered
    subst same
    cases pattern with
    | counter pattern => exact ⟨ordered.1, ordered.2, ordered.3, ordered.4, ordered.5⟩
    | _ => exact ordered
  | fired timer pattern writes _ _ before same =>
    subst before same
    have below : pattern.counter < CounterPattern.limit := ordered.goesOn Nat.one_pos
    exact ⟨ordered.counted, ordered.limited, ordered.named,
      fun due => absurd due (Nat.lt_irrefl 0),
      fun interest member => ⟨mem_nextInterests member, below⟩⟩
  | answered interest data n pattern writes _ _ answers before same =>
    subst before same
    exact ordered.answered answers _ n nextTimers_pos
  | lost interest pattern writes _ _ before same =>
    subst before same
    exact ⟨ordered.counted, ordered.limited, ordered.named, ordered.goesOn,
      fun _ member => absurd member List.not_mem_nil⟩

end InOrder

/-! ### Runs -/

section Runs

theorem viewOf_started (config : Config) (db : Db) (instanceId : InstanceId) :
    viewOf (started platform config db) instanceId = ⟨none, 0, [], []⟩ := by
  have fresh := patternSide_started platform config db
  have puts : (started platform config db).puts = [] :=
    part_started platform puts (fun _ _ => rfl) (fun _ => rfl) config db
  simp only [patternSide, Prod.mk.injEq] at fresh
  obtain ⟨_, instances, timers, interests⟩ := fresh
  unfold viewOf interestsOf writesOf
  rw [instances, timers, interests, puts]
  rfl

/-- What every reachable state has: the patterns are well kept, and every object is in order. -/
structure Orderly (repo : FastRepoImpl) : Prop where
  kept : WellKept repo
  one : AtMostOne repo
  inOrder : ∀ instanceId, InOrder (viewOf repo instanceId)

theorem orderly_started (config : Config) (db : Db) : Orderly (started platform config db) := by
  refine ⟨wellKept_started platform config db, (activeSide_started platform config db).1,
    fun instanceId => ?_⟩
  rw [viewOf_started]
  exact rfl

variable {platform}

theorem Orderly.moves {repo : FastRepoImpl} {occurrence : Occurrence} (orderly : Orderly repo)
    (enabled : repo.Enabled occurrence.event) (instanceId : InstanceId) :
    Moves platform repo occurrence instanceId (viewOf repo instanceId)
      (viewOf (repo.after platform occurrence) instanceId) :=
  moves_after orderly.kept orderly.one enabled

theorem orderly_step {repo next : FastRepoImpl} {occurrence : Occurrence} (orderly : Orderly repo)
    (step : repo.step platform occurrence = some next) : Orderly next := by
  have kept := wellKept_step platform orderly.kept step
  obtain ⟨enabled, rfl⟩ := (step_eq_some platform).mp step
  exact ⟨kept, atMostOne_after orderly.kept orderly.one enabled,
    fun instanceId => inOrder_moves (orderly.inOrder instanceId) (orderly.moves enabled instanceId)⟩

variable {config : Config} {db : Db} {occurrences : List Occurrence} {repo : FastRepoImpl}

theorem orderly_run (reached : (started platform config db).run platform occurrences = some repo) :
    Orderly repo :=
  Runs.run_invariant (orderly_started platform config db) (fun _ _ _ => orderly_step) reached

/-- Order: **in every run from the start, a counter pattern that lives until its last callback has
written as many packets as it counts, at most ten, the one at each position for the name of that
number, and asks for the next one**, whatever is cancelled, lost or refused in between. -/
theorem fetchesInOrder_run {instanceId : InstanceId} {pattern : CounterPattern}
    (reached : (started platform config db).run platform occurrences = some repo)
    (found : repo.instances[instanceId]? = some (.counter pattern)) :
    Ordered pattern (viewOf repo instanceId) := by
  have inOrder := (orderly_run reached).inOrder instanceId
  unfold InOrder at inOrder
  rw [show (viewOf repo instanceId).object = some (.counter pattern) from found] at inOrder
  exact inOrder

/-- A pattern fetches its first packet, and asks for the second one. -/
def secondInterest : List Occurrence := firstFetch ++ [⟨.timer ⟨2000, 0⟩, {}⟩]

theorem fetchesInOrder_secondInterest :
    ∃ repo, smallRepo.run (tlvPlatform false false) secondInterest = some repo ∧
      (viewOf repo 0).interests = [⟨nameOf ["p", "1"], 4000, 0⟩] ∧
      Ordered ⟨true, 1, nameOf ["p"]⟩ (viewOf repo 0) := by
  have ran : (smallRepo.run (tlvPlatform false false) secondInterest).map
      (fun repo => (repo.instances, interestsOf repo 0)) =
      some ([.counter ⟨true, 1, nameOf ["p"]⟩], [⟨nameOf ["p", "1"], 4000, 0⟩]) := by decide
  obtain ⟨repo, reached, same⟩ := Option.map_eq_some_iff.mp ran
  rw [Prod.mk.injEq] at same
  refine ⟨repo, reached, same.2, fetchesInOrder_run reached ?_⟩
  rw [same.1]
  rfl

end Runs

/-! ### The callbacks, counted -/

/-- The event is a callback of the pattern object: a timer of it fires, or data or a timeout ends
an Interest of it. -/
def isCallback (instanceId : InstanceId) (occurrence : Occurrence) : Bool :=
  takenFrom occurrence.event = some instanceId

/-- How many callbacks a pattern object can have from here on: two for each packet it has not
fetched, of which an outstanding Interest has had the first. -/
def budget (view : View) : Nat :=
  match view.object with
  | none => 2 * CounterPattern.limit
  | some (.counter pattern) => view.timers * (2 * (CounterPattern.limit - pattern.counter)) +
      view.interests.length * (2 * (CounterPattern.limit - pattern.counter) - 1)
  | some _ => 0

section Budget

variable {platform} {repo : FastRepoImpl} {occurrence : Occurrence} {instanceId : InstanceId}
  {view next : View}

theorem isCallback_own (own : takenFrom occurrence.event = some instanceId) :
    (if isCallback instanceId occurrence then 1 else 0) = 1 := if_pos (decide_eq_true own)

theorem isCallback_elsewhere (elsewhere : takenFrom occurrence.event ≠ some instanceId) :
    (if isCallback instanceId occurrence then 1 else 0) = 0 :=
  if_neg fun same => elsewhere (of_decide_eq_true same)

theorem length_nextInterests_le (outcomes : Outcomes) (instanceId : InstanceId)
    (pattern : CounterPattern) : (nextInterests outcomes instanceId pattern).length ≤ 1 := by
  unfold nextInterests
  split
  · exact Nat.le_refl 1
  · exact Nat.zero_le 1

theorem nextTimers_le (outcomes : Outcomes) (pattern : CounterPattern) :
    nextTimers outcomes pattern ≤ 1 := by
  unfold nextTimers
  split
  · exact Nat.le_refl 1
  · exact Nat.zero_le 1

/-- A callback uses up some of the budget of its object, and nothing adds to it. -/
theorem budget_moves (ordered : InOrder view)
    (moves : Moves platform repo occurrence instanceId view next) :
    budget next + (if isCallback instanceId occurrence then 1 else 0) ≤ budget view := by
  cases moves with
  | still here same => rw [isCallback_elsewhere here, same, Nat.add_zero]
  | made pattern timers here absent fresh same =>
    unfold InOrder at ordered
    rw [absent] at ordered
    rw [isCallback_elsewhere here]
    subst ordered same
    cases pattern with
    | counter pattern =>
      obtain ⟨zero, _, armed⟩ := fresh
      have most : timers ≤ 1 := by
        rw [armed]
        split
        · exact Nat.le_refl 1
        · exact Nat.zero_le 1
      simp only [budget, zero, CounterPattern.limit, List.length_nil]
      omega
    | _ => exact Nat.zero_le _
  | cancelled pattern here _ found same =>
    rw [isCallback_elsewhere here]
    unfold budget
    rw [same, found]
    cases pattern <;> exact Nat.le_refl _
  | fired timer pattern writes event own before same =>
    subst before same
    rw [isCallback_own (by rw [event, takenFrom, own])]
    have below : pattern.counter < CounterPattern.limit := ordered.goesOn Nat.one_pos
    have most := length_nextInterests_le occurrence.outcomes instanceId pattern
    simp only [budget, List.length_nil]
    generalize (nextInterests occurrence.outcomes instanceId pattern).length = asked at most
    have cases : asked = 0 ∨ asked = 1 := by omega
    rcases cases with rfl | rfl <;> omega
  | answered interest data n pattern writes event own answers before same =>
    subst before same
    rw [isCallback_own (by rw [event, takenFrom, own])]
    have below := (ordered.asks interest (List.mem_singleton.mpr rfl)).2
    have most := nextTimers_le occurrence.outcomes pattern
    simp only [budget, List.length_nil, List.length_singleton, CounterPattern.next]
    generalize nextTimers occurrence.outcomes pattern = due at most
    have cases : due = 0 ∨ due = 1 := by omega
    rcases cases with rfl | rfl <;> omega
  | lost interest pattern writes own _ before same =>
    subst before same
    rw [isCallback_own own]
    have below := (ordered.asks interest (List.mem_singleton.mpr rfl)).2
    simp only [budget, List.length_nil, List.length_singleton]
    omega

/-- Bounded work: **in every run from the start, a pattern object that lives until its last callback
has at most twenty of them**, one timer and one Interest for each of its ten packets. -/
theorem callbacks_bounded {config : Config} {db : Db} {occurrences : List Occurrence}
    {repo : FastRepoImpl}
    (reached : (started platform config db).run platform occurrences = some repo)
    (instanceId : InstanceId) :
    occurrences.countP (isCallback instanceId) ≤ 2 * CounterPattern.limit := by
  have spent := Runs.countP_le_of_budget (I := Orderly) (isCallback instanceId)
    (fun repo => budget (viewOf repo instanceId)) (orderly_started platform config db)
    (fun _ _ _ => orderly_step) (fun s occurrence next orderly step => by
      obtain ⟨enabled, rfl⟩ := (step_eq_some platform).mp step
      exact budget_moves (orderly.inOrder instanceId) (orderly.moves enabled instanceId)) reached
  rw [viewOf_started] at spent
  exact Nat.le_trans (Nat.le_add_right _ _) spent

theorem callbacks_secondInterest :
    secondInterest.countP (isCallback 0) ≤ 2 * CounterPattern.limit := by
  have ran : (smallRepo.run (tlvPlatform false false) secondInterest).isSome = true := by decide
  exact callbacks_bounded (Option.some_get ran).symm 0

end Budget

/-! ### An undisturbed fetch -/

/-- An event does not disturb a pattern object: it does not ask to end its entry, no Interest of the
object times out, and the calls the object makes return, its first one included. -/
structure Undisturbed (instanceId : InstanceId) (repo : FastRepoImpl) (occurrence : Occurrence) :
    Prop where
  noEnd : ¬Ends platform repo occurrence instanceId
  noTimeout : ∀ interest, occurrence.event = .counterTimeout interest →
    interest.pattern ≠ instanceId
  made : repo.instances[instanceId]? = none → occurrence.outcomes.throws .callLater = none
  stores : takenFrom occurrence.event = some instanceId →
    occurrence.outcomes.throws .storagePut = none
  expresses : takenFrom occurrence.event = some instanceId →
    occurrence.outcomes.throws .expressInterest = none
  schedules : takenFrom occurrence.event = some instanceId →
    occurrence.outcomes.throws .callLater = none

/-- No step of a run disturbs a pattern object. -/
def UndisturbedRun (start : FastRepoImpl) (occurrences : List Occurrence)
    (instanceId : InstanceId) : Prop :=
  ∀ repo occurrence, Runs.Takes (step platform) start occurrences repo occurrence →
    Undisturbed platform instanceId repo occurrence

/-- A counter pattern after some number of its callbacks: it has fetched a packet for every two of
them, and until the last one it has a timer pending after an even number and an Interest after an
odd one. -/
structure Paced (callbacks : Nat) (pattern : CounterPattern) (view : View) : Prop where
  most : callbacks ≤ 2 * CounterPattern.limit
  counter : pattern.counter = callbacks / 2
  running : pattern.running = true ↔ callbacks < 2 * CounterPattern.limit
  timers : view.timers = if callbacks < 2 * CounterPattern.limit ∧ callbacks % 2 = 0 then 1 else 0
  interests : view.interests.length = callbacks % 2

/-- What is true of the view of every object after some number of its callbacks. -/
def InPace (callbacks : Nat) (view : View) : Prop :=
  match view.object with
  | some (.counter pattern) => Paced callbacks pattern view
  | _ => callbacks = 0

section Pace

variable {platform} {occurrence : Occurrence} {instanceId : InstanceId} {view next : View}
  {callbacks : Nat}

/-- The first callback of two: the timer fires, and the Interest is expressed. -/
theorem Paced.fired {pattern : CounterPattern} {writes : List Put} {outcomes : Outcomes}
    (paced : Paced callbacks pattern ⟨some (.counter pattern), 1, [], writes⟩)
    (expresses : outcomes.throws .expressInterest = none) (instanceId : InstanceId) :
    Paced (callbacks + 1) pattern
      ⟨some (.counter pattern), 0, nextInterests outcomes instanceId pattern, writes⟩ := by
  obtain ⟨most, counter, running, timers, interests⟩ := paced
  simp only [List.length_nil] at timers interests
  have even : callbacks < 2 * CounterPattern.limit ∧ callbacks % 2 = 0 := by
    by_contra odd
    rw [if_neg odd] at timers
    cases timers
  have asked : nextInterests outcomes instanceId pattern =
      [⟨pattern.fetchName, 4000, instanceId⟩] := if_pos ⟨running.mpr even.1, expresses⟩
  refine ⟨by omega, by omega, running.trans ⟨fun _ => by omega, fun _ => even.1⟩, ?_, ?_⟩
  · exact (if_neg fun both => by omega).symm
  · rw [asked, List.length_singleton]
    omega

/-- The second callback of two: the packet arrives, and the next timer is set unless it is the
last one. -/
theorem Paced.answered {pattern : CounterPattern} {interest : PatternInterest}
    {writes more : List Put} {outcomes : Outcomes}
    (paced : Paced callbacks pattern ⟨some (.counter pattern), 0, [interest], writes⟩)
    (schedules : outcomes.throws .callLater = none) :
    Paced (callbacks + 1) pattern.next
      ⟨some (.counter pattern.next), nextTimers outcomes pattern, [], more⟩ := by
  obtain ⟨most, counter, running, timers, interests⟩ := paced
  simp only [List.length_singleton] at interests
  have goesOn : pattern.counter + 1 < CounterPattern.limit ↔
      callbacks + 1 < 2 * CounterPattern.limit := by omega
  have ran : pattern.running = true := running.mpr (by omega)
  have due : CounterPattern.Schedules outcomes pattern ↔
      callbacks + 1 < 2 * CounterPattern.limit :=
    (and_iff_left schedules).trans goesOn
  refine ⟨by omega, ?_, ?_, ?_, ?_⟩
  · show pattern.counter + 1 = _
    omega
  · simp only [CounterPattern.next, ran, Bool.true_and, decide_eq_true_eq]
    exact goesOn
  · show nextTimers outcomes pattern = _
    unfold nextTimers
    by_cases last : callbacks + 1 < 2 * CounterPattern.limit
    · rw [if_pos (due.mpr last), if_pos ⟨last, by omega⟩]
    · rw [if_neg (mt due.mp last), if_neg fun both => last both.1]
  · show 0 = _
    omega

/-- An event that does not disturb an object takes it along by one callback, or none. -/
theorem inPace_moves {repo : FastRepoImpl}
    (undisturbed : Undisturbed platform instanceId repo occurrence) (ordered : InOrder view)
    (seen : view.object = repo.instances[instanceId]?) (pace : InPace callbacks view)
    (moves : Moves platform repo occurrence instanceId view next) :
    InPace (callbacks + if isCallback instanceId occurrence then 1 else 0) next := by
  cases moves with
  | still here same =>
    rw [isCallback_elsewhere here, same]
    exact pace
  | made pattern timers here absent fresh same =>
    have returns := undisturbed.made (seen.symm.trans absent)
    unfold InOrder at ordered
    rw [absent] at ordered
    subst ordered same
    have none : callbacks = 0 := pace
    rw [isCallback_elsewhere here, none]
    cases pattern with
    | counter pattern =>
      obtain ⟨zero, runs, armed⟩ := fresh
      have running := runs returns
      rw [running] at armed
      exact ⟨by decide, zero, ⟨fun _ => by decide, fun _ => running⟩,
        (Nat.zero_add timers).trans armed, rfl⟩
    | _ => exact rfl
  | cancelled pattern _ ends _ _ => exact absurd ends undisturbed.noEnd
  | fired timer pattern writes event own before same =>
    have taken : takenFrom occurrence.event = some instanceId := by rw [event, takenFrom, own]
    subst before same
    rw [isCallback_own taken]
    exact Paced.fired pace (undisturbed.expresses taken) instanceId
  | answered interest data n pattern writes event own answers before same =>
    have taken : takenFrom occurrence.event = some instanceId := by rw [event, takenFrom, own]
    subst before same
    rw [isCallback_own taken]
    exact Paced.answered pace (undisturbed.schedules taken)
  | lost interest pattern writes own loses before same =>
    exfalso
    have stores := undisturbed.stores own
    have noTimeout := undisturbed.noTimeout
    obtain ⟨event, outcomes⟩ := occurrence
    cases event with
    | counterTimeout other => exact noTimeout other rfl (Option.some.inj own)
    | counterData other data => exact loses stores
    | _ => exact loses

theorem InPace.paced {pattern : CounterPattern} (pace : InPace callbacks view)
    (found : view.object = some (.counter pattern)) : Paced callbacks pattern view := by
  unfold InPace at pace
  rw [found] at pace
  exact pace

/-- A run that does not disturb an object takes it along by its callbacks. -/
theorem inPace_run {config : Config} {db : Db} {occurrences : List Occurrence} {repo : FastRepoImpl}
    (reached : (started platform config db).run platform occurrences = some repo)
    (undisturbed : UndisturbedRun platform (started platform config db) occurrences instanceId) :
    InPace (occurrences.countP (isCallback instanceId)) (viewOf repo instanceId) := by
  have both := Runs.run_history_of
    (I := fun occurrences repo => Orderly repo ∧
      InPace (occurrences.countP (isCallback instanceId)) (viewOf repo instanceId))
    ⟨orderly_started platform config db, ?_⟩
    (fun occurrences occurrence repo next undisturbed before took => ?_) undisturbed reached
  · exact both.2
  · rw [viewOf_started]
    exact rfl
  · refine ⟨orderly_step before.1 took, ?_⟩
    obtain ⟨enabled, rfl⟩ := (step_eq_some platform).mp took
    rw [List.countP_append, List.countP_singleton]
    exact inPace_moves undisturbed (before.1.inOrder instanceId) rfl before.2
      (before.1.moves enabled instanceId)

/-- Progress: **in every run from the start that does not disturb a counter pattern, it has fetched a
packet for every two of its callbacks, and until it has fetched all ten it has exactly one callback
pending**, whatever happens to other patterns, which live until their last callbacks, and to
commands in between. -/
theorem paced_run {config : Config} {db : Db} {occurrences : List Occurrence} {repo : FastRepoImpl}
    (reached : (started platform config db).run platform occurrences = some repo)
    (undisturbed : UndisturbedRun platform (started platform config db) occurrences instanceId)
    {pattern : CounterPattern} (found : repo.instances[instanceId]? = some (.counter pattern)) :
    Paced (occurrences.countP (isCallback instanceId)) pattern (viewOf repo instanceId) :=
  (inPace_run reached undisturbed).paced found

/-- A pattern in pace that has nothing pending has fetched everything. -/
theorem Paced.finished {pattern : CounterPattern} (paced : Paced callbacks pattern view)
    (noTimer : view.timers = 0) (noInterest : view.interests = []) :
    pattern.counter = CounterPattern.limit ∧ pattern.running = false := by
  obtain ⟨most, counter, running, timers, interests⟩ := paced
  rw [noInterest, List.length_nil] at interests
  have spent : ¬callbacks < 2 * CounterPattern.limit := by
    intro below
    rw [noTimer, if_pos ⟨below, interests.symm⟩] at timers
    cases timers
  refine ⟨?_, Bool.eq_false_iff.mpr (mt running.mp spent)⟩
  rw [counter]
  omega

/-- A run whose callees all return and which ends no entry and has no timeout disturbs no object. -/
theorem undisturbedRun_of_quiet {start : FastRepoImpl} {occurrences : List Occurrence}
    (quiet : ∀ occurrence ∈ occurrences, occurrence.outcomes.Quiet)
    (noTarget : ∀ occurrence ∈ occurrences, cancelTarget platform occurrence.event = none)
    (noTimeout : ∀ occurrence ∈ occurrences, ∀ interest,
      occurrence.event ≠ .counterTimeout interest) (instanceId : InstanceId) :
    UndisturbedRun platform start occurrences instanceId := by
  rintro repo occurrence ⟨before, within, _⟩
  have member : occurrence ∈ occurrences := within.subset (by simp)
  have returns := quiet occurrence member
  refine ⟨?_, fun interest event => absurd event (noTimeout occurrence member interest),
    fun _ => returns _, fun _ => returns _, fun _ => returns _, fun _ => returns _⟩
  rintro ⟨fetchPrefix, target, _⟩
  rw [noTarget occurrence member] at target
  cases target

/-- After three callbacks the pattern has fetched one packet, and its second Interest is
outstanding. -/
theorem paced_secondInterest : ∃ repo : FastRepoImpl,
    repo.instances[0]? = some (.counter ⟨true, 1, nameOf ["p"]⟩) ∧
      Paced 3 ⟨true, 1, nameOf ["p"]⟩ (viewOf repo 0) := by
  let events : List Occurrence :=
    [startCounter, ⟨.timer ⟨1, 0⟩, {}⟩, firstData, ⟨.timer ⟨2000, 0⟩, {}⟩]
  have ran : (smallRepo.run (tlvPlatform false false) events).map (fun repo => repo.instances[0]?) =
      some (some (.counter ⟨true, 1, nameOf ["p"]⟩)) := by decide
  have noTarget : ∀ occurrence ∈ events,
      cancelTarget (tlvPlatform false false) occurrence.event = none := by decide
  obtain ⟨repo, reached, found⟩ := Option.map_eq_some_iff.mp ran
  refine ⟨repo, found, paced_run reached (undisturbedRun_of_quiet (fun occurrence member => ?_)
    noTarget (fun occurrence member interest => ?_) 0) found⟩ <;>
    simp only [events, List.mem_cons, List.not_mem_nil, or_false] at member <;>
    rcases member with rfl | rfl | rfl | rfl <;> first | exact fun _ => rfl | exact Event.noConfusion

end Pace

end CounterFetch

end FastRepo
