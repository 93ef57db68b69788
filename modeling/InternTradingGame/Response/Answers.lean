import InternTradingGame.Response.Bookkeeping
import InternTradingGame.Response.Waiting

/-!
# Every waiting call is answered

A call of `wait_for_completion` returns a result for its own request, unless
a cleanup or the end of a shutdown removes the request while the call still
needs it: before the call has looked the request up, or after the event has
been set and before the call has taken the result.
-/

namespace InternTradingGame

open Coordinator

/-! ## Removing a request that is still needed -/

/-- The step removes the request from the two dictionaries. -/
def Removes (config : CoordinationConfig) (requestId : String) :
    CoordinatorCall → Entry → Prop
  | .cleanup clock, entry =>
      Entry.Removable config clock requestId entry
  | .finishShutdown, entry => entry.pending = true
  | _, _ => False

instance (config : CoordinationConfig) (requestId : String)
    (call : CoordinatorCall) (entry : Entry) :
    Decidable (Removes config requestId call entry) := by
  rcases call
  case cleanup clock =>
      exact inferInstanceAs
        (Decidable (Entry.Removable config clock requestId entry))
  case finishShutdown =>
      exact inferInstanceAs (Decidable (entry.pending = true))
  all_goals exact inferInstanceAs (Decidable False)

/-- The step is a cleanup which sets the event of the request. -/
def Signals (requestId : String) : CoordinatorCall → Entry → Prop
  | .cleanup clock, entry =>
      ∃ request ∈ entry.request,
        request.isExpired (clock.checkedAt requestId) ∧
          request.status ≠ .timeout
  | _, _ => False

instance (requestId : String) (call : CoordinatorCall)
    (entry : Entry) : Decidable (Signals requestId call entry) := by
  rcases call
  case cleanup clock =>
      exact inferInstanceAs
        (Decidable
          (∃ request ∈ entry.request,
            request.isExpired (clock.checkedAt requestId) ∧
              request.status ≠ .timeout))
  all_goals exact inferInstanceAs (Decidable False)

/-- The call would miss the request if the step removed it. -/
def Wait.Needs (requestId : String) (call : CoordinatorCall)
    (wait : Wait) : Prop :=
  match wait.place with
  | none => True
  | some (.waiting _) =>
      wait.entry.Signalled ∨ Signals requestId call wait.entry
  | some .signalled => True
  | some _ => False

instance (requestId : String) (call : CoordinatorCall) (wait : Wait) :
    Decidable (wait.Needs requestId call) := by
  unfold Wait.Needs
  split <;> infer_instance

/-- No request is removed that its call still needs. -/
def Spares (caller : ℕ) (requestId : String) (call : CoordinatorCall)
    (state : ResponseSystem) : Prop :=
  Removes state.coordinator.config requestId call
      (state.coordinator.entry requestId) →
    ¬ (state.wait caller requestId).Needs requestId call

instance (caller : ℕ) (requestId : String) (call : CoordinatorCall)
    (state : ResponseSystem) :
    Decidable (Spares caller requestId call state) :=
  inferInstanceAs (Decidable (_ → ¬ _))

/-! ## Calls that will be answered, and calls that will not -/

namespace Entry

variable {entry : Entry} {requestId : String}

/-- A pending request whose event is set has a result. -/
def Holds (entry : Entry) : Prop :=
  entry.pending = true → entry.Signalled → entry.result.isSome = true

theorem holds_of_gone (gone : entry.pending = false) : entry.Holds := by
  intro pending
  rw [gone] at pending
  exact absurd pending (by decide)

/-- What a step does to an entry that it does not remove. -/
structure Proceeds (before after : Entry) : Prop where
  known : after.request ≠ none →
    before.request ≠ none ∨ after.pending = true
  pending : before.pending = true → after.pending = true
  signalled : before.Signalled → after.Signalled
  signal : after.Signalled → before.Signalled ∨ after.pending = true
  holds : before.Holds → after.Holds

theorem proceeds_refl (entry : Entry) : entry.Proceeds entry where
  known := Or.inl
  pending := id
  signalled := id
  signal := Or.inl
  holds := id

/-- A pending request is replaced by one whose event is still set. -/
theorem proceeds_of_live {request changed : PendingRequest}
    {result : Option ResponseResult}
    (live : entry.live = some request)
    (event : request.completionEvent = true →
      changed.completionEvent = true)
    (holds : entry.Holds → changed.completionEvent = true →
      result.isSome = true) :
    entry.Proceeds
      { entry with
        request := some changed
        result := result } where
  known _ := Or.inr (live_eq_some_iff.mp live).1
  pending := id
  signalled := by
    rintro ⟨stored, member, set⟩
    obtain rfl : request = stored :=
      Option.some.inj ((live_eq_some_iff.mp live).2.symm.trans member)
    exact ⟨changed, rfl, event set⟩
  signal _ := Or.inr (live_eq_some_iff.mp live).1
  holds before := by
    rintro _ ⟨stored, member, set⟩
    rcases Option.some.inj member with rfl
    exact holds before set

theorem proceeds_registered (absent : entry.request = none)
    {request : PendingRequest}
    (unset : request.completionEvent = false) :
    entry.Proceeds (entry.registered request) where
  known _ := Or.inr rfl
  pending _ := rfl
  signalled := by
    rintro ⟨stored, member, _⟩
    rw [absent] at member
    simp at member
  signal _ := Or.inr rfl
  holds _ := by
    rintro _ ⟨stored, member, set⟩
    rcases Option.some.inj member with rfl
    rw [unset] at set
    exact absurd set (by decide)

theorem proceeds_notified (entry : Entry) (response : ApiResponse)
    (orderId : Option String) (now : ℚ) :
    entry.Proceeds (entry.notified requestId response orderId now) := by
  unfold Entry.notified
  cases live : entry.live with
  | none => exact proceeds_refl entry
  | some request =>
      dsimp only
      split_ifs
      · exact proceeds_refl entry
      · exact proceeds_of_live live (fun _ => rfl) (fun _ _ => rfl)

theorem proceeds_cutOff (entry : Entry) (now : ℚ) :
    entry.Proceeds (entry.cutOff now) := by
  unfold Entry.cutOff
  cases live : entry.live with
  | none => exact proceeds_refl entry
  | some request =>
      dsimp only
      split_ifs
      · exact proceeds_refl entry
      · exact proceeds_of_live live (fun _ => rfl) (fun _ _ => rfl)

theorem proceeds_updated (entry : Entry) (status : ResponseStatus)
    (stageDetails : Option StageDetails) :
    entry.Proceeds (entry.updated status stageDetails) := by
  unfold Entry.updated
  cases live : entry.live with
  | none => exact proceeds_refl entry
  | some request =>
      dsimp only
      split_ifs
      · exact proceeds_refl entry
      · have kept :=
          (updateStage_keeps { request with status := status }
            stageDetails).2
        rcases live_eq_some_iff.mp live with ⟨pending, stored⟩
        apply proceeds_of_live live
        · intro set
          rw [kept]
          exact set
        · intro holds set
          rw [kept] at set
          exact holds pending ⟨request, stored, set⟩

/-- A cleanup sets the event only of a request that has expired. -/
theorem signalled_cleaned_iff {config : CoordinationConfig}
    {clock : CleanupClock}
    (removable : Removable config clock requestId entry) :
    (entry.cleaned config clock requestId).Signalled ↔
      entry.Signalled ∨ Signals requestId (.cleanup clock) entry := by
  rcases id removable with ⟨request, live, _⟩
  have stored := (live_eq_some_iff.mp live).2
  unfold Entry.cleaned
  rw [if_pos removable]
  simp only [Signalled, Signals, stored, Option.map_some,
    Option.mem_some_iff, exists_eq_left', afterCleanup, handled]
  split_ifs with expired already
  · simp [already]
  · simp [expired, already]
  · simp [expired]

theorem gone_cleaned {config : CoordinationConfig}
    {clock : CleanupClock}
    (removable : Removable config clock requestId entry) :
    (entry.cleaned config clock requestId).pending = false ∧
      (entry.cleaned config clock requestId).request ≠ none := by
  rcases id removable with ⟨request, live, _⟩
  have stored := (live_eq_some_iff.mp live).2
  unfold Entry.cleaned
  rw [if_pos removable, stored]
  simp

end Entry

/-- The call has been, or can still be, answered. -/
def Wait.Answerable (requestId : String) (wait : Wait) : Prop :=
  match wait.place with
  | none => wait.entry.request ≠ none → wait.entry.pending = true
  | some (.waiting _) =>
      wait.entry.Signalled → wait.entry.pending = true
  | some .signalled =>
      wait.entry.Signalled ∧ wait.entry.pending = true
  | some (.expired _) => True
  | some (.timedOut result) => result.requestId = requestId
  | some (.finished outcome) =>
      ∃ result, outcome = .ok result ∧ result.requestId = requestId

/-- The call will raise an exception, or has raised one. -/
structure Wait.Missed (wait : Wait) : Prop where
  known : wait.entry.request ≠ none
  gone : wait.entry.pending = false
  place :
    match wait.place with
    | none => True
    | some (.waiting _) => wait.entry.Signalled
    | some .signalled => True
    | some (.finished (.error _)) => True
    | some _ => False

namespace Wait

variable {requestId : String} {entry after : Entry}
  {place : Option WaiterState}

/-- A step which does not remove the request keeps the call answerable. -/
theorem Answerable.proceeds
    (answerable : Answerable requestId ⟨entry, place⟩)
    (proceeds : entry.Proceeds after) :
    Answerable requestId ⟨after, place⟩ := by
  cases place with
  | none =>
      intro known
      rcases proceeds.known known with before | pending
      · exact proceeds.pending (answerable before)
      · exact pending
  | some place =>
      cases place with
      | waiting seconds =>
          intro signalled
          rcases proceeds.signal signalled with before | pending
          · exact proceeds.pending (answerable before)
          · exact pending
      | signalled =>
          exact
            ⟨proceeds.signalled answerable.1,
              proceeds.pending answerable.2⟩
      | expired seconds => trivial
      | timedOut result => exact answerable
      | finished outcome => exact answerable

/-- A step which removes a request keeps the calls which do not need it. -/
theorem Answerable.removed
    (answerable : Answerable requestId ⟨entry, place⟩)
    {call : CoordinatorCall}
    (unneeded : ¬ Needs requestId call ⟨entry, place⟩)
    (signal : after.Signalled →
      entry.Signalled ∨ Signals requestId call entry) :
    Answerable requestId ⟨after, place⟩ := by
  cases place with
  | none => exact absurd trivial unneeded
  | some place =>
      cases place with
      | waiting seconds =>
          intro signalled
          exact absurd (signal signalled) unneeded
      | signalled => exact absurd trivial unneeded
      | expired seconds => trivial
      | timedOut result => exact answerable
      | finished outcome => exact answerable

/-- A removed request which the call needs is missed. -/
theorem missed_of_removed
    {call : CoordinatorCall}
    (needed : Needs requestId call ⟨entry, place⟩)
    (known : after.request ≠ none)
    (gone : after.pending = false)
    (signal : entry.Signalled ∨ Signals requestId call entry →
      after.Signalled) :
    Missed ⟨after, place⟩ := by
  refine ⟨known, gone, ?_⟩
  cases place with
  | none => trivial
  | some place =>
      cases place with
      | waiting seconds => exact signal needed
      | signalled => trivial
      | _ => exact absurd needed id

end Wait

/-! ## One step -/

section Steps

variable {config : CoordinationConfig} {caller : ℕ}
  {requestId : String} {state : ResponseSystem} {call : CoordinatorCall}

/-- The call is answerable, and a set event has its result. -/
structure Attended (config : CoordinationConfig) (caller : ℕ)
    (requestId : String) (state : ResponseSystem) : Prop where
  shape : Shape config state.coordinator
  alone : Alone caller requestId state
  holds : (state.wait caller requestId).entry.Holds
  answerable : (state.wait caller requestId).Answerable requestId

/-- The request was removed although its call needed it. -/
structure Abandoned (config : CoordinationConfig) (caller : ℕ)
    (requestId : String) (state : ResponseSystem) : Prop where
  shape : Shape config state.coordinator
  alone : Alone caller requestId state
  missed : (state.wait caller requestId).Missed

theorem holds_waitStep {before after : Wait}
    (step : WaitStep config caller requestId call before after)
    (holds : before.entry.Holds) : after.entry.Holds := by
  cases step with
  | elsewhere irrelevant => exact holds
  | register fresh active unset =>
      exact (Entry.proceeds_registered fresh unset).holds holds
  | start known pending => exact holds
  | refuse known gone => exact holds
  | wake signalled => exact holds
  | expire unset => exact holds
  | compose stored => exact holds
  | take pending stored => exact Entry.holds_of_gone rfl
  | takeFails missing => exact holds
  | @giveUp entry result =>
      unfold Entry.givenUp
      cases entry.live with
      | none => exact holds
      | some request => exact Entry.holds_of_gone rfl
  | @notify entry place response orderId now =>
      exact
        (Entry.proceeds_notified entry response orderId now).holds holds
  | @updateStatus entry place status stageDetails =>
      exact
        (Entry.proceeds_updated entry status stageDetails).holds holds
  | @cleanup entry place clock =>
      by_cases removable :
          Entry.Removable config clock requestId entry
      · exact Entry.holds_of_gone (Entry.gone_cleaned removable).1
      · unfold Entry.cleaned
        rw [if_neg removable]
        exact holds
  | @beginShutdown entry place clock =>
      exact (Entry.proceeds_cutOff entry (clock requestId)).holds holds
  | finishShutdown => exact Entry.holds_of_gone rfl

/-- A step which removes nothing that is needed. -/
theorem answerable_waitStep {before after : Wait}
    (step : WaitStep config caller requestId call before after)
    (proper : before.entry.Proper requestId)
    (holds : before.entry.Holds)
    (answerable : before.Answerable requestId)
    (spares : Removes config requestId call before.entry →
      ¬ before.Needs requestId call) :
    after.Answerable requestId := by
  cases step with
  | elsewhere irrelevant => exact answerable
  | register fresh active unset =>
      exact
        Wait.Answerable.proceeds answerable
          (Entry.proceeds_registered fresh unset)
  | start known pending =>
      intro _
      exact pending
  | refuse known gone =>
      have pending := answerable known
      rw [gone] at pending
      exact absurd pending (by decide)
  | wake signalled => exact ⟨signalled, answerable signalled⟩
  | expire unset => trivial
  | compose stored => rfl
  | take pending stored =>
      exact ⟨_, rfl, proper.result _ stored⟩
  | takeFails missing =>
      rcases answerable with ⟨signalled, pending⟩
      exact absurd ⟨pending, holds pending signalled⟩ missing
  | giveUp => exact ⟨_, rfl, answerable⟩
  | @notify entry place response orderId now =>
      exact
        Wait.Answerable.proceeds answerable
          (Entry.proceeds_notified entry response orderId now)
  | @updateStatus entry place status stageDetails =>
      exact
        Wait.Answerable.proceeds answerable
          (Entry.proceeds_updated entry status stageDetails)
  | @cleanup entry place clock =>
      by_cases removable :
          Entry.Removable config clock requestId entry
      · exact
          Wait.Answerable.removed answerable (spares removable)
            (Entry.signalled_cleaned_iff removable).mp
      · unfold Entry.cleaned
        rw [if_neg removable]
        exact answerable
  | @beginShutdown entry place clock =>
      exact
        Wait.Answerable.proceeds answerable
          (Entry.proceeds_cutOff entry (clock requestId))
  | @finishShutdown entry place =>
      by_cases pending : entry.pending = true
      · exact
          Wait.Answerable.removed answerable (spares pending) Or.inl
      · rw [Bool.not_eq_true] at pending
        cases place with
        | none =>
            intro known
            have still := answerable known
            rw [pending] at still
            exact absurd still (by decide)
        | some place =>
            cases place with
            | waiting seconds =>
                intro signalled
                have still := answerable signalled
                rw [pending] at still
                exact absurd still (by decide)
            | signalled =>
                have still := answerable.2
                rw [pending] at still
                exact absurd still (by decide)
            | expired seconds => trivial
            | timedOut result => exact answerable
            | finished outcome => exact answerable

/-- The step which removes a request that is needed. -/
theorem missed_waitStep {before after : Wait}
    (step : WaitStep config caller requestId call before after)
    (proper : before.entry.Proper requestId)
    (removes : Removes config requestId call before.entry)
    (needed : before.Needs requestId call) :
    after.Missed := by
  cases call with
  | cleanup clock =>
      cases step with
      | elsewhere irrelevant => exact absurd irrelevant id
      | cleanup =>
          have gone := Entry.gone_cleaned removes
          exact
            Wait.missed_of_removed needed gone.2 gone.1
              (Entry.signalled_cleaned_iff removes).mpr
  | finishShutdown =>
      cases step with
      | elsewhere irrelevant => exact absurd irrelevant id
      | @finishShutdown entry place =>
          rcases proper.known removes with ⟨request, stored⟩
          apply Wait.missed_of_removed needed
          · show entry.request ≠ none
            rw [show entry.request = some request from stored]
            simp
          · rfl
          · rintro (signalled | signals)
            · exact signalled
            · exact absurd signals id
  | _ => exact absurd removes id

/-- A request that is missed stays so. -/
theorem missed_stays {before after : Wait}
    (step : WaitStep config caller requestId call before after)
    (missed : before.Missed) : after.Missed := by
  rcases missed with ⟨known, gone, place⟩
  cases step with
  | elsewhere irrelevant => exact ⟨known, gone, place⟩
  | register fresh active unset => exact absurd fresh known
  | start _ pending =>
      rw [show _ = false from gone] at pending
      exact absurd pending (by decide)
  | refuse => exact ⟨known, gone, trivial⟩
  | wake signalled => exact ⟨known, gone, trivial⟩
  | expire unset => exact absurd place unset
  | compose stored => exact absurd place id
  | take pending stored =>
      rw [show _ = false from gone] at pending
      exact absurd pending (by decide)
  | takeFails missing => exact ⟨known, gone, trivial⟩
  | giveUp => exact absurd place id
  | @notify entry _ response orderId now =>
      have same :
          entry.notified requestId response orderId now = entry := by
        unfold Entry.notified
        rw [Entry.live_eq_none_of_not_pending gone]
      rw [same]
      exact ⟨known, gone, place⟩
  | @updateStatus entry _ status stageDetails =>
      have same : entry.updated status stageDetails = entry := by
        unfold Entry.updated
        rw [Entry.live_eq_none_of_not_pending gone]
      rw [same]
      exact ⟨known, gone, place⟩
  | @cleanup entry _ clock =>
      have kept : ¬ Entry.Removable config clock requestId entry := by
        rintro ⟨request, live, _⟩
        rw [Entry.live_eq_none_of_not_pending gone] at live
        simp at live
      have same : entry.cleaned config clock requestId = entry := by
        unfold Entry.cleaned
        rw [if_neg kept]
      rw [same]
      exact ⟨known, gone, place⟩
  | @beginShutdown entry _ clock =>
      have same : entry.cutOff (clock requestId) = entry := by
        unfold Entry.cutOff
        rw [Entry.live_eq_none_of_not_pending gone]
      rw [same]
      exact ⟨known, gone, place⟩
  | finishShutdown => exact ⟨known, rfl, place⟩

theorem attended_execute
    (attended : Attended config caller requestId state)
    (guard : call.AwaitedOnce caller requestId state)
    (spares : Spares caller requestId call state) :
    Attended config caller requestId (call.execute state) := by
  have step :=
    (waitStep_execute attended.shape attended.alone guard).1
  unfold Spares at spares
  rw [attended.shape.configured] at spares
  constructor
  · exact CoordinatorCall.shape_execute attended.shape call
  · exact (waitStep_execute attended.shape attended.alone guard).2
  · exact holds_waitStep step attended.holds
  · exact
      answerable_waitStep step (attended.shape.proper requestId)
        attended.holds attended.answerable spares

theorem abandoned_of_not_spares
    (attended : Attended config caller requestId state)
    (guard : call.AwaitedOnce caller requestId state)
    (removesNeeded : ¬ Spares caller requestId call state) :
    Abandoned config caller requestId (call.execute state) := by
  have step :=
    (waitStep_execute attended.shape attended.alone guard).1
  unfold Spares at removesNeeded
  rw [attended.shape.configured] at removesNeeded
  rcases Classical.not_imp.mp removesNeeded with ⟨removes, needed⟩
  constructor
  · exact CoordinatorCall.shape_execute attended.shape call
  · exact (waitStep_execute attended.shape attended.alone guard).2
  · exact
      missed_waitStep step (attended.shape.proper requestId) removes
        (not_not.mp needed)

theorem abandoned_execute
    (abandoned : Abandoned config caller requestId state)
    (guard : call.AwaitedOnce caller requestId state) :
    Abandoned config caller requestId (call.execute state) := by
  have step := waitStep_execute abandoned.shape abandoned.alone guard
  constructor
  · exact CoordinatorCall.shape_execute abandoned.shape call
  · exact step.2
  · exact missed_stays step.1 abandoned.missed

theorem attended_start (config : CoordinationConfig) (caller : ℕ)
    (requestId : String) :
    Attended config caller requestId (.start config) := by
  have empty :
      (ResponseSystem.start config).wait caller requestId =
        ⟨⟨none, false, none⟩, none⟩ := by
    unfold ResponseSystem.wait ResponseSystem.start
    rw [entry_new]
    rfl
  constructor
  · exact Shape.new config
  · exact Alone.start caller requestId config
  · rw [empty]
    exact Entry.holds_of_gone rfl
  · rw [empty]
    intro known
    exact absurd rfl known

end Steps

/-! ## Waiting calls return -/

/-- A step of the call with the number, after its lookup. -/
def CoordinatorCall.By (caller : ℕ) : CoordinatorCall → Prop
  | .wake number => number = caller
  | .expire number => number = caller
  | .composeTimeout number _ => number = caller
  | .takeResult number => number = caller
  | .giveUp number => number = caller
  | _ => False

/-- The call returns or raises after a few more steps of its own. -/
def Finishes (caller : ℕ) (requestId : String)
    (state : ResponseSystem) : Prop :=
  ∃ own finish outcome,
    Run (WaitedStep caller requestId) state own finish ∧
      (∀ call ∈ own, call.By caller) ∧
        finish.waiters.get? caller =
          some ⟨requestId, .finished outcome⟩

section Finishing

variable {config : CoordinationConfig} {caller : ℕ}
  {requestId : String} {state : ResponseSystem}

theorem Finishes.of_step {call : CoordinatorCall}
    (guard : call.AwaitedOnce caller requestId state)
    (own_step : call.By caller)
    (later : Finishes caller requestId (call.execute state)) :
    Finishes caller requestId state := by
  rcases later with ⟨own, finish, outcome, run, steps, finished⟩
  refine
    ⟨call :: own, finish, outcome, Run.cons ⟨guard, rfl⟩ run, ?_,
      finished⟩
  intro other member
  rcases List.mem_cons.mp member with rfl | member
  · exact own_step
  · exact steps other member

theorem finishes_of_finished
    {outcome : Except PyError ResponseResult}
    (stored :
      state.waiters.get? caller =
        some ⟨requestId, .finished outcome⟩) :
    Finishes caller requestId state := by
  refine ⟨[], state, outcome, .refl state, ?_, stored⟩
  intro call member
  exact absurd member List.not_mem_nil

theorem finishes_of_signalled
    (stored :
      state.waiters.get? caller = some ⟨requestId, .signalled⟩) :
    Finishes caller requestId state := by
  refine
    Finishes.of_step
      (show
        (CoordinatorCall.takeResult caller).AwaitedOnce caller requestId
          state from trivial)
      rfl ?_
  have taken : ∃ outcome,
      (state.takeResult caller).waiters.get? caller =
        some ⟨requestId, .finished outcome⟩ := by
    unfold ResponseSystem.takeResult
    rw [stored]
    dsimp only
    cases Coordinator.takeResult requestId state.coordinator with
    | ok result coordinator =>
        exact ⟨_, OrderedDict.get?_set_self _ _ _⟩
    | error exception coordinator =>
        exact ⟨_, OrderedDict.get?_set_self _ _ _⟩
  rcases taken with ⟨outcome, finished⟩
  exact finishes_of_finished finished

theorem finishes_of_timedOut {result : ResponseResult}
    (stored :
      state.waiters.get? caller =
        some ⟨requestId, .timedOut result⟩) :
    Finishes caller requestId state := by
  refine
    Finishes.of_step
      (show
        (CoordinatorCall.giveUp caller).AwaitedOnce caller requestId
          state from trivial)
      rfl ?_
  have finished :
      (state.giveUp caller).waiters.get? caller =
        some ⟨requestId, .finished (.ok result)⟩ := by
    unfold ResponseSystem.giveUp
    rw [stored]
    exact OrderedDict.get?_set_self _ _ _
  exact finishes_of_finished finished

theorem finishes_of_expired {seconds : ℚ}
    (stored :
      state.waiters.get? caller =
        some ⟨requestId, .expired seconds⟩)
    {request : PendingRequest}
    (known :
      (state.coordinator.entry requestId).request = some request) :
    Finishes caller requestId state := by
  refine
    Finishes.of_step
      (show
        (CoordinatorCall.composeTimeout caller 0).AwaitedOnce caller
          requestId state from trivial)
      rfl ?_
  have composed :
      (state.composeTimeout caller 0).waiters.get? caller =
        some
          ⟨requestId,
            .timedOut
              (waitTimeoutResult requestId request seconds 0)⟩ := by
    have found :
        state.coordinator.requests.get? requestId = some request := known
    unfold ResponseSystem.composeTimeout
    rw [stored]
    dsimp only
    rw [found]
    exact OrderedDict.get?_set_self _ _ _
  exact finishes_of_timedOut composed

theorem finishes_of_waiting {seconds : ℚ}
    (stored :
      state.waiters.get? caller =
        some ⟨requestId, .waiting seconds⟩)
    {request : PendingRequest}
    (known :
      (state.coordinator.entry requestId).request = some request) :
    Finishes caller requestId state := by
  by_cases event : state.EventSet requestId
  · refine
      Finishes.of_step
        (show
          (CoordinatorCall.wake caller).AwaitedOnce caller requestId
            state from trivial)
        rfl ?_
    have woken :
        (state.wake caller).waiters.get? caller =
          some ⟨requestId, .signalled⟩ := by
      unfold ResponseSystem.wake
      rw [stored]
      dsimp only
      rw [if_pos event]
      exact OrderedDict.get?_set_self _ _ _
    exact finishes_of_signalled woken
  · refine
      Finishes.of_step
        (show
          (CoordinatorCall.expire caller).AwaitedOnce caller requestId
            state from trivial)
        rfl ?_
    have expired :
        state.expire caller =
          state.moveWaiter caller requestId (.expired seconds) := by
      unfold ResponseSystem.expire
      rw [stored]
      exact if_neg event
    have placed :
        (state.expire caller).waiters.get? caller =
          some ⟨requestId, .expired seconds⟩ := by
      rw [expired]
      exact OrderedDict.get?_set_self _ _ _
    have still :
        ((state.expire caller).coordinator.entry requestId).request =
          some request := by
      rw [state.coordinator_expire caller]
      exact known
    exact finishes_of_expired placed still

end Finishing

theorem Entry.known_notified {entry : Entry} {requestId : String}
    (known : entry.request ≠ none) (response : ApiResponse)
    (orderId : Option String) (now : ℚ) :
    (entry.notified requestId response orderId now).request ≠ none := by
  unfold Entry.notified
  cases entry.live with
  | none => exact known
  | some request =>
      dsimp only
      split_ifs
      · exact known
      · simp

/-- No step forgets a request object. -/
theorem known_waitStep {config : CoordinationConfig} {caller : ℕ}
    {requestId : String} {call : CoordinatorCall} {before after : Wait}
    (step : WaitStep config caller requestId call before after)
    (known : before.entry.request ≠ none) :
    after.entry.request ≠ none := by
  cases step with
  | register fresh active unset => exact absurd fresh known
  | @giveUp entry result =>
      unfold Entry.givenUp
      cases entry.live with
      | none => exact known
      | some request => simp
  | notify => exact Entry.known_notified known _ _ _
  | @updateStatus entry place status stageDetails =>
      unfold Entry.updated
      cases entry.live with
      | none => exact known
      | some request =>
          dsimp only
          split_ifs
          · exact known
          · simp
  | @cleanup entry place clock =>
      by_cases removable :
          Entry.Removable config clock requestId entry
      · exact (Entry.gone_cleaned removable).2
      · unfold Entry.cleaned
        rw [if_neg removable]
        exact known
  | @beginShutdown entry place clock =>
      unfold Entry.cutOff
      cases entry.live with
      | none => exact known
      | some request =>
          dsimp only
          split_ifs
          · exact known
          · simp
  | _ => exact known

/-- A call that has begun waits for a registered request. -/
def Wait.Begun (wait : Wait) : Prop :=
  wait.place ≠ none → wait.entry.request ≠ none

theorem begun_waitStep {config : CoordinationConfig} {caller : ℕ}
    {requestId : String} {call : CoordinatorCall} {before after : Wait}
    (step : WaitStep config caller requestId call before after)
    (begun : before.Begun) : after.Begun := by
  intro placed
  apply known_waitStep step
  cases step with
  | start known pending => exact known
  | refuse known gone => exact known
  | wake signalled => exact begun (by simp)
  | expire unset => exact begun (by simp)
  | compose stored => exact begun (by simp)
  | take pending stored => exact begun (by simp)
  | takeFails missing => exact begun (by simp)
  | giveUp => exact begun (by simp)
  | register fresh active unset => exact absurd fresh (begun placed)
  | _ => exact begun placed

theorem begun_of_run {config : CoordinationConfig} {caller : ℕ}
    {requestId : String} {labels : List CoordinatorCall}
    {finish : ResponseSystem}
    (run :
      Run (WaitedStep caller requestId) (.start config) labels finish) :
    (finish.wait caller requestId).Begun := by
  have supported :=
    run.invariant
      (fun state =>
        (Shape config state.coordinator ∧ Alone caller requestId state) ∧
          (state.wait caller requestId).Begun)
      ⟨⟨Shape.new config, Alone.start caller requestId config⟩,
        fun placed => by
          simp [ResponseSystem.wait, ResponseSystem.start] at placed⟩
      (by
        rintro state call next ⟨⟨shape, alone⟩, begun⟩ ⟨guard, rfl⟩
        have step := waitStep_execute shape alone guard
        exact
          ⟨⟨CoordinatorCall.shape_execute shape call, step.2⟩,
            begun_waitStep step.1 begun⟩)
  exact supported.2

/-- A waiting call is never stuck. -/
theorem finishes_of_run {config : CoordinationConfig} {caller : ℕ}
    {requestId : String} {labels : List CoordinatorCall}
    {finish : ResponseSystem}
    (run :
      Run (WaitedStep caller requestId) (.start config) labels finish)
    {place : WaiterState}
    (stored :
      finish.waiters.get? caller = some ⟨requestId, place⟩) :
    Finishes caller requestId finish := by
  have placed : (finish.wait caller requestId).place = some place := by
    unfold ResponseSystem.wait
    rw [stored]
    rfl
  rcases Option.ne_none_iff_exists'.mp
      (begun_of_run run (by rw [placed]; simp)) with
    ⟨request, known⟩
  cases place with
  | waiting seconds => exact finishes_of_waiting stored known
  | signalled => exact finishes_of_signalled stored
  | expired seconds => exact finishes_of_expired stored known
  | timedOut result => exact finishes_of_timedOut stored
  | finished outcome => exact finishes_of_finished stored

/-! ## Every waiting call is answered -/

/-- The call returned a result for its request. -/
def Answered (requestId : String)
    (outcome : Except PyError ResponseResult) : Prop :=
  ∃ result, outcome = .ok result ∧ result.requestId = requestId

/--
The call that waits for a registered request always returns or raises, and
it returns a result for its request exactly when no cleanup and no shutdown
removes the request while the call needs it.
-/
theorem wait_answered_iff {config : CoordinationConfig} {caller : ℕ}
    {requestId : String} {labels : List CoordinatorCall}
    {finish : ResponseSystem}
    (run :
      Run (WaitedStep caller requestId) (.start config) labels finish) :
    (∀ outcome,
        finish.waiters.get? caller =
            some ⟨requestId, .finished outcome⟩ →
          (Answered requestId outcome ↔
            Permitted (Spares caller requestId) CoordinatorCall.execute
              (.start config) labels)) ∧
      ∀ place,
        finish.waiters.get? caller = some ⟨requestId, place⟩ →
          Finishes caller requestId finish := by
  constructor
  · intro outcome stored
    have placed :
        (finish.wait caller requestId).place =
          some (.finished outcome) := by
      unfold ResponseSystem.wait
      rw [stored]
      rfl
    rcases run.good_or_spoiled (Attended config caller requestId)
        (Abandoned config caller requestId)
        (attended_start config caller requestId)
        (fun _ _ attended guard spares =>
          attended_execute attended guard spares)
        (fun _ _ attended guard removes =>
          abandoned_of_not_spares attended guard removes)
        (fun _ _ abandoned guard =>
          abandoned_execute abandoned guard) with
      ⟨permitted, attended⟩ | ⟨forbidden, abandoned⟩
    · have answered := attended.answerable
      unfold Wait.Answerable at answered
      rw [placed] at answered
      exact ⟨fun _ => permitted, fun _ => answered⟩
    · have missed := abandoned.missed.place
      rw [placed] at missed
      constructor
      · rintro ⟨result, rfl, _⟩
        exact absurd missed id
      · intro permitted
        exact absurd permitted forbidden
  · intro place stored
    exact finishes_of_run run stored

namespace Sample

/-- A cleanup removes an expired request whose call is still waiting. -/
def cleanedCalls : List CoordinatorCall :=
  [.register "TEAM" none 7 0 0,
    .lookup 1 "req_7_000001" (some 60) 0,
    .cleanup
      { currentTime := 6
        checkedAt := fun _ => 6
        respondedAt := fun _ => 6 },
    .wake 1,
    .takeResult 1]

end Sample

theorem wait_answered_notified :
    Answered "req_7_000001"
      (.ok
        { requestId := "req_7_000001"
          success := true
          apiResponse := Sample.acceptance
          processingTimeMs := 1000
          finalStatus := .completed
          orderId := some "ORDER" }) :=
  ((wait_answered_iff
    (run_replay
      (show
        Permitted (CoordinatorCall.AwaitedOnce 1 "req_7_000001")
          CoordinatorCall.execute (.start {}) Sample.answeredCalls by
        decide +kernel))).1 _ (by decide +kernel)).mpr
    (by decide +kernel)

/-- A cleanup makes the waiting call raise. -/
theorem cleanup_abandons_wait :
    ¬ ∀ (config : CoordinationConfig) (caller : ℕ)
        (requestId : String) (labels : List CoordinatorCall)
        (finish : ResponseSystem)
        (outcome : Except PyError ResponseResult),
      Run (WaitedStep caller requestId) (.start config) labels finish →
        finish.waiters.get? caller =
            some ⟨requestId, .finished outcome⟩ →
          Answered requestId outcome := by
  intro answered
  have run :
      Run (WaitedStep 1 "req_7_000001") (.start {}) Sample.cleanedCalls
        (replay CoordinatorCall.execute (.start {})
          Sample.cleanedCalls) :=
    run_replay (by decide +kernel)
  rcases answered {} 1 "req_7_000001" Sample.cleanedCalls _
      (.error
        (.runtimeError
          "No result found for completed request req_7_000001"))
      run (by decide +kernel) with
    ⟨result, raised, _⟩
  exact absurd raised (by simp)

end InternTradingGame
