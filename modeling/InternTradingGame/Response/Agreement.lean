import InternTradingGame.Response.Answers

/-!
# Notifier and waiting call agree

When only notifications and waiting calls are at work, a notification that
returns `True` reaches the call, and a call that returns the timeout has not
been notified, exactly when no notification falls between the moment the
wait runs out of time and the section in which the call gives up.
-/

namespace InternTradingGame

open Coordinator

/-! ## The steps at work -/

/-- Registrations, notifications and the steps of waiting calls. -/
def CoordinatorCall.NotifiesOrWaits : CoordinatorCall → Prop
  | .updateStatus _ _ _ => False
  | .cleanup _ => False
  | .beginShutdown _ => False
  | .finishShutdown => False
  | _ => True

instance (call : CoordinatorCall) : Decidable call.NotifiesOrWaits := by
  rcases call
  case updateStatus _ _ _ => exact inferInstanceAs (Decidable False)
  case cleanup _ => exact inferInstanceAs (Decidable False)
  case beginShutdown _ => exact inferInstanceAs (Decidable False)
  case finishShutdown => exact inferInstanceAs (Decidable False)
  all_goals exact inferInstanceAs (Decidable True)

/-- One step of a system without updates, cleanups and shutdown. -/
abbrev NotifiedStep (caller : ℕ) (requestId : String) :
    ResponseSystem → CoordinatorCall → ResponseSystem → Prop :=
  GuardedStep
    (fun call state =>
      call.AwaitedOnce caller requestId state ∧ call.NotifiesOrWaits)
    CoordinatorCall.execute

/-! ## What agreement means -/

/-- The notifications for the request which returned `True`. -/
def ResponseSystem.confirmed (requestId : String)
    (state : ResponseSystem) : List Notification :=
  state.notifications.filter fun notification =>
    notification.requestId = requestId ∧ notification.returned = true

/-- The result carries the response and the order id of a notification. -/
structure Carries (notification : Notification)
    (result : ResponseResult) : Prop where
  response : result.apiResponse = notification.response
  orderId : result.orderId = notification.orderId
  finalStatus : result.finalStatus = notification.response.finalStatus

/--
The call returned the first notification which returned `True`, and no
notification returned `True` if it returned the timeout.
-/
structure Agreement (confirmed : List Notification)
    (outcome : Except PyError ResponseResult) : Prop where
  delivered : ∀ notification, confirmed.head? = some notification →
    ∃ result, outcome = .ok result ∧ Carries notification result
  untold : ∀ result, outcome = .ok result →
    result.finalStatus = .timeout → confirmed = []

/-- The call has run out of time and has not given up yet. -/
def WaiterState.RunningOut : WaiterState → Prop
  | .expired _ => True
  | .timedOut _ => True
  | _ => False

instance (place : WaiterState) : Decidable place.RunningOut := by
  rcases place
  case expired _ => exact inferInstanceAs (Decidable True)
  case timedOut _ => exact inferInstanceAs (Decidable True)
  all_goals exact inferInstanceAs (Decidable False)

/-- The request is not notified after its wait has run out of time. -/
def Timely (caller : ℕ) (requestId : String) :
    CoordinatorCall → ResponseSystem → Prop
  | .notify notified _ _ _, state =>
      notified = requestId →
        ∀ place ∈ (state.wait caller requestId).place,
          ¬ place.RunningOut
  | _, _ => True

instance (caller : ℕ) (requestId : String) (call : CoordinatorCall)
    (state : ResponseSystem) :
    Decidable (Timely caller requestId call state) := by
  rcases call
  case notify notified _ _ _ =>
      exact inferInstanceAs
        (Decidable
          (notified = requestId →
            ∀ place ∈ (state.wait caller requestId).place,
              ¬ place.RunningOut))
  all_goals exact inferInstanceAs (Decidable True)

/-! ## The confirmed notifications -/

namespace ResponseSystem

variable {requestId : String} {state : ResponseSystem}

theorem confirmed_notify (response : ApiResponse)
    (orderId : Option String) (now : ℚ) :
    (state.notify requestId response orderId now).confirmed requestId =
      if (state.coordinator.entry requestId).live.isSome = true then
        state.confirmed requestId ++
          [{ requestId, response, orderId, returned := true }]
      else
        state.confirmed requestId := by
  unfold confirmed notify
  simp only [notifyCompletion_returned, List.filter_append]
  cases (state.coordinator.entry requestId).live with
  | none => simp
  | some request => simp

theorem confirmed_notify_of_ne {notified : String}
    (different : notified ≠ requestId) (response : ApiResponse)
    (orderId : Option String) (now : ℚ) :
    (state.notify notified response orderId now).confirmed requestId =
      state.confirmed requestId := by
  unfold confirmed notify
  simp [List.filter_append, different]

end ResponseSystem

/-- No other step notifies. -/
theorem confirmed_execute {requestId : String}
    {state : ResponseSystem} {call : CoordinatorCall}
    (silent : ∀ response orderId now,
      call ≠ .notify requestId response orderId now) :
    (call.execute state).confirmed requestId =
      state.confirmed requestId := by
  cases call with
  | notify notified response orderId now =>
      apply ResponseSystem.confirmed_notify_of_ne
      rintro rfl
      exact silent response orderId now rfl
  | lookup caller awaited timeoutSeconds now =>
      rcases state.lookup_cases timeoutSeconds now with
        ⟨seconds, _, moved⟩ | ⟨exception, _, moved⟩
      · exact
          (congrArg (ResponseSystem.confirmed requestId) moved).trans rfl
      · exact
          (congrArg (ResponseSystem.confirmed requestId) moved).trans rfl
  | wake caller =>
      rcases state.wake_cases caller with same | ⟨_, _, _, _, moved⟩
      · exact congrArg (ResponseSystem.confirmed requestId) same
      · exact
          (congrArg (ResponseSystem.confirmed requestId) moved).trans rfl
  | expire caller =>
      rcases state.expire_cases caller with same | ⟨_, _, _, _, moved⟩
      · exact congrArg (ResponseSystem.confirmed requestId) same
      · exact
          (congrArg (ResponseSystem.confirmed requestId) moved).trans rfl
  | composeTimeout caller elapsedMs =>
      rcases state.composeTimeout_cases caller elapsedMs with
        same | ⟨_, _, _, _, _, moved⟩
      · exact congrArg (ResponseSystem.confirmed requestId) same
      · exact
          (congrArg (ResponseSystem.confirmed requestId) moved).trans rfl
  | takeResult caller =>
      rcases state.takeResult_cases caller with
        ⟨same, _⟩ | ⟨_, _, _, _, _, _, moved⟩
      · exact congrArg (ResponseSystem.confirmed requestId) same
      · exact
          (congrArg (ResponseSystem.confirmed requestId) moved).trans rfl
  | giveUp caller =>
      rcases state.giveUp_cases caller with
        ⟨same, _⟩ | ⟨_, _, _, _, moved⟩
      · exact congrArg (ResponseSystem.confirmed requestId) same
      · exact
          (congrArg (ResponseSystem.confirmed requestId) moved).trans rfl
  | _ => rfl

/-! ## Agreement so far -/

/-- The entry of a pending request tells which notification came first. -/
def Entry.Tracks (confirmed : List Notification) (entry : Entry) : Prop :=
  ∀ request ∈ entry.request,
    (request.status.isTerminal = request.completionEvent) ∧
      if request.completionEvent then
        ∃ notification rest result,
          confirmed = notification :: rest ∧
            entry.result = some result ∧ Carries notification result
      else
        confirmed = []

/-- The call and the notifications agree so far. -/
def Wait.Agrees (confirmed : List Notification) (wait : Wait) : Prop :=
  match wait.place with
  | none =>
      (wait.entry.request = none → confirmed = []) ∧
        (wait.entry.request ≠ none → wait.entry.pending = true) ∧
          wait.entry.Tracks confirmed
  | some (.waiting _) =>
      wait.entry.pending = true ∧ wait.entry.Tracks confirmed
  | some .signalled =>
      wait.entry.pending = true ∧ wait.entry.Tracks confirmed ∧
        wait.entry.Signalled
  | some (.expired _) =>
      wait.entry.pending = true ∧ wait.entry.Tracks confirmed ∧
        ¬ wait.entry.Signalled
  | some (.timedOut result) =>
      wait.entry.pending = true ∧ wait.entry.Tracks confirmed ∧
        ¬ wait.entry.Signalled ∧ result.finalStatus = .timeout
  | some (.finished outcome) =>
      wait.entry.pending = false ∧ Agreement confirmed outcome

/-- The call will return the timeout although it has been notified. -/
structure Wait.Disagrees (confirmed : List Notification)
    (wait : Wait) : Prop where
  told : confirmed ≠ []
  place :
    match wait.place with
    | some (.expired _) => wait.entry.pending = true
    | some (.timedOut result) =>
        wait.entry.pending = true ∧ result.finalStatus = .timeout
    | some (.finished outcome) =>
        ∃ result, outcome = .ok result ∧ result.finalStatus = .timeout
    | _ => False

namespace Entry

variable {entry : Entry} {requestId : String}
  {confirmed : List Notification}

/-- An event which is not set tells that nobody has notified. -/
theorem Tracks.unset (tracks : entry.Tracks confirmed)
    {request : PendingRequest} (stored : entry.request = some request)
    (unset : ¬ entry.Signalled) :
    request.status.isTerminal = false ∧ confirmed = [] := by
  rcases tracks request stored with ⟨status, first⟩
  have event : request.completionEvent = false := by
    by_contra set
    exact unset ⟨request, stored, Bool.eq_true_of_not_eq_false set⟩
  rw [event] at status first
  exact ⟨status, by simpa using first⟩

/-- An event which is set has the first notification's result. -/
theorem Tracks.set (tracks : entry.Tracks confirmed)
    (set : entry.Signalled) :
    ∃ notification rest result, confirmed = notification :: rest ∧
      entry.result = some result ∧ Carries notification result := by
  rcases set with ⟨request, stored, event⟩
  have first := (tracks request stored).2
  rw [event] at first
  simpa using first

theorem Tracks.registered {request : PendingRequest}
    (active : request.status.isTerminal = false)
    (unset : request.completionEvent = false)
    (none : confirmed = []) :
    (entry.registered request).Tracks confirmed := by
  intro stored member
  rcases Option.some.inj member with rfl
  rw [active, unset]
  exact ⟨rfl, by simpa using none⟩

/-- A notification of a live request. -/
theorem Tracks.notified (tracks : entry.Tracks confirmed)
    {request : PendingRequest} (live : entry.live = some request)
    (response : ApiResponse) (orderId : Option String) (now : ℚ) :
    (entry.notified requestId response orderId now).Tracks
      (confirmed ++
        [{ requestId, response, orderId, returned := true }]) := by
  rcases live_eq_some_iff.mp live with ⟨_, stored⟩
  rcases tracks request stored with ⟨status, first⟩
  unfold Entry.notified
  rw [live]
  dsimp only
  by_cases terminal : request.status.isTerminal = true
  · rw [if_pos terminal]
    rw [terminal] at status
    rw [← status] at first
    intro other member
    obtain rfl : request = other :=
      Option.some.inj (stored.symm.trans member)
    rw [if_pos rfl] at first
    rcases first with ⟨notification, rest, result, list, kept, carries⟩
    rw [terminal, ← status]
    refine ⟨rfl, ?_⟩
    simp only [if_true]
    exact
      ⟨notification, _, result, by rw [list, List.cons_append], kept,
        carries⟩
  · rw [if_neg terminal]
    rw [Bool.not_eq_true] at terminal
    rw [terminal] at status
    rw [← status] at first
    intro other member
    rcases Option.some.inj member with rfl
    refine ⟨response.finalStatus_isTerminal, ?_⟩
    simp only [if_true]
    have none : confirmed = [] := by simpa using first
    rw [none, List.nil_append]
    exact ⟨_, [], _, rfl, rfl, ⟨rfl, rfl, rfl⟩⟩

end Entry

section Steps

variable {config : CoordinationConfig} {caller : ℕ}
  {requestId : String} {call : CoordinatorCall}
  {before after : Wait} {confirmed : List Notification}

/-- A step of the call itself, or of nobody. -/
theorem agrees_waitStep
    (step : WaitStep config caller requestId call before after)
    (only : call.NotifiesOrWaits)
    (silent : ∀ response orderId now,
      call ≠ .notify requestId response orderId now)
    (proper : before.entry.Proper requestId)
    (begun : before.Begun)
    (agrees : before.Agrees confirmed) :
    after.Agrees confirmed := by
  cases step with
  | elsewhere irrelevant => exact agrees
  | @register entry place request _ _ _ _ _ fresh active unset =>
      cases place with
      | none =>
          rcases agrees with ⟨untold, _, _⟩
          refine ⟨?_, fun _ => rfl, ?_⟩
          · intro absent
            simp [Entry.registered] at absent
          · exact Entry.Tracks.registered active unset (untold fresh)
      | some place => exact absurd fresh (begun (by simp))
  | start known pending => exact ⟨pending, agrees.2.2⟩
  | refuse known gone =>
      have pending := agrees.2.1 known
      rw [show _ = false from gone] at pending
      exact absurd pending (by decide)
  | wake signalled => exact ⟨agrees.1, agrees.2, signalled⟩
  | expire unset => exact ⟨agrees.1, agrees.2, unset⟩
  | compose stored => exact ⟨agrees.1, agrees.2.1, agrees.2.2, rfl⟩
  | @take entry result pending stored =>
      rcases agrees with ⟨_, tracks, signalled⟩
      rcases tracks.set signalled with
        ⟨notification, rest, kept, list, same, carries⟩
      obtain rfl : result = kept := by
        rw [stored] at same
        exact Option.some.inj same
      refine ⟨rfl, ?_, ?_⟩
      · intro first head
        rw [list] at head
        rcases Option.some.inj head with rfl
        exact ⟨result, rfl, carries⟩
      · intro returned equal timeout
        obtain rfl : result = returned := by simpa using equal
        rw [carries.finalStatus] at timeout
        exact absurd timeout (notification.response.finalStatus_ne_timeout)
  | takeFails missing =>
      rcases agrees with ⟨pending, tracks, signalled⟩
      rcases tracks.set signalled with ⟨_, _, result, _, stored, _⟩
      exact absurd ⟨pending, by rw [stored]; rfl⟩ missing
  | @giveUp entry result =>
      rcases agrees with ⟨pending, tracks, unset, timeout⟩
      rcases proper.known pending with ⟨request, stored⟩
      have none := (tracks.unset stored unset).2
      have gone : entry.givenUp.pending = false := by
        unfold Entry.givenUp
        rw [Entry.live_eq_some_iff.mpr ⟨pending, stored⟩]
      refine ⟨gone, ?_, fun _ _ _ => none⟩
      intro notification head
      rw [none] at head
      exact absurd head (by simp)
  | notify => exact absurd rfl (silent _ _ _)
  | updateStatus => exact absurd only id
  | cleanup => exact absurd only id
  | beginShutdown => exact absurd only id
  | finishShutdown => exact absurd only id

/-- A notification while the wait has not run out of time. -/
theorem agrees_notified
    (proper : before.entry.Proper requestId)
    (agrees : before.Agrees confirmed)
    (timely : ∀ place ∈ before.place, ¬ place.RunningOut)
    (response : ApiResponse) (orderId : Option String) (now : ℚ) :
    Wait.Agrees
      (if before.entry.live.isSome = true then
        confirmed ++
          [{ requestId, response, orderId, returned := true }]
      else
        confirmed)
      ⟨before.entry.notified requestId response orderId now,
        before.place⟩ := by
  rcases before with ⟨entry, place⟩
  have proceeds :
      entry.Proceeds (entry.notified requestId response orderId now) :=
    Entry.proceeds_notified entry response orderId now
  cases live : entry.live with
  | none =>
      have same :
          entry.notified requestId response orderId now = entry := by
        unfold Entry.notified
        rw [live]
      simpa [same] using agrees
  | some request =>
      rcases Entry.live_eq_some_iff.mp live with ⟨pending, stored⟩
      simp only [Option.isSome_some, if_true]
      cases place with
      | none =>
          refine ⟨?_, ?_, ?_⟩
          · intro absent
            have known : entry.request ≠ none := by
              rw [stored]
              simp
            exact
              absurd absent
                (Entry.known_notified known response orderId now)
          · intro _
            exact proceeds.pending pending
          · exact agrees.2.2.notified live response orderId now
      | some place =>
          cases place with
          | waiting seconds =>
              exact
                ⟨proceeds.pending pending,
                  agrees.2.notified live response orderId now⟩
          | signalled =>
              exact
                ⟨proceeds.pending pending,
                  agrees.2.1.notified live response orderId now,
                  proceeds.signalled agrees.2.2⟩
          | expired seconds => exact absurd trivial (timely _ rfl)
          | timedOut result => exact absurd trivial (timely _ rfl)
          | finished outcome =>
              have gone := agrees.1
              rw [show _ = true from pending] at gone
              exact absurd gone (by decide)

/-- A late notification is not told to the call. -/
theorem disagrees_notified
    (proper : before.entry.Proper requestId)
    (agrees : before.Agrees confirmed)
    {place : WaiterState}
    (placed : before.place = some place)
    (late : place.RunningOut)
    (response : ApiResponse) (orderId : Option String) (now : ℚ) :
    Wait.Disagrees
      (if before.entry.live.isSome = true then
        confirmed ++
          [{ requestId, response, orderId, returned := true }]
      else
        confirmed)
      ⟨before.entry.notified requestId response orderId now,
        before.place⟩ := by
  rcases before with ⟨entry, _⟩
  rcases placed with rfl
  have proceeds :
      entry.Proceeds (entry.notified requestId response orderId now) :=
    Entry.proceeds_notified entry response orderId now
  have pending : entry.pending = true := by
    cases place with
    | expired seconds => exact agrees.1
    | timedOut result => exact agrees.1
    | _ => exact absurd late id
  rcases proper.live_isSome pending with ⟨request, live⟩
  simp only [live, Option.isSome_some, if_true]
  constructor
  · simp
  · cases place with
    | expired seconds => exact proceeds.pending pending
    | timedOut result =>
        exact ⟨proceeds.pending pending, agrees.2.2.2⟩
    | _ => exact absurd late id

/-- Once the call disagrees with the notifications, it keeps doing so. -/
theorem disagrees_waitStep
    (step : WaitStep config caller requestId call before after)
    (only : call.NotifiesOrWaits)
    {more : List Notification}
    (told : confirmed ≠ [] → more ≠ [])
    (disagrees : before.Disagrees confirmed) :
    after.Disagrees more := by
  rcases disagrees with ⟨some_told, place⟩
  refine ⟨told some_told, ?_⟩
  cases step with
  | elsewhere irrelevant => exact place
  | @register entry placed _ _ _ _ _ _ fresh active unset =>
      cases placed with
      | none => exact absurd place id
      | some placed =>
          cases placed with
          | expired seconds => exact rfl
          | timedOut result => exact ⟨rfl, place.2⟩
          | finished outcome => exact place
          | _ => exact absurd place id
  | start known pending => exact absurd place id
  | refuse known gone => exact absurd place id
  | wake signalled => exact absurd place id
  | expire unset => exact absurd place id
  | compose stored => exact ⟨place, rfl⟩
  | take pending stored => exact absurd place id
  | takeFails missing => exact absurd place id
  | giveUp => exact ⟨_, rfl, place.2⟩
  | @notify entry placed response orderId now =>
      have proceeds :
          entry.Proceeds
            (entry.notified requestId response orderId now) :=
        Entry.proceeds_notified entry response orderId now
      cases placed with
      | none => exact absurd place id
      | some placed =>
          cases placed with
          | expired seconds => exact proceeds.pending place
          | timedOut result =>
              exact ⟨proceeds.pending place.1, place.2⟩
          | finished outcome => exact place
          | _ => exact absurd place id
  | updateStatus => exact absurd only id
  | cleanup => exact absurd only id
  | beginShutdown => exact absurd only id
  | finishShutdown => exact absurd only id

end Steps

/-! ## All runs -/

section Runs

variable {config : CoordinationConfig} {caller : ℕ}
  {requestId : String} {state : ResponseSystem} {call : CoordinatorCall}

/-- The call and the notifications agree so far. -/
structure InAgreement (config : CoordinationConfig) (caller : ℕ)
    (requestId : String) (state : ResponseSystem) : Prop where
  shape : Shape config state.coordinator
  alone : Alone caller requestId state
  begun : (state.wait caller requestId).Begun
  agrees :
    (state.wait caller requestId).Agrees (state.confirmed requestId)

/-- The call was notified too late. -/
structure InDisagreement (config : CoordinationConfig) (caller : ℕ)
    (requestId : String) (state : ResponseSystem) : Prop where
  shape : Shape config state.coordinator
  alone : Alone caller requestId state
  disagrees :
    (state.wait caller requestId).Disagrees (state.confirmed requestId)

theorem inAgreement_start (config : CoordinationConfig) (caller : ℕ)
    (requestId : String) :
    InAgreement config caller requestId (.start config) := by
  have empty :
      (ResponseSystem.start config).wait caller requestId =
        ⟨⟨none, false, none⟩, none⟩ := by
    unfold ResponseSystem.wait ResponseSystem.start
    rw [entry_new]
    rfl
  constructor
  · exact Shape.new config
  · exact Alone.start caller requestId config
  · rw [empty]
    intro placed
    exact absurd rfl placed
  · rw [empty]
    refine ⟨fun _ => rfl, fun known => absurd rfl known, ?_⟩
    intro request stored
    exact absurd stored (by simp)

/-- The view after a notification of the request. -/
theorem wait_notify (shape : Shape config state.coordinator)
    (response : ApiResponse) (orderId : Option String) (now : ℚ) :
    (state.notify requestId response orderId now).wait caller
        requestId =
      ⟨(state.coordinator.entry requestId).notified requestId response
          orderId now,
        (state.wait caller requestId).place⟩ := by
  have after :
      ((CoordinatorCall.notify requestId response orderId now).execute
        state).wait caller requestId = _ :=
    wait_execute_of_waiters shape rfl
  simp only [CoordinatorCall.onEntry, if_true] at after
  exact after

theorem inAgreement_execute
    (agreement : InAgreement config caller requestId state)
    (guard : call.AwaitedOnce caller requestId state)
    (only : call.NotifiesOrWaits)
    (timely : Timely caller requestId call state) :
    InAgreement config caller requestId (call.execute state) := by
  rcases agreement with ⟨shape, alone, begun, agrees⟩
  have step := waitStep_execute shape alone guard
  constructor
  · exact CoordinatorCall.shape_execute shape call
  · exact step.2
  · exact begun_waitStep step.1 begun
  · by_cases notifies : ∃ response orderId now,
        call = .notify requestId response orderId now
    · rcases notifies with ⟨response, orderId, now, rfl⟩
      show
        ((state.notify requestId response orderId now).wait caller
          requestId).Agrees
          ((state.notify requestId response orderId now).confirmed
            requestId)
      rw [wait_notify shape, ResponseSystem.confirmed_notify]
      exact
        agrees_notified (shape.proper requestId) agrees (timely rfl)
          response orderId now
    · have silent : ∀ response orderId now,
          call ≠ .notify requestId response orderId now := by
        intro response orderId now equal
        exact notifies ⟨response, orderId, now, equal⟩
      rw [confirmed_execute silent]
      exact
        agrees_waitStep step.1 only silent (shape.proper requestId) begun
          agrees

theorem inDisagreement_of_late
    (agreement : InAgreement config caller requestId state)
    (guard : call.AwaitedOnce caller requestId state)
    (late : ¬ Timely caller requestId call state) :
    InDisagreement config caller requestId (call.execute state) := by
  rcases agreement with ⟨shape, alone, begun, agrees⟩
  have step := waitStep_execute shape alone guard
  constructor
  · exact CoordinatorCall.shape_execute shape call
  · exact step.2
  · cases call with
    | notify notified response orderId now =>
        unfold Timely at late
        push Not at late
        rcases late with ⟨rfl, place, placed, running⟩
        show
          ((state.notify notified response orderId now).wait caller
            notified).Disagrees
            ((state.notify notified response orderId now).confirmed
              notified)
        rw [wait_notify shape, ResponseSystem.confirmed_notify]
        exact
          disagrees_notified (shape.proper notified) agrees placed
            running response orderId now
    | _ => exact absurd trivial late

theorem inDisagreement_execute
    (disagreement : InDisagreement config caller requestId state)
    (guard : call.AwaitedOnce caller requestId state)
    (only : call.NotifiesOrWaits) :
    InDisagreement config caller requestId (call.execute state) := by
  rcases disagreement with ⟨shape, alone, disagrees⟩
  have step := waitStep_execute shape alone guard
  constructor
  · exact CoordinatorCall.shape_execute shape call
  · exact step.2
  · apply disagrees_waitStep step.1 only _ disagrees
    intro told
    by_cases notifies : ∃ response orderId now,
        call = .notify requestId response orderId now
    · rcases notifies with ⟨response, orderId, now, rfl⟩
      show
        (state.notify requestId response orderId now).confirmed
          requestId ≠ []
      rw [ResponseSystem.confirmed_notify]
      split_ifs
      · simp
      · exact told
    · have silent : ∀ response orderId now,
          call ≠ .notify requestId response orderId now := by
        intro response orderId now equal
        exact notifies ⟨response, orderId, now, equal⟩
      rw [confirmed_execute silent]
      exact told

end Runs

/--
The call always returns or raises.  It returns the first notification that
returned `True`, and a timeout only if none did, exactly when the request is
not notified between the end of its wait and the moment the call gives up.
-/
theorem notifier_waiter_agree_iff {config : CoordinationConfig}
    {caller : ℕ} {requestId : String} {labels : List CoordinatorCall}
    {finish : ResponseSystem}
    (run :
      Run (NotifiedStep caller requestId) (.start config) labels
        finish) :
    (∀ outcome,
        finish.waiters.get? caller =
            some ⟨requestId, .finished outcome⟩ →
          (Agreement (finish.confirmed requestId) outcome ↔
            Permitted (Timely caller requestId) CoordinatorCall.execute
              (.start config) labels)) ∧
      ∀ place,
        finish.waiters.get? caller = some ⟨requestId, place⟩ →
          Finishes caller requestId finish := by
  constructor
  · intro outcome stored
    have placed :
        (finish.wait caller requestId).place =
          some (.finished outcome) := by
      unfold ResponseSystem.wait
      rw [stored]
      rfl
    rcases run.good_or_spoiled (InAgreement config caller requestId)
        (InDisagreement config caller requestId)
        (inAgreement_start config caller requestId)
        (fun _ _ agreement guard timely =>
          inAgreement_execute agreement guard.1 guard.2 timely)
        (fun _ _ agreement guard late =>
          inDisagreement_of_late agreement guard.1 late)
        (fun _ _ disagreement guard =>
          inDisagreement_execute disagreement guard.1 guard.2) with
      ⟨permitted, agreement⟩ | ⟨forbidden, disagreement⟩
    · have agrees := agreement.agrees
      unfold Wait.Agrees at agrees
      rw [placed] at agrees
      exact ⟨fun _ => permitted, fun _ => agrees.2⟩
    · rcases disagreement.disagrees with ⟨told, place⟩
      rw [placed] at place
      rcases place with ⟨result, rfl, timeout⟩
      constructor
      · intro agreement
        exact absurd (agreement.untold result rfl timeout) told
      · intro permitted
        exact absurd permitted forbidden
  · intro place stored
    have waited :
        Run (WaitedStep caller requestId) (.start config) labels
          finish :=
      run.mono fun _ _ _ step => ⟨step.1.1, step.2⟩
    exact finishes_of_run waited stored

namespace Sample

/-- The call takes the result it was notified of. -/
def answer : ResponseResult where
  requestId := "req_7_000001"
  success := true
  apiResponse := acceptance
  processingTimeMs := 1000
  finalStatus := .completed
  orderId := some "ORDER"

/-- The call gave up after five seconds. -/
def timeout : ResponseResult where
  requestId := "req_7_000001"
  success := false
  apiResponse :=
    { success := false
      requestId := "req_7_000001"
      orderId := none
      error :=
        some
          { code := "PROCESSING_TIMEOUT"
            message := "Order processing exceeded time limit"
            details :=
              some
                [("timeout_ms", .number 5000),
                  ("elapsed_ms", .number 5000),
                  ("stage", .text "registration")] } }
  processingTimeMs := 5000
  finalStatus := .timeout

end Sample

theorem notifier_waiter_agree_answered :
    Agreement
      [{ requestId := "req_7_000001"
         response := Sample.acceptance
         orderId := some "ORDER"
         returned := true }]
      (.ok Sample.answer) :=
  ((notifier_waiter_agree_iff
    (run_replay
      (show
        Permitted
          (fun call state =>
            call.AwaitedOnce 1 "req_7_000001" state ∧
              call.NotifiesOrWaits)
          CoordinatorCall.execute (.start {}) Sample.answeredCalls by
        decide +kernel))).1 (.ok Sample.answer)
      (by decide +kernel)).mpr
    (by decide +kernel)

/-- A late notification returns `True`, and the call returns the timeout. -/
theorem lateNotification_disagrees :
    ¬ ∀ (config : CoordinationConfig) (caller : ℕ)
        (requestId : String) (labels : List CoordinatorCall)
        (finish : ResponseSystem)
        (outcome : Except PyError ResponseResult),
      Run (NotifiedStep caller requestId) (.start config) labels
          finish →
        finish.waiters.get? caller =
            some ⟨requestId, .finished outcome⟩ →
          Agreement (finish.confirmed requestId) outcome := by
  intro agree
  have run :
      Run (NotifiedStep 1 "req_7_000001") (.start {}) Sample.lateCalls
        (replay CoordinatorCall.execute (.start {})
          Sample.lateCalls) :=
    run_replay (by decide +kernel)
  have agreement :=
    agree {} 1 "req_7_000001" Sample.lateCalls _
      (.ok Sample.timeout) run (by decide +kernel)
  have untold := agreement.untold Sample.timeout rfl rfl
  have told :
      ((replay CoordinatorCall.execute (.start {})
        Sample.lateCalls).confirmed "req_7_000001").length = 1 := by
    decide +kernel
  rw [untold] at told
  exact absurd told (by decide)

end InternTradingGame
