import InternTradingGame.Response.Waiting

/-!
# Where the results of requests come from

A result is the response of a notification, or the coordinator has made it
itself: for a wait which ran out of time, for a request which expired, or for
one which was cut off by the shutdown.
-/

namespace InternTradingGame

open Coordinator

/-- The response says that a request has not been completed, and no more. -/
def ApiResponse.LeavesOpen (response : ApiResponse) : Prop :=
  ∃ error ∈ response.error,
    error.code = "PROCESSING_TIMEOUT" ∨ error.code = "SERVICE_SHUTDOWN"

instance (response : ApiResponse) : Decidable response.LeavesOpen :=
  inferInstanceAs (Decidable (∃ error ∈ _, _ ∨ _))

/-- The response to a request which leaves the request open. -/
structure ApiResponse.LeavesOpenTo (response : ApiResponse)
    (requestId : String) : Prop where
  named : response.requestId = requestId
  failed : response.success = false
  leavesOpen : response.LeavesOpen

/-- The response has been notified, or it leaves the request open. -/
def ResponseSystem.Explains (state : ResponseSystem) (requestId : String)
    (response : ApiResponse) : Prop :=
  response.LeavesOpenTo requestId ∨
    ∃ notification ∈ state.notifications,
      notification.requestId = requestId ∧
        notification.response = response

/-- What a call has got, or is about to get, is explained. -/
def WaiterState.Explained (state : ResponseSystem) (requestId : String) :
    WaiterState → Prop
  | .timedOut result => result.apiResponse.LeavesOpenTo requestId
  | .finished (.ok result) => state.Explains requestId result.apiResponse
  | _ => True

/-- All results are explained. -/
structure Sourced (state : ResponseSystem) : Prop where
  results : ∀ requestId result,
    (state.coordinator.entry requestId).result = some result →
      state.Explains requestId result.apiResponse
  waiters : ∀ caller waiter, state.waiters.get? caller = some waiter →
    waiter.state.Explained state waiter.requestId

section Sources

variable {config : CoordinationConfig} {state next : ResponseSystem}
  {requestId : String}

/-- Only a notification is recorded as one. -/
theorem notifications_execute (call : CoordinatorCall)
    (state : ResponseSystem) :
    (call.execute state).notifications = state.notifications ∨
      ∃ notification now,
        call = .notify notification.requestId notification.response
            notification.orderId now ∧
          (call.execute state).notifications =
            state.notifications ++ [notification] := by
  cases call with
  | lookup caller awaited timeoutSeconds now =>
      left
      show (state.lookup caller awaited timeoutSeconds now).notifications =
        _
      rcases state.lookup_cases timeoutSeconds now with
        ⟨_, _, moved⟩ | ⟨_, _, moved⟩
      · rw [moved]
        rfl
      · rw [moved]
        rfl
  | wake caller =>
      left
      show (state.wake caller).notifications = _
      rcases state.wake_cases caller with same | ⟨_, _, _, _, moved⟩
      · rw [same]
      · rw [moved]
        rfl
  | expire caller =>
      left
      show (state.expire caller).notifications = _
      rcases state.expire_cases caller with same | ⟨_, _, _, _, moved⟩
      · rw [same]
      · rw [moved]
        rfl
  | composeTimeout caller elapsedMs =>
      left
      show (state.composeTimeout caller elapsedMs).notifications = _
      rcases state.composeTimeout_cases caller elapsedMs with
        same | ⟨_, _, _, _, _, moved⟩
      · rw [same]
      · rw [moved]
        rfl
  | takeResult caller =>
      left
      show (state.takeResult caller).notifications = _
      rcases state.takeResult_cases caller with
        ⟨same, _⟩ | ⟨_, _, _, _, _, _, moved⟩
      · rw [same]
      · rw [moved]
        rfl
  | giveUp caller =>
      left
      show (state.giveUp caller).notifications = _
      rcases state.giveUp_cases caller with
        ⟨same, _⟩ | ⟨_, _, _, _, moved⟩
      · rw [same]
      · rw [moved]
        rfl
  | notify notified response orderId now =>
      let answer :=
        state.coordinator.notifyCompletion notified response orderId now
      exact Or.inr
        ⟨⟨notified, response, orderId, answer.1⟩, now, rfl, rfl⟩
  | _ => exact Or.inl rfl

theorem notifications_kept (call : CoordinatorCall)
    (state : ResponseSystem) :
    state.notifications <+: (call.execute state).notifications := by
  rcases notifications_execute call state with
    same | ⟨_, _, _, recorded⟩
  · rw [same]
  · rw [recorded]
    exact List.prefix_append _ _

theorem ResponseSystem.Explains.mono {response : ApiResponse}
    (explains : state.Explains requestId response)
    (recorded : state.notifications <+: next.notifications) :
    next.Explains requestId response := by
  rcases explains with leavesOpen | ⟨notification, member, same⟩
  · exact Or.inl leavesOpen
  · exact Or.inr ⟨notification, recorded.subset member, same⟩

theorem WaiterState.Explained.mono {place : WaiterState}
    (explained : place.Explained state requestId)
    (recorded : state.notifications <+: next.notifications) :
    place.Explained next requestId := by
  cases place with
  | finished outcome =>
      cases outcome with
      | ok result => exact ResponseSystem.Explains.mono explained recorded
      | error exception => trivial
  | timedOut result => exact explained
  | _ => trivial

/-- A step stores the result of a notification or one of its own. -/
theorem result_onEntry (call : CoordinatorCall) (state : ResponseSystem)
    {entry : Entry} (proper : entry.Proper requestId)
    {result : ResponseResult}
    (stored : (call.onEntry state requestId entry).result = some result) :
    entry.result = some result ∨
      result.apiResponse.LeavesOpenTo requestId ∨
      ∃ response orderId now,
        call = .notify requestId response orderId now ∧
          result.apiResponse = response := by
  cases call with
  | register teamId timeoutSeconds timestamp now registeredAt =>
      rw [CoordinatorCall.onEntry] at stored
      split at stored
      · exact Or.inl stored
      · exact Or.inl stored
  | takeResult caller =>
      rw [CoordinatorCall.onEntry, Entry.taken] at stored
      split_ifs at stored
      · cases stored
      · exact Or.inl stored
      · exact Or.inl stored
  | giveUp caller =>
      rw [CoordinatorCall.onEntry, Entry.givenUp] at stored
      split_ifs at stored
      · split at stored
        · exact Or.inl stored
        · exact Or.inl stored
      · exact Or.inl stored
  | notify notified response orderId now =>
      rw [CoordinatorCall.onEntry, Entry.notified] at stored
      split_ifs at stored with same
      · split at stored
        · exact Or.inl stored
        · split_ifs at stored
          · exact Or.inl stored
          · rcases Option.some.inj stored with rfl
            exact Or.inr (Or.inr ⟨response, orderId, now, same ▸ rfl, rfl⟩)
      · exact Or.inl stored
  | updateStatus updated status stageDetails =>
      rw [CoordinatorCall.onEntry, Entry.updated] at stored
      split_ifs at stored
      · split at stored
        · exact Or.inl stored
        · split_ifs at stored
          · exact Or.inl stored
          · exact Or.inl stored
      · exact Or.inl stored
  | cleanup clock =>
      rw [CoordinatorCall.onEntry, Entry.cleaned] at stored
      split_ifs at stored
      exact Or.inl stored
  | beginShutdown clock =>
      rw [CoordinatorCall.onEntry, Entry.cutOff] at stored
      split at stored
      case h_1 => exact Or.inl stored
      case h_2 request live =>
        split_ifs at stored
        · exact Or.inl stored
        · rcases Option.some.inj stored with rfl
          have known := (Entry.live_eq_some_iff.mp live).2
          exact Or.inr (Or.inl
            ⟨proper.request request known, rfl, _, rfl, Or.inr rfl⟩)
  | finishShutdown => cases stored
  | _ => exact Or.inl stored

/-- A call waits for one request from beginning to end. -/
theorem waiter_execute (call : CoordinatorCall) {caller : ℕ}
    {waiter : Waiter}
    (found : (call.execute state).waiters.get? caller = some waiter) :
    (∃ before, state.waiters.get? caller = some before ∧
        before.requestId = waiter.requestId) ∨
      ∃ timeoutSeconds now,
        call = .lookup caller waiter.requestId timeoutSeconds now := by
  have moved : ∀ (reached : ResponseSystem) (number : ℕ)
      (awaited : String) (place : WaiterState) (before : Waiter),
      reached.waiters = state.waiters →
        state.waiters.get? number = some before →
          before.requestId = awaited →
            (reached.moveWaiter number awaited place).waiters.get? caller =
                some waiter →
              ∃ before, state.waiters.get? caller = some before ∧
                before.requestId = waiter.requestId := by
    intro reached number awaited place before same stored own moved
    rw [ResponseSystem.get?_moveWaiter, same] at moved
    split_ifs at moved with isCaller
    · rcases Option.some.inj moved with rfl
      exact ⟨before, isCaller ▸ stored, own⟩
    · exact ⟨waiter, moved, rfl⟩
  cases call with
  | lookup number awaited timeoutSeconds now =>
      change (state.lookup number awaited timeoutSeconds now).waiters.get?
        caller = some waiter at found
      have looked : ∃ place,
          state.lookup number awaited timeoutSeconds now =
            state.moveWaiter number awaited place := by
        rcases state.lookup_cases timeoutSeconds now with
          ⟨_, _, move⟩ | ⟨_, _, move⟩
        · exact ⟨_, move⟩
        · exact ⟨_, move⟩
      rcases looked with ⟨place, move⟩
      rw [move, ResponseSystem.get?_moveWaiter] at found
      split_ifs at found with isCaller
      · rcases Option.some.inj found with rfl
        exact Or.inr ⟨timeoutSeconds, now, isCaller ▸ rfl⟩
      · exact Or.inl ⟨waiter, found, rfl⟩
  | wake number =>
      left
      change (state.wake number).waiters.get? caller = _ at found
      rcases state.wake_cases number with
        same | ⟨awaited, _, stored, _, move⟩
      · rw [same] at found
        exact ⟨waiter, found, rfl⟩
      · rw [move] at found
        exact moved state number awaited _ _ rfl stored rfl found
  | expire number =>
      left
      change (state.expire number).waiters.get? caller = _ at found
      rcases state.expire_cases number with
        same | ⟨awaited, _, stored, _, move⟩
      · rw [same] at found
        exact ⟨waiter, found, rfl⟩
      · rw [move] at found
        exact moved state number awaited _ _ rfl stored rfl found
  | composeTimeout number elapsedMs =>
      left
      change (state.composeTimeout number elapsedMs).waiters.get? caller =
        _ at found
      rcases state.composeTimeout_cases number elapsedMs with
        same | ⟨awaited, _, _, stored, _, move⟩
      · rw [same] at found
        exact ⟨waiter, found, rfl⟩
      · rw [move] at found
        exact moved state number awaited _ _ rfl stored rfl found
  | takeResult number =>
      left
      change (state.takeResult number).waiters.get? caller = _ at found
      rcases state.takeResult_cases number with
        ⟨same, _⟩ | ⟨awaited, _, stored, _, _, _, move⟩
      · rw [same] at found
        exact ⟨waiter, found, rfl⟩
      · rw [move] at found
        exact moved _ number awaited _ _ rfl stored rfl found
  | giveUp number =>
      left
      change (state.giveUp number).waiters.get? caller = _ at found
      rcases state.giveUp_cases number with
        ⟨same, _⟩ | ⟨awaited, _, stored, _, move⟩
      · rw [same] at found
        exact ⟨waiter, found, rfl⟩
      · rw [move] at found
        exact moved _ number awaited _ _ rfl stored rfl found
  | _ => exact Or.inl ⟨waiter, found, rfl⟩

/-- A step moves a call to a place which is explained. -/
theorem Sourced.moves (sourced : Sourced state) (call : CoordinatorCall) :
    ∀ caller waiter,
      (call.execute state).waiters.get? caller = some waiter →
        waiter.state.Explained state waiter.requestId := by
  have moved : ∀ (reached : ResponseSystem) (number : ℕ)
      (awaited : String) (place : WaiterState),
      reached.waiters = state.waiters →
        place.Explained state awaited →
          ∀ caller waiter,
            (reached.moveWaiter number awaited place).waiters.get? caller =
                some waiter →
              waiter.state.Explained state waiter.requestId := by
    intro reached number awaited place same explained caller waiter found
    rw [ResponseSystem.get?_moveWaiter, same] at found
    split_ifs at found
    · rcases Option.some.inj found with rfl
      exact explained
    · exact sourced.waiters caller waiter found
  cases call with
  | lookup caller awaited timeoutSeconds now =>
      show ∀ number waiter,
        (state.lookup caller awaited timeoutSeconds now).waiters.get?
          number = some waiter → _
      rcases state.lookup_cases timeoutSeconds now with
        ⟨_, _, move⟩ | ⟨_, _, move⟩
      · rw [move]
        exact moved state caller awaited _ rfl trivial
      · rw [move]
        exact moved state caller awaited _ rfl trivial
  | wake caller =>
      show ∀ number waiter,
        (state.wake caller).waiters.get? number = some waiter → _
      rcases state.wake_cases caller with same | ⟨awaited, _, _, _, move⟩
      · rw [same]
        exact sourced.waiters
      · rw [move]
        exact moved state caller awaited _ rfl trivial
  | expire caller =>
      show ∀ number waiter,
        (state.expire caller).waiters.get? number = some waiter → _
      rcases state.expire_cases caller with same | ⟨awaited, _, _, _, move⟩
      · rw [same]
        exact sourced.waiters
      · rw [move]
        exact moved state caller awaited _ rfl trivial
  | composeTimeout caller elapsedMs =>
      show ∀ number waiter,
        (state.composeTimeout caller elapsedMs).waiters.get? number =
          some waiter → _
      rcases state.composeTimeout_cases caller elapsedMs with
        same | ⟨awaited, _, _, _, _, move⟩
      · rw [same]
        exact sourced.waiters
      · rw [move]
        exact moved state caller awaited _ rfl
          ⟨rfl, rfl, _, rfl, Or.inl rfl⟩
  | takeResult caller =>
      show ∀ number waiter,
        (state.takeResult caller).waiters.get? number = some waiter → _
      rcases state.takeResult_cases caller with
        ⟨same, _⟩ | ⟨awaited, outcome, _, _, taken, _, move⟩
      · rw [same]
        exact sourced.waiters
      · rw [move]
        apply moved _ caller awaited _ rfl
        rcases taken with ⟨result, rfl, _, stored⟩ | ⟨_, rfl, _⟩
        · exact sourced.results awaited result stored
        · trivial
  | giveUp caller =>
      show ∀ number waiter,
        (state.giveUp caller).waiters.get? number = some waiter → _
      rcases state.giveUp_cases caller with
        ⟨same, _⟩ | ⟨awaited, result, found, _, move⟩
      · rw [same]
        exact sourced.waiters
      · rw [move]
        apply moved _ caller awaited _ rfl
        exact Or.inl (sourced.waiters caller _ found)
  | _ => exact sourced.waiters

/-- Every step keeps all results explained. -/
theorem Sourced.execute (sourced : Sourced state)
    (shape : Shape config state.coordinator) (call : CoordinatorCall) :
    Sourced (call.execute state) where
  results := by
    intro requestId result stored
    rw [CoordinatorCall.entry_execute shape] at stored
    rcases result_onEntry call state (shape.proper requestId) stored with
      old | leavesOpen | ⟨response, orderId, now, rfl, same⟩
    · exact (sourced.results requestId result old).mono
        (notifications_kept call state)
    · exact Or.inl leavesOpen
    · exact Or.inr ⟨_, List.mem_concat_self, rfl, same.symm⟩
  waiters := by
    intro caller waiter found
    exact (sourced.moves call caller waiter found).mono
      (notifications_kept call state)

theorem Sourced.start (config : CoordinationConfig) :
    Sourced (.start config) where
  results := by
    intro requestId result stored
    cases stored
  waiters := by
    intro caller waiter found
    cases found

end Sources

end InternTradingGame
