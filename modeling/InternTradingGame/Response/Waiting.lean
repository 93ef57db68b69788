import InternTradingGame.Response.Steps

/-!
# A request and the call that waits for it

The view of one request and its single waiting call is what the coordinator
holds under the id and where the call stands.  `WaitStep` lists what a step
of the system can do to it; the other requests and calls do not matter.
-/

namespace InternTradingGame

open Effects Coordinator

/-- The event of the request object is set. -/
def Entry.Signalled (entry : Entry) : Prop :=
  ∃ request ∈ entry.request, request.completionEvent = true

instance (entry : Entry) : Decidable entry.Signalled :=
  inferInstanceAs (Decidable (∃ request ∈ _, _))

/-- A request and the call that waits for it, if it has begun. -/
structure Wait where
  entry : Entry
  place : Option WaiterState

namespace ResponseSystem

/-- The request, and the call with the number. -/
def wait (caller : ℕ) (requestId : String) (state : ResponseSystem) :
    Wait where
  entry := state.coordinator.entry requestId
  place := (state.waiters.get? caller).map Waiter.state

end ResponseSystem

namespace CoordinatorCall

/--
The call with the number is the only one that waits for the request, and it
begins after the registration.
-/
def AwaitedOnce (caller : ℕ) (requestId : String) :
    CoordinatorCall → ResponseSystem → Prop
  | .lookup number awaited _ _, state =>
      ¬ state.waiters.Contains number ∧
        (awaited = requestId ↔ number = caller) ∧
          (awaited = requestId →
            state.coordinator.requests.Contains requestId)
  | call, state => call.Allowed state

instance (caller : ℕ) (requestId : String) (call : CoordinatorCall)
    (state : ResponseSystem) :
    Decidable (call.AwaitedOnce caller requestId state) := by
  rcases call
  case lookup number awaited _ _ =>
      exact inferInstanceAs
        (Decidable
          (¬ state.waiters.Contains number ∧
            (awaited = requestId ↔ number = caller) ∧
              (awaited = requestId →
                state.coordinator.requests.Contains requestId)))
  case finishShutdown =>
      exact inferInstanceAs
        (Decidable (state.coordinator.shutdown = true))
  all_goals exact inferInstanceAs (Decidable True)

/-- The step is about another request, or about none. -/
def Elsewhere (requestId : String) : CoordinatorCall → Prop
  | .notify notified _ _ _ => notified ≠ requestId
  | .updateStatus updated _ _ => updated ≠ requestId
  | .cleanup _ => False
  | .beginShutdown _ => False
  | .finishShutdown => False
  | _ => True

end CoordinatorCall

/-- One step of the system in which the request is awaited once. -/
abbrev WaitedStep (caller : ℕ) (requestId : String) :
    ResponseSystem → CoordinatorCall → ResponseSystem → Prop :=
  GuardedStep (CoordinatorCall.AwaitedOnce caller requestId)
    CoordinatorCall.execute

/-- What a step does to a request and the call that waits for it. -/
inductive WaitStep (config : CoordinationConfig) (caller : ℕ)
    (requestId : String) : CoordinatorCall → Wait → Wait → Prop where
  | elsewhere {call : CoordinatorCall} {wait : Wait}
      (irrelevant : call.Elsewhere requestId) :
      WaitStep config caller requestId call wait wait
  | register {entry : Entry} {place : Option WaiterState}
      {request : PendingRequest} {teamId : String}
      {timeoutSeconds : Option ℚ} {timestamp : ℕ} {now registeredAt : ℚ}
      (fresh : entry.request = none)
      (active : request.status.isTerminal = false)
      (unset : request.completionEvent = false) :
      WaitStep config caller requestId
        (.register teamId timeoutSeconds timestamp now registeredAt)
        ⟨entry, place⟩ ⟨entry.registered request, place⟩
  | start {entry : Entry} {seconds now : ℚ}
      {timeoutSeconds : Option ℚ}
      (known : entry.request ≠ none)
      (pending : entry.pending = true) :
      WaitStep config caller requestId
        (.lookup caller requestId timeoutSeconds now)
        ⟨entry, none⟩ ⟨entry, some (.waiting seconds)⟩
  | refuse {entry : Entry} {now : ℚ} {timeoutSeconds : Option ℚ}
      {exception : PyError}
      (known : entry.request ≠ none)
      (gone : entry.pending = false) :
      WaitStep config caller requestId
        (.lookup caller requestId timeoutSeconds now)
        ⟨entry, none⟩ ⟨entry, some (.finished (.error exception))⟩
  | wake {entry : Entry} {seconds : ℚ}
      (signalled : entry.Signalled) :
      WaitStep config caller requestId (.wake caller)
        ⟨entry, some (.waiting seconds)⟩ ⟨entry, some .signalled⟩
  | expire {entry : Entry} {seconds : ℚ}
      (unset : ¬ entry.Signalled) :
      WaitStep config caller requestId (.expire caller)
        ⟨entry, some (.waiting seconds)⟩
        ⟨entry, some (.expired seconds)⟩
  | compose {entry : Entry} {seconds elapsedMs : ℚ}
      {request : PendingRequest}
      (stored : entry.request = some request) :
      WaitStep config caller requestId (.composeTimeout caller elapsedMs)
        ⟨entry, some (.expired seconds)⟩
        ⟨entry,
          some
            (.timedOut
              (waitTimeoutResult requestId request seconds elapsedMs))⟩
  | take {entry : Entry} {result : ResponseResult}
      (pending : entry.pending = true)
      (stored : entry.result = some result) :
      WaitStep config caller requestId (.takeResult caller)
        ⟨entry, some .signalled⟩
        ⟨entry.removed, some (.finished (.ok result))⟩
  | takeFails {entry : Entry} {exception : PyError}
      (missing : ¬ (entry.pending = true ∧ entry.result.isSome = true)) :
      WaitStep config caller requestId (.takeResult caller)
        ⟨entry, some .signalled⟩
        ⟨entry, some (.finished (.error exception))⟩
  | giveUp {entry : Entry} {result : ResponseResult} :
      WaitStep config caller requestId (.giveUp caller)
        ⟨entry, some (.timedOut result)⟩
        ⟨entry.givenUp, some (.finished (.ok result))⟩
  | notify {entry : Entry} {place : Option WaiterState}
      {response : ApiResponse} {orderId : Option String} {now : ℚ} :
      WaitStep config caller requestId
        (.notify requestId response orderId now) ⟨entry, place⟩
        ⟨entry.notified requestId response orderId now, place⟩
  | updateStatus {entry : Entry} {place : Option WaiterState}
      {status : ResponseStatus} {stageDetails : Option StageDetails} :
      WaitStep config caller requestId
        (.updateStatus requestId status stageDetails) ⟨entry, place⟩
        ⟨entry.updated status stageDetails, place⟩
  | cleanup {entry : Entry} {place : Option WaiterState}
      {clock : CleanupClock} :
      WaitStep config caller requestId (.cleanup clock) ⟨entry, place⟩
        ⟨entry.cleaned config clock requestId, place⟩
  | beginShutdown {entry : Entry} {place : Option WaiterState}
      {clock : String → ℚ} :
      WaitStep config caller requestId (.beginShutdown clock)
        ⟨entry, place⟩ ⟨entry.cutOff (clock requestId), place⟩
  | finishShutdown {entry : Entry} {place : Option WaiterState} :
      WaitStep config caller requestId .finishShutdown ⟨entry, place⟩
        ⟨entry.removed, place⟩

/-! ## Every step is such a step -/

/-- The call with the number is the only one that waits. -/
def Alone (caller : ℕ) (requestId : String) (state : ResponseSystem) :
    Prop :=
  ∀ number waiter, state.waiters.get? number = some waiter →
    (waiter.requestId = requestId ↔ number = caller)

theorem Alone.start (caller : ℕ) (requestId : String)
    (config : CoordinationConfig) :
    Alone caller requestId (.start config) := by
  intro number waiter stored
  simp [ResponseSystem.start] at stored

namespace ResponseSystem

variable {caller number : ℕ} {requestId awaited : String}
  {state : ResponseSystem}

theorem get?_moveWaiter (next : WaiterState) (other : ℕ) :
    (state.moveWaiter number awaited next).waiters.get? other =
      if other = number then some ⟨awaited, next⟩
      else state.waiters.get? other :=
  OrderedDict.get?_set _ _ _ _

/-- A step of another call does not move this one. -/
theorem wait_moveWaiter_of_ne (next : WaiterState)
    (different : caller ≠ number) :
    (state.moveWaiter number awaited next).wait caller requestId =
      state.wait caller requestId := by
  unfold wait
  rw [get?_moveWaiter, if_neg different]
  rfl

theorem wait_moveWaiter_self (next : WaiterState) :
    (state.moveWaiter caller awaited next).wait caller requestId =
      ⟨state.coordinator.entry requestId, some next⟩ := by
  unfold wait
  rw [get?_moveWaiter, if_pos rfl]
  rfl

theorem alone_moveWaiter (alone : Alone caller requestId state)
    (next : WaiterState)
    (own : awaited = requestId ↔ number = caller) :
    Alone caller requestId (state.moveWaiter number awaited next) := by
  intro other waiter stored
  rw [get?_moveWaiter] at stored
  by_cases same : other = number
  · rw [if_pos same] at stored
    rcases Option.some.inj stored with rfl
    rw [same]
    exact own
  · rw [if_neg same] at stored
    exact alone other waiter stored

/-! ### The steps of one call -/

theorem lookup_cases (timeoutSeconds : Option ℚ) (now : ℚ) :
    (∃ seconds,
        (state.coordinator.entry awaited).pending = true ∧
          state.lookup number awaited timeoutSeconds now =
            state.moveWaiter number awaited (.waiting seconds)) ∨
      ∃ exception,
        (state.coordinator.entry awaited).live = none ∧
          state.lookup number awaited timeoutSeconds now =
            state.moveWaiter number awaited
              (.finished (.error exception)) := by
  unfold lookup lookupRequest
  rw [live_entry]
  cases live : state.coordinator.pendingRequest? awaited with
  | none => exact Or.inr ⟨_, rfl, rfl⟩
  | some request =>
      rw [← live_entry] at live
      exact
        Or.inl ⟨_, (Entry.live_eq_some_iff.mp live).1, rfl⟩

theorem wake_cases (number : ℕ) :
    state.wake number = state ∨
      ∃ awaited seconds,
        state.waiters.get? number = some ⟨awaited, .waiting seconds⟩ ∧
          (state.coordinator.entry awaited).Signalled ∧
            state.wake number =
              state.moveWaiter number awaited .signalled := by
  unfold wake
  cases stored : state.waiters.get? number with
  | none => exact Or.inl rfl
  | some waiter =>
      rcases waiter with ⟨awaited, place⟩
      cases place with
      | waiting seconds =>
          by_cases event : state.EventSet awaited
          · exact Or.inr ⟨awaited, seconds, rfl, event, if_pos event⟩
          · exact Or.inl (if_neg event)
      | _ => exact Or.inl rfl

theorem expire_cases (number : ℕ) :
    state.expire number = state ∨
      ∃ awaited seconds,
        state.waiters.get? number = some ⟨awaited, .waiting seconds⟩ ∧
          ¬ (state.coordinator.entry awaited).Signalled ∧
            state.expire number =
              state.moveWaiter number awaited (.expired seconds) := by
  unfold expire
  cases stored : state.waiters.get? number with
  | none => exact Or.inl rfl
  | some waiter =>
      rcases waiter with ⟨awaited, place⟩
      cases place with
      | waiting seconds =>
          by_cases event : state.EventSet awaited
          · exact Or.inl (if_pos event)
          · exact Or.inr ⟨awaited, seconds, rfl, event, if_neg event⟩
      | _ => exact Or.inl rfl

theorem composeTimeout_cases (number : ℕ) (elapsedMs : ℚ) :
    state.composeTimeout number elapsedMs = state ∨
      ∃ awaited seconds request,
        state.waiters.get? number = some ⟨awaited, .expired seconds⟩ ∧
          (state.coordinator.entry awaited).request = some request ∧
            state.composeTimeout number elapsedMs =
              state.moveWaiter number awaited
                (.timedOut
                  (waitTimeoutResult awaited request seconds
                    elapsedMs)) := by
  unfold composeTimeout
  cases stored : state.waiters.get? number with
  | none => exact Or.inl rfl
  | some waiter =>
      rcases waiter with ⟨awaited, place⟩
      cases place with
      | expired seconds =>
          dsimp only
          cases found : state.coordinator.requests.get? awaited with
          | none => exact Or.inl rfl
          | some request =>
              exact
                Or.inr ⟨awaited, seconds, request, rfl, found, rfl⟩
      | _ => exact Or.inl rfl

theorem takeResult_cases (number : ℕ) :
    (state.takeResult number = state ∧ state.taking number = none) ∨
      ∃ awaited outcome,
        state.waiters.get? number = some ⟨awaited, .signalled⟩ ∧
          state.taking number = some awaited ∧
            ((∃ result, outcome = .ok result ∧
                (state.coordinator.entry awaited).pending = true ∧
                  (state.coordinator.entry awaited).result =
                    some result) ∨
              ∃ exception, outcome = .error exception ∧
                ¬ ((state.coordinator.entry awaited).pending = true ∧
                  (state.coordinator.entry awaited).result.isSome =
                    true)) ∧
              ∃ coordinator,
                state.takeResult number =
                  { state with coordinator := coordinator }.moveWaiter
                    number awaited (.finished outcome) := by
  unfold takeResult taking
  cases stored : state.waiters.get? number with
  | none => exact Or.inl ⟨rfl, rfl⟩
  | some waiter =>
      rcases waiter with ⟨awaited, place⟩
      cases place with
      | signalled =>
          right
          dsimp only
          rw [Coordinator.takeResult_apply]
          have result :
              (state.coordinator.entry awaited).result =
                state.coordinator.completionResults.get? awaited := rfl
          cases found :
              state.coordinator.completionResults.get? awaited with
          | none =>
              rw [found] at result
              refine ⟨awaited, _, rfl, rfl, Or.inr ⟨_, rfl, ?_⟩, _, rfl⟩
              rw [result]
              simp
          | some value =>
              rw [found] at result
              by_cases pending :
                  awaited ∈ state.coordinator.pendingRequests
              · simp only [pending, if_true]
                exact
                  ⟨awaited, _, rfl, rfl,
                    Or.inl ⟨value, rfl, decide_eq_true pending, result⟩,
                    _, rfl⟩
              · simp only [pending, if_false]
                refine
                  ⟨awaited, _, rfl, rfl, Or.inr ⟨_, rfl, ?_⟩, _, rfl⟩
                rintro ⟨listed, _⟩
                exact pending (of_decide_eq_true listed)
      | _ => exact Or.inl ⟨rfl, rfl⟩

theorem giveUp_cases (number : ℕ) :
    (state.giveUp number = state ∧ state.givingUp number = none) ∨
      ∃ awaited result,
        state.waiters.get? number = some ⟨awaited, .timedOut result⟩ ∧
          state.givingUp number = some awaited ∧
            state.giveUp number =
              { state with
                coordinator :=
                  state.coordinator.giveUp awaited }.moveWaiter number
                    awaited (.finished (.ok result)) := by
  unfold giveUp givingUp
  cases stored : state.waiters.get? number with
  | none => exact Or.inl ⟨rfl, rfl⟩
  | some waiter =>
      rcases waiter with ⟨awaited, place⟩
      cases place with
      | timedOut result => exact Or.inr ⟨awaited, result, rfl, rfl, rfl⟩
      | _ => exact Or.inl ⟨rfl, rfl⟩

end ResponseSystem

/-! ### All steps -/

section Steps

variable {config : CoordinationConfig} {caller : ℕ}
  {requestId : String} {state : ResponseSystem}

/-- A step which moves no call only changes the entry. -/
theorem wait_execute_of_waiters
    (shape : Shape config state.coordinator)
    {call : CoordinatorCall}
    (unmoved : (call.execute state).waiters = state.waiters) :
    (call.execute state).wait caller requestId =
      ⟨call.onEntry state requestId
          (state.coordinator.entry requestId),
        (state.wait caller requestId).place⟩ := by
  unfold ResponseSystem.wait
  rw [CoordinatorCall.entry_execute shape, unmoved]

theorem alone_of_waiters (alone : Alone caller requestId state)
    {next : ResponseSystem}
    (unmoved : next.waiters = state.waiters) :
    Alone caller requestId next := by
  intro number waiter stored
  rw [unmoved] at stored
  exact alone number waiter stored

theorem waitStep_wake (alone : Alone caller requestId state)
    (number : ℕ) :
    WaitStep config caller requestId (.wake number)
        (state.wait caller requestId)
        ((state.wake number).wait caller requestId) ∧
      Alone caller requestId (state.wake number) := by
  rcases state.wake_cases number with
    same | ⟨awaited, seconds, stored, event, moved⟩
  · rw [same]
    exact ⟨.elsewhere trivial, alone⟩
  · have own := alone number _ stored
    rw [moved]
    refine ⟨?_, ResponseSystem.alone_moveWaiter alone _ own⟩
    by_cases same : caller = number
    · subst same
      obtain rfl : awaited = requestId := own.mpr rfl
      rw [ResponseSystem.wait_moveWaiter_self]
      have before :
          state.wait caller awaited =
            ⟨state.coordinator.entry awaited,
              some (.waiting seconds)⟩ := by
        unfold ResponseSystem.wait
        rw [stored]
        rfl
      rw [before]
      exact .wake event
    · rw [ResponseSystem.wait_moveWaiter_of_ne _ same]
      exact .elsewhere trivial

theorem waitStep_expire (alone : Alone caller requestId state)
    (number : ℕ) :
    WaitStep config caller requestId (.expire number)
        (state.wait caller requestId)
        ((state.expire number).wait caller requestId) ∧
      Alone caller requestId (state.expire number) := by
  rcases state.expire_cases number with
    same | ⟨awaited, seconds, stored, unset, moved⟩
  · rw [same]
    exact ⟨.elsewhere trivial, alone⟩
  · have own := alone number _ stored
    rw [moved]
    refine ⟨?_, ResponseSystem.alone_moveWaiter alone _ own⟩
    by_cases same : caller = number
    · subst same
      obtain rfl : awaited = requestId := own.mpr rfl
      rw [ResponseSystem.wait_moveWaiter_self]
      have before :
          state.wait caller awaited =
            ⟨state.coordinator.entry awaited,
              some (.waiting seconds)⟩ := by
        unfold ResponseSystem.wait
        rw [stored]
        rfl
      rw [before]
      exact .expire unset
    · rw [ResponseSystem.wait_moveWaiter_of_ne _ same]
      exact .elsewhere trivial

theorem waitStep_composeTimeout (alone : Alone caller requestId state)
    (number : ℕ) (elapsedMs : ℚ) :
    WaitStep config caller requestId (.composeTimeout number elapsedMs)
        (state.wait caller requestId)
        ((state.composeTimeout number elapsedMs).wait caller
          requestId) ∧
      Alone caller requestId
        (state.composeTimeout number elapsedMs) := by
  rcases state.composeTimeout_cases number elapsedMs with
    same | ⟨awaited, seconds, request, stored, found, moved⟩
  · rw [same]
    exact ⟨.elsewhere trivial, alone⟩
  · have own := alone number _ stored
    rw [moved]
    refine ⟨?_, ResponseSystem.alone_moveWaiter alone _ own⟩
    by_cases same : caller = number
    · subst same
      obtain rfl : awaited = requestId := own.mpr rfl
      rw [ResponseSystem.wait_moveWaiter_self]
      have before :
          state.wait caller awaited =
            ⟨state.coordinator.entry awaited,
              some (.expired seconds)⟩ := by
        unfold ResponseSystem.wait
        rw [stored]
        rfl
      rw [before]
      exact .compose found
    · rw [ResponseSystem.wait_moveWaiter_of_ne _ same]
      exact .elsewhere trivial

theorem waitStep_lookup (alone : Alone caller requestId state)
    {number : ℕ} {awaited : String} {timeoutSeconds : Option ℚ}
    {now : ℚ}
    (guard :
      (CoordinatorCall.lookup number awaited timeoutSeconds
        now).AwaitedOnce caller requestId state) :
    WaitStep config caller requestId
        (.lookup number awaited timeoutSeconds now)
        (state.wait caller requestId)
        ((state.lookup number awaited timeoutSeconds now).wait caller
          requestId) ∧
      Alone caller requestId
        (state.lookup number awaited timeoutSeconds now) := by
  rcases guard with ⟨unused, own, known⟩
  have absent : state.waiters.get? number = none :=
    (state.waiters.get?_eq_none_iff number).mpr unused
  have moves : ∀ next,
      Alone caller requestId (state.moveWaiter number awaited next) :=
    fun next => ResponseSystem.alone_moveWaiter alone next own
  by_cases same : caller = number
  · subst same
    obtain rfl : awaited = requestId := own.mpr rfl
    have before :
        state.wait caller awaited =
          ⟨state.coordinator.entry awaited, none⟩ := by
      unfold ResponseSystem.wait
      rw [absent]
      rfl
    have stored : (state.coordinator.entry awaited).request ≠ none := by
      intro missing
      exact
        (state.coordinator.requests.get?_eq_none_iff awaited).mp missing
          (known rfl)
    rcases state.lookup_cases timeoutSeconds now with
      ⟨seconds, pending, moved⟩ | ⟨exception, idle, moved⟩
    · rw [moved, before, ResponseSystem.wait_moveWaiter_self]
      exact ⟨.start stored pending, moves _⟩
    · have gone : (state.coordinator.entry awaited).pending = false := by
        by_contra pending
        rw [Bool.not_eq_false] at pending
        rcases Option.ne_none_iff_exists'.mp stored with ⟨request, present⟩
        rw [Entry.live_eq_some_iff.mpr ⟨pending, present⟩] at idle
        exact absurd idle (by simp)
      rw [moved, before, ResponseSystem.wait_moveWaiter_self]
      exact ⟨.refuse stored gone, moves _⟩
  · rcases state.lookup_cases timeoutSeconds now with
      ⟨seconds, pending, moved⟩ | ⟨exception, idle, moved⟩
    · rw [moved, ResponseSystem.wait_moveWaiter_of_ne _ same]
      exact ⟨.elsewhere trivial, moves _⟩
    · rw [moved, ResponseSystem.wait_moveWaiter_of_ne _ same]
      exact ⟨.elsewhere trivial, moves _⟩

theorem waitStep_takeResult (shape : Shape config state.coordinator)
    (alone : Alone caller requestId state) (number : ℕ) :
    WaitStep config caller requestId (.takeResult number)
        (state.wait caller requestId)
        ((state.takeResult number).wait caller requestId) ∧
      Alone caller requestId (state.takeResult number) := by
  have entry :
      (state.takeResult number).coordinator.entry requestId = _ :=
    CoordinatorCall.entry_execute shape (.takeResult number) requestId
  simp only [CoordinatorCall.onEntry] at entry
  rcases state.takeResult_cases number with
    ⟨same, _⟩ |
      ⟨awaited, outcome, stored, taking, ended, coordinator, moved⟩
  · rw [same]
    exact ⟨.elsewhere trivial, alone⟩
  · have own := alone number _ stored
    have others : Alone caller requestId (state.takeResult number) := by
      rw [moved]
      exact ResponseSystem.alone_moveWaiter (by exact alone) _ own
    refine ⟨?_, others⟩
    rw [taking] at entry
    by_cases same : caller = number
    · subst same
      obtain rfl : awaited = requestId := own.mpr rfl
      have before :
          state.wait caller awaited =
            ⟨state.coordinator.entry awaited, some .signalled⟩ := by
        unfold ResponseSystem.wait
        rw [stored]
        rfl
      have after :
          (state.takeResult caller).wait caller awaited =
            ⟨(state.coordinator.entry awaited).taken,
              some (.finished outcome)⟩ := by
        unfold ResponseSystem.wait
        rw [entry, if_pos rfl, moved, ResponseSystem.get?_moveWaiter,
          if_pos rfl]
        rfl
      rw [before, after]
      rcases ended with
        ⟨result, rfl, pending, found⟩ | ⟨exception, rfl, missing⟩
      · have takes :
            (state.coordinator.entry awaited).taken =
              (state.coordinator.entry awaited).removed := by
          unfold Entry.taken
          rw [if_pos ⟨pending, by rw [found]; rfl⟩]
        rw [takes]
        exact .take pending found
      · have keeps :
            (state.coordinator.entry awaited).taken =
              state.coordinator.entry awaited := by
          unfold Entry.taken
          rw [if_neg missing]
        rw [keeps]
        exact .takeFails missing
    · have different : awaited ≠ requestId := by
        intro equal
        exact same (own.mp equal).symm
      have after :
          (state.takeResult number).wait caller requestId =
            state.wait caller requestId := by
        unfold ResponseSystem.wait
        rw [entry, if_neg (by simpa using different), moved,
          ResponseSystem.get?_moveWaiter, if_neg same]
      rw [after]
      exact .elsewhere trivial

theorem waitStep_giveUp (shape : Shape config state.coordinator)
    (alone : Alone caller requestId state) (number : ℕ) :
    WaitStep config caller requestId (.giveUp number)
        (state.wait caller requestId)
        ((state.giveUp number).wait caller requestId) ∧
      Alone caller requestId (state.giveUp number) := by
  have entry :
      (state.giveUp number).coordinator.entry requestId = _ :=
    CoordinatorCall.entry_execute shape (.giveUp number) requestId
  simp only [CoordinatorCall.onEntry] at entry
  rcases state.giveUp_cases number with
    ⟨same, _⟩ | ⟨awaited, result, stored, givingUp, moved⟩
  · rw [same]
    exact ⟨.elsewhere trivial, alone⟩
  · have own := alone number _ stored
    have others : Alone caller requestId (state.giveUp number) := by
      rw [moved]
      exact ResponseSystem.alone_moveWaiter (by exact alone) _ own
    refine ⟨?_, others⟩
    rw [givingUp] at entry
    by_cases same : caller = number
    · subst same
      obtain rfl : awaited = requestId := own.mpr rfl
      have before :
          state.wait caller awaited =
            ⟨state.coordinator.entry awaited,
              some (.timedOut result)⟩ := by
        unfold ResponseSystem.wait
        rw [stored]
        rfl
      have after :
          (state.giveUp caller).wait caller awaited =
            ⟨(state.coordinator.entry awaited).givenUp,
              some (.finished (.ok result))⟩ := by
        unfold ResponseSystem.wait
        rw [entry, if_pos rfl, moved, ResponseSystem.get?_moveWaiter,
          if_pos rfl]
        rfl
      rw [before, after]
      exact .giveUp
    · have different : awaited ≠ requestId := by
        intro equal
        exact same (own.mp equal).symm
      have after :
          (state.giveUp number).wait caller requestId =
            state.wait caller requestId := by
        unfold ResponseSystem.wait
        rw [entry, if_neg (by simpa using different), moved,
          ResponseSystem.get?_moveWaiter, if_neg same]
      rw [after]
      exact .elsewhere trivial

/-- What a step does to the request and to the call that waits for it. -/
theorem waitStep_execute (shape : Shape config state.coordinator)
    (alone : Alone caller requestId state)
    {call : CoordinatorCall}
    (guard : call.AwaitedOnce caller requestId state) :
    WaitStep config caller requestId call
        (state.wait caller requestId)
        ((call.execute state).wait caller requestId) ∧
      Alone caller requestId (call.execute state) := by
  have unmoved :
      (call.execute state).waiters = state.waiters →
        (call.execute state).wait caller requestId =
            ⟨call.onEntry state requestId
                (state.coordinator.entry requestId),
              (state.wait caller requestId).place⟩ ∧
          Alone caller requestId (call.execute state) :=
    fun same =>
      ⟨wait_execute_of_waiters shape same, alone_of_waiters alone same⟩
  cases call with
  | register teamId timeoutSeconds timestamp now registeredAt =>
      rcases unmoved rfl with ⟨after, still⟩
      refine ⟨?_, still⟩
      rw [after]
      simp only [CoordinatorCall.onEntry]
      split_ifs with accepted
      · have fresh := shape.next_fresh timestamp
        rw [← accepted.2] at fresh
        exact .register fresh rfl rfl
      · exact .elsewhere trivial
  | lookup number awaited timeoutSeconds now =>
      exact waitStep_lookup alone guard
  | wake number => exact waitStep_wake alone number
  | expire number => exact waitStep_expire alone number
  | composeTimeout number elapsedMs =>
      exact waitStep_composeTimeout alone number elapsedMs
  | takeResult number => exact waitStep_takeResult shape alone number
  | giveUp number => exact waitStep_giveUp shape alone number
  | notify notified response orderId now =>
      rcases unmoved rfl with ⟨after, still⟩
      refine ⟨?_, still⟩
      rw [after]
      simp only [CoordinatorCall.onEntry]
      split_ifs with same
      · subst same
        exact .notify
      · exact .elsewhere (Ne.symm same)
  | updateStatus updated status stageDetails =>
      rcases unmoved rfl with ⟨after, still⟩
      refine ⟨?_, still⟩
      rw [after]
      simp only [CoordinatorCall.onEntry]
      split_ifs with same
      · subst same
        exact .updateStatus
      · exact .elsewhere (Ne.symm same)
  | cleanup clock =>
      rcases unmoved rfl with ⟨after, still⟩
      refine ⟨?_, still⟩
      rw [after]
      simp only [CoordinatorCall.onEntry, shape.configured]
      exact .cleanup
  | beginShutdown clock =>
      rcases unmoved rfl with ⟨after, still⟩
      refine ⟨?_, still⟩
      rw [after]
      exact .beginShutdown
  | finishShutdown =>
      rcases unmoved rfl with ⟨after, still⟩
      refine ⟨?_, still⟩
      rw [after]
      exact .finishShutdown

end Steps

end InternTradingGame
