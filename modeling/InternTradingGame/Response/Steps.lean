import InternTradingGame.Response.Entries

/-!
# The steps of the coordinator

The shape of the coordinator holds in every state: in particular the number
in a request id is used once, so an id never names two requests.
`entry_execute` says what each step does to the entry of each request, and
`waiterStep` what it does to each waiting call.
-/

namespace InternTradingGame

open Effects Sequences

namespace Coordinator

/-! ## Registration and results -/

/-- `register_request` does not raise. -/
def Accepts (state : Coordinator) : Prop :=
  state.shutdown = false ∧
    state.pendingRequests.length < state.config.maxPendingRequests

instance (state : Coordinator) : Decidable state.Accepts :=
  inferInstanceAs (Decidable (_ ∧ _))

/-- The request object made by `register_request`. -/
def newRequest (state : Coordinator) (teamId : String)
    (timeoutSeconds : Option ℚ) (timestamp : ℕ)
    (now registeredAt : ℚ) : PendingRequest where
  requestId := state.nextRequestId timestamp
  teamId := teamId
  status := .pending
  completionEvent := false
  registeredAt := registeredAt
  timeoutAt := now + state.timeoutDuration timeoutSeconds

theorem registerRequest_apply (state : Coordinator) (teamId : String)
    (timeoutSeconds : Option ℚ) (timestamp : ℕ)
    (now registeredAt : ℚ) :
    finalState
        (registerRequest teamId timeoutSeconds timestamp now registeredAt
          state) =
      if state.Accepts then
        { state with
          requestCounter := state.requestCounter + 1
          requests :=
            state.requests.set (state.nextRequestId timestamp)
              (state.newRequest teamId timeoutSeconds timestamp now
                registeredAt)
          pendingRequests :=
            if state.nextRequestId timestamp ∈ state.pendingRequests then
              state.pendingRequests
            else
              state.pendingRequests ++ [state.nextRequestId timestamp] }
      else
        state := by
  unfold registerRequest
  rw [bind_apply, get_apply]
  dsimp only
  by_cases closing : state.shutdown = true
  · have refused : ¬ state.Accepts := by
      rintro ⟨opened, _⟩
      rw [closing] at opened
      exact absurd opened (by decide)
    rw [if_pos closing, if_neg refused]
    rfl
  · rw [if_neg closing]
    by_cases full :
        state.config.maxPendingRequests ≤ state.pendingRequests.length
    · have refused : ¬ state.Accepts := by
        rintro ⟨_, room⟩
        omega
      rw [if_pos full, if_neg refused]
      rfl
    · have accepted : state.Accepts :=
        ⟨Bool.eq_false_iff.mpr closing, by omega⟩
      rw [if_neg full, if_pos accepted]
      rfl

theorem takeResult_apply (state : Coordinator) (requestId : String) :
    takeResult requestId state =
      match state.completionResults.get? requestId with
      | some result =>
          if requestId ∈ state.pendingRequests then
            .ok result (state.removeRequest requestId)
          else
            .error (.keyError requestId) state
      | none =>
          .error
            (.runtimeError
              ("No result found for completed request " ++ requestId))
            state := by
  unfold takeResult
  rw [bind_apply, get_apply]
  dsimp only
  cases state.completionResults.get? requestId with
  | none => rfl
  | some result =>
      by_cases pending : requestId ∈ state.pendingRequests
      · simp only [pending, if_true]
        rfl
      · simp only [pending, if_false]
        rfl

theorem takeResult_shrinks (state : Coordinator) (requestId : String) :
    Shrinks state (finalState (takeResult requestId state)) := by
  rw [takeResult_apply]
  cases state.completionResults.get? requestId with
  | none => exact Shrinks.refl state
  | some result =>
      by_cases pending : requestId ∈ state.pendingRequests
      · simp only [pending, if_true, finalState_ok]
        exact ⟨rfl, rfl, List.erase_sublist⟩
      · simp only [pending, if_false, finalState_error]
        exact Shrinks.refl state

theorem giveUp_shrinks (state : Coordinator) (requestId : String) :
    Shrinks state (state.giveUp requestId) := by
  unfold giveUp
  cases state.pendingRequest? requestId with
  | none => exact Shrinks.refl state
  | some request => exact ⟨rfl, rfl, List.erase_sublist⟩

theorem notifyCompletion_shrinks (state : Coordinator)
    (requestId : String) (response : ApiResponse)
    (orderId : Option String) (now : ℚ) :
    Shrinks state
      (state.notifyCompletion requestId response orderId now).2 := by
  unfold notifyCompletion
  cases state.pendingRequest? requestId with
  | none => exact Shrinks.refl state
  | some request =>
      dsimp only
      split_ifs
      · exact Shrinks.refl state
      · exact ⟨rfl, rfl, List.Sublist.refl _⟩

theorem updateStatus_shrinks (state : Coordinator)
    (requestId : String) (status : ResponseStatus)
    (stageDetails : Option StageDetails) :
    Shrinks state
      (state.updateStatus requestId status stageDetails).2 := by
  unfold updateStatus
  cases state.pendingRequest? requestId with
  | none => exact Shrinks.refl state
  | some request =>
      dsimp only
      split_ifs
      · exact Shrinks.refl state
      · exact ⟨rfl, rfl, List.Sublist.refl _⟩

theorem finishShutdown_shrinks (state : Coordinator) :
    Shrinks state state.finishShutdown :=
  ⟨rfl, rfl, List.nil_sublist _⟩

theorem entry_takeResult {state : Coordinator}
    (distinct : state.pendingRequests.Nodup)
    (requestId other : String) :
    (finalState (takeResult requestId state)).entry other =
      if other = requestId then (state.entry requestId).taken
      else state.entry other := by
  rw [takeResult_apply]
  unfold Entry.taken
  have stored :
      (state.entry requestId).result =
        state.completionResults.get? requestId := rfl
  have listed :
      (state.entry requestId).pending =
        decide (requestId ∈ state.pendingRequests) := rfl
  rw [stored, listed]
  cases found : state.completionResults.get? requestId with
  | none =>
      by_cases same : other = requestId
      · subst same
        simp
      · simp [same]
  | some result =>
      by_cases pending : requestId ∈ state.pendingRequests
      · simp [pending, entry_removeRequest state distinct]
      · by_cases same : other = requestId
        · subst same
          simp [pending]
        · simp [pending, same]

/-! ## The shape of the coordinator -/

/--
What holds in every state: the dictionaries are keyed by request ids, each
id carries a number which has been used, and the capacity is respected.
-/
structure Shape (config : CoordinationConfig) (state : Coordinator) :
    Prop where
  configured : state.config = config
  proper : ∀ requestId, (state.entry requestId).Proper requestId
  numbered : ∀ requestId, (state.entry requestId).request ≠ none →
    ∃ timestamp counter, counter ≤ state.requestCounter ∧
      requestId =
        formatRequestId config.requestIdPrefix timestamp counter
  distinct : state.pendingRequests.Nodup
  capacity :
    state.pendingRequests.length ≤ config.maxPendingRequests

variable {config : CoordinationConfig} {state : Coordinator}

theorem Shape.new (config : CoordinationConfig) :
    Shape config (Coordinator.new config) where
  configured := rfl
  proper requestId := by
    rw [entry_new]
    constructor
    · intro pending
      simp at pending
    · intro request member
      simp at member
    · intro result member
      simp at member
    · intro _
      rfl
  numbered requestId known := by
    rw [entry_new] at known
    exact absurd rfl known
  distinct := List.nodup_nil
  capacity := Nat.zero_le _

/-- The id of the next request has not been used. -/
theorem Shape.next_fresh (shape : Shape config state)
    (timestamp : ℕ) :
    (state.entry (state.nextRequestId timestamp)).request = none := by
  by_contra known
  rcases shape.numbered _ known with ⟨otherTime, counter, used, equal⟩
  have next : state.requestCounter + 1 = counter :=
    formatRequestId_counter equal
  omega

theorem Shape.next_not_pending (shape : Shape config state)
    (timestamp : ℕ) :
    state.nextRequestId timestamp ∉ state.pendingRequests := by
  intro pending
  rcases (shape.proper _).known (decide_eq_true pending) with
    ⟨request, stored⟩
  rw [shape.next_fresh timestamp] at stored
  simp at stored

/-- Operations on existing requests keep the shape. -/
theorem Shape.of_shrinks {next : Coordinator}
    (shape : Shape config state)
    (shrinks : Shrinks state next)
    (proper : ∀ requestId, (next.entry requestId).Proper requestId)
    (known : ∀ requestId, (state.entry requestId).request = none →
      (next.entry requestId).request = none) :
    Shape config next where
  configured := shrinks.config.trans shape.configured
  proper := proper
  numbered requestId stored := by
    rw [shrinks.counter]
    exact shape.numbered requestId (mt (known requestId) stored)
  distinct := shape.distinct.sublist shrinks.pending
  capacity := shrinks.pending.length_le.trans shape.capacity

theorem entry_registerRequest (shape : Shape config state)
    (teamId : String) (timeoutSeconds : Option ℚ) (timestamp : ℕ)
    (now registeredAt : ℚ) (requestId : String) :
    (finalState
        (registerRequest teamId timeoutSeconds timestamp now registeredAt
          state)).entry requestId =
      if state.Accepts ∧ requestId = state.nextRequestId timestamp then
        (state.entry requestId).registered
          (state.newRequest teamId timeoutSeconds timestamp now
            registeredAt)
      else
        state.entry requestId := by
  rw [registerRequest_apply]
  by_cases accepted : state.Accepts
  · rw [if_pos accepted, if_neg (shape.next_not_pending timestamp)]
    by_cases same : requestId = state.nextRequestId timestamp
    · subst same
      simp [accepted, entry, Entry.registered]
    · simp [same, entry, OrderedDict.get?_set]
  · simp [accepted]

theorem Shape.registerRequest (shape : Shape config state)
    (teamId : String) (timeoutSeconds : Option ℚ) (timestamp : ℕ)
    (now registeredAt : ℚ) :
    Shape config
      (finalState
        (registerRequest teamId timeoutSeconds timestamp now registeredAt
          state)) := by
  have entries :=
    entry_registerRequest shape teamId timeoutSeconds timestamp now
      registeredAt
  have applied :=
    registerRequest_apply state teamId timeoutSeconds timestamp now
      registeredAt
  by_cases accepted : state.Accepts
  · have fresh := shape.next_not_pending timestamp
    rw [if_pos accepted, if_neg fresh] at applied
    rw [applied] at entries ⊢
    constructor
    · exact shape.configured
    · intro requestId
      rw [entries]
      by_cases same : requestId = state.nextRequestId timestamp
      · rw [if_pos ⟨accepted, same⟩]
        exact (shape.proper requestId).registered same.symm
      · rw [if_neg (fun both => same both.2)]
        exact shape.proper requestId
    · intro requestId known
      rw [entries] at known
      by_cases same : requestId = state.nextRequestId timestamp
      · refine ⟨timestamp, state.requestCounter + 1, le_rfl, ?_⟩
        rw [same, nextRequestId, shape.configured]
      · rw [if_neg (fun both => same both.2)] at known
        rcases shape.numbered requestId known with
          ⟨otherTime, counter, used, equal⟩
        exact ⟨otherTime, counter, Nat.le_succ_of_le used, equal⟩
    · show (state.pendingRequests ++ [_]).Nodup
      exact
        List.nodup_append.mpr
          ⟨shape.distinct, List.nodup_singleton _, by
            intro left member right added equal
            rw [List.mem_singleton] at added
            subst added
            subst equal
            exact fresh member⟩
    · have room := accepted.2
      rw [shape.configured] at room
      show (state.pendingRequests ++ [_]).length ≤ _
      rw [List.length_append, List.length_singleton]
      exact room
  · rw [applied, if_neg accepted]
    exact shape

end Coordinator

/-! ## All steps -/

namespace ResponseSystem

variable (state : ResponseSystem) (caller : ℕ)

/-- The request whose result the call takes next. -/
def taking : Option String :=
  match state.waiters.get? caller with
  | some { requestId, state := .signalled } => some requestId
  | _ => none

/-- The request on which the call gives up next. -/
def givingUp : Option String :=
  match state.waiters.get? caller with
  | some { requestId, state := .timedOut _ } => some requestId
  | _ => none

theorem coordinator_takeResult :
    (state.takeResult caller).coordinator =
      match state.taking caller with
      | some requestId =>
          finalState (Coordinator.takeResult requestId state.coordinator)
      | none => state.coordinator := by
  unfold takeResult taking
  cases state.waiters.get? caller with
  | none => rfl
  | some waiter =>
      rcases waiter with ⟨requestId, place⟩
      cases place with
      | signalled =>
          dsimp only
          cases Coordinator.takeResult requestId state.coordinator with
          | ok result coordinator => rfl
          | error exception coordinator => rfl
      | _ => rfl

theorem coordinator_giveUp :
    (state.giveUp caller).coordinator =
      match state.givingUp caller with
      | some requestId => state.coordinator.giveUp requestId
      | none => state.coordinator := by
  unfold giveUp givingUp
  cases state.waiters.get? caller with
  | none => rfl
  | some waiter =>
      rcases waiter with ⟨requestId, place⟩
      cases place with
      | timedOut result => rfl
      | _ => rfl

/-- The steps up to the end of the event wait only move the call. -/
theorem coordinator_lookup (requestId : String)
    (timeoutSeconds : Option ℚ) (now : ℚ) :
    (state.lookup caller requestId timeoutSeconds now).coordinator =
      state.coordinator := by
  unfold lookup
  cases state.coordinator.lookupRequest requestId timeoutSeconds now with
  | ok seconds => rfl
  | error exception => rfl

theorem coordinator_wake :
    (state.wake caller).coordinator = state.coordinator := by
  unfold wake
  split
  · split_ifs <;> rfl
  · rfl

theorem coordinator_expire :
    (state.expire caller).coordinator = state.coordinator := by
  unfold expire
  split
  · split_ifs <;> rfl
  · rfl

theorem coordinator_composeTimeout (elapsedMs : ℚ) :
    (state.composeTimeout caller elapsedMs).coordinator =
      state.coordinator := by
  unfold composeTimeout
  split
  · split <;> rfl
  · rfl

end ResponseSystem

namespace CoordinatorCall

open Coordinator

/-- What a step does to the entry of one request id. -/
def onEntry (call : CoordinatorCall) (state : ResponseSystem)
    (requestId : String) (entry : Entry) : Entry :=
  match call with
  | .register teamId timeoutSeconds timestamp now registeredAt =>
      if
          state.coordinator.Accepts ∧
            requestId = state.coordinator.nextRequestId timestamp then
        entry.registered
          (state.coordinator.newRequest teamId timeoutSeconds timestamp
            now registeredAt)
      else
        entry
  | .takeResult caller =>
      if state.taking caller = some requestId then entry.taken
      else entry
  | .giveUp caller =>
      if state.givingUp caller = some requestId then entry.givenUp
      else entry
  | .notify notified response orderId now =>
      if requestId = notified then
        entry.notified requestId response orderId now
      else
        entry
  | .updateStatus updated status stageDetails =>
      if requestId = updated then entry.updated status stageDetails
      else entry
  | .cleanup clock =>
      entry.cleaned state.coordinator.config clock requestId
  | .beginShutdown clock => entry.cutOff (clock requestId)
  | .finishShutdown => entry.removed
  | _ => entry

variable {config : CoordinationConfig} {state : ResponseSystem}

theorem entry_execute (shape : Shape config state.coordinator)
    (call : CoordinatorCall) (requestId : String) :
    (call.execute state).coordinator.entry requestId =
      call.onEntry state requestId
        (state.coordinator.entry requestId) := by
  cases call with
  | register teamId timeoutSeconds timestamp now registeredAt =>
      exact
        entry_registerRequest shape teamId timeoutSeconds timestamp now
          registeredAt requestId
  | lookup caller awaited timeoutSeconds now =>
      exact
        congrArg (Coordinator.entry · requestId)
          (state.coordinator_lookup caller awaited timeoutSeconds now)
  | wake caller =>
      exact
        congrArg (Coordinator.entry · requestId)
          (state.coordinator_wake caller)
  | expire caller =>
      exact
        congrArg (Coordinator.entry · requestId)
          (state.coordinator_expire caller)
  | composeTimeout caller elapsedMs =>
      exact
        congrArg (Coordinator.entry · requestId)
          (state.coordinator_composeTimeout caller elapsedMs)
  | takeResult caller =>
      show (state.takeResult caller).coordinator.entry requestId = _
      rw [state.coordinator_takeResult caller]
      unfold onEntry
      cases taking : state.taking caller with
      | none => simp [taking]
      | some awaited =>
          dsimp only
          rw [entry_takeResult shape.distinct]
          by_cases same : requestId = awaited
          · subst same
            simp [taking]
          · simp [same, Ne.symm same, taking]
  | giveUp caller =>
      show (state.giveUp caller).coordinator.entry requestId = _
      rw [state.coordinator_giveUp caller]
      unfold onEntry
      cases givingUp : state.givingUp caller with
      | none => simp [givingUp]
      | some awaited =>
          dsimp only
          rw [entry_giveUp state.coordinator shape.distinct]
          by_cases same : requestId = awaited
          · subst same
            simp [givingUp]
          · simp [same, Ne.symm same, givingUp]
  | notify notified response orderId now =>
      refine
        (entry_notifyCompletion state.coordinator notified requestId
          response orderId now).trans ?_
      unfold onEntry
      by_cases same : requestId = notified
      · subst same
        rfl
      · simp [same]
  | updateStatus updated status stageDetails =>
      refine
        (entry_updateStatus state.coordinator updated requestId status
          stageDetails).trans ?_
      unfold onEntry
      by_cases same : requestId = updated
      · subst same
        rfl
      · simp [same]
  | cleanup clock => exact entry_cleanup clock shape.distinct requestId
  | beginShutdown clock =>
      exact
        entry_beginShutdown shape.distinct shape.proper clock requestId
  | finishShutdown =>
      exact entry_finishShutdown state.coordinator requestId

/-- No step but a registration makes a request object. -/
theorem request_onEntry {entry : Entry}
    (absent : entry.request = none)
    {call : CoordinatorCall} (requestId : String)
    (existing : ∀ teamId timeoutSeconds timestamp now registeredAt,
      call ≠ .register teamId timeoutSeconds timestamp now
        registeredAt) :
    (call.onEntry state requestId entry).request = none := by
  have idle : entry.live = none := by
    unfold Entry.live
    rw [absent, ite_self]
  cases call with
  | register teamId timeoutSeconds timestamp now registeredAt =>
      exact absurd rfl (existing _ _ _ _ _)
  | takeResult caller =>
      simp only [onEntry, Entry.taken, Entry.removed]
      split_ifs <;> exact absent
  | giveUp caller =>
      simp only [onEntry, Entry.givenUp, idle]
      split_ifs <;> exact absent
  | notify notified response orderId now =>
      simp only [onEntry, Entry.notified, idle]
      split_ifs <;> exact absent
  | updateStatus updated status stageDetails =>
      simp only [onEntry, Entry.updated, idle]
      split_ifs <;> exact absent
  | cleanup clock =>
      simp only [onEntry, Entry.cleaned]
      split_ifs
      · rw [absent]
        rfl
      · exact absent
  | beginShutdown clock =>
      simp only [onEntry, Entry.cutOff, idle]
      exact absent
  | _ => exact absent

/-- A step keeps an entry well-formed. -/
theorem proper_onEntry {entry : Entry} {requestId : String}
    (proper : entry.Proper requestId) (call : CoordinatorCall)
    (state : ResponseSystem) :
    (call.onEntry state requestId entry).Proper requestId := by
  unfold onEntry
  split
  · split_ifs with accepted
    · exact proper.registered accepted.2.symm
    · exact proper
  · split_ifs
    · exact proper.taken
    · exact proper
  · split_ifs
    · exact proper.givenUp
    · exact proper
  · split_ifs
    · exact proper.notified _ _ _
    · exact proper
  · split_ifs
    · exact proper.updated _ _
    · exact proper
  · exact proper.cleaned _ _
  · exact proper.cutOff _
  · exact proper.removed
  · exact proper

/-- Steps other than registrations only remove requests. -/
theorem shrinks_execute (shape : Shape config state.coordinator)
    {call : CoordinatorCall}
    (existing : ∀ teamId timeoutSeconds timestamp now registeredAt,
      call ≠ .register teamId timeoutSeconds timestamp now
        registeredAt) :
    Shrinks state.coordinator (call.execute state).coordinator := by
  cases call with
  | register teamId timeoutSeconds timestamp now registeredAt =>
      exact absurd rfl (existing _ _ _ _ _)
  | lookup caller awaited timeoutSeconds now =>
      exact
        (state.coordinator_lookup caller awaited timeoutSeconds now) ▸
          Shrinks.refl _
  | wake caller =>
      exact (state.coordinator_wake caller) ▸ Shrinks.refl _
  | expire caller =>
      exact (state.coordinator_expire caller) ▸ Shrinks.refl _
  | composeTimeout caller elapsedMs =>
      exact
        (state.coordinator_composeTimeout caller elapsedMs) ▸
          Shrinks.refl _
  | takeResult caller =>
      show Shrinks _ (state.takeResult caller).coordinator
      rw [state.coordinator_takeResult caller]
      cases state.taking caller with
      | none => exact Shrinks.refl _
      | some awaited => exact takeResult_shrinks _ awaited
  | giveUp caller =>
      show Shrinks _ (state.giveUp caller).coordinator
      rw [state.coordinator_giveUp caller]
      cases state.givingUp caller with
      | none => exact Shrinks.refl _
      | some awaited => exact giveUp_shrinks _ awaited
  | notify notified response orderId now =>
      exact
        notifyCompletion_shrinks _ notified response orderId now
  | updateStatus updated status stageDetails =>
      exact updateStatus_shrinks _ updated status stageDetails
  | cleanup clock => exact cleanup_shrinks clock state.coordinator
  | beginShutdown clock => exact beginShutdown_shrinks shape.proper clock
  | finishShutdown => exact finishShutdown_shrinks state.coordinator

theorem shape_execute (shape : Shape config state.coordinator)
    (call : CoordinatorCall) :
    Shape config (call.execute state).coordinator := by
  by_cases registers :
      ∃ teamId timeoutSeconds timestamp now registeredAt,
        call = .register teamId timeoutSeconds timestamp now registeredAt
  · rcases registers with
      ⟨teamId, timeoutSeconds, timestamp, now, registeredAt, rfl⟩
    exact
      shape.registerRequest teamId timeoutSeconds timestamp now
        registeredAt
  · have existing :
        ∀ teamId timeoutSeconds timestamp now registeredAt,
          call ≠ .register teamId timeoutSeconds timestamp now
            registeredAt := by
      intro teamId timeoutSeconds timestamp now registeredAt equal
      exact
        registers
          ⟨teamId, timeoutSeconds, timestamp, now, registeredAt, equal⟩
    apply shape.of_shrinks (shrinks_execute shape existing)
    · intro requestId
      rw [entry_execute shape]
      exact proper_onEntry (shape.proper requestId) call state
    · intro requestId absent
      rw [entry_execute shape]
      exact request_onEntry absent requestId existing

end CoordinatorCall

/-- The shape holds in every state of every run. -/
theorem Coordinator.Shape.of_run {config : CoordinationConfig}
    {allowed : CoordinatorCall → ResponseSystem → Prop}
    {labels : List CoordinatorCall} {finish : ResponseSystem}
    (run :
      Run (GuardedStep allowed CoordinatorCall.execute) (.start config)
        labels finish) :
    Coordinator.Shape config finish.coordinator := by
  apply run.invariant
    (fun state => Coordinator.Shape config state.coordinator)
  · exact Coordinator.Shape.new config
  · rintro state call next shape ⟨_, rfl⟩
    exact CoordinatorCall.shape_execute shape call

end InternTradingGame
