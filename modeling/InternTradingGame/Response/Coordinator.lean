import InternTradingGame.Library.Effects
import InternTradingGame.Library.Runs
import InternTradingGame.Positions.Settlement
import InternTradingGame.Response.Models

/-!
# The response coordinator

API calls register a request and wait for its completion; the threads of the
exchange notify the coordinator, and a cleanup thread removes old requests.
Every operation works on the coordinator under its lock, so it is a function
of the coordinator's state and of the clock readings it takes.

A waiting call holds a reference to its `PendingRequest` object, also after
the request has been removed.  The objects therefore live in `requests`,
under their ids, and `pendingRequests` lists the ids that are in the
dictionary of pending requests.
-/

namespace InternTradingGame

open Effects

/-- `OrderResponseCoordinator`. -/
structure Coordinator where
  config : CoordinationConfig
  requests : OrderedDict String PendingRequest
  pendingRequests : List String
  completionResults : OrderedDict String ResponseResult
  requestCounter : ℕ
  shutdown : Bool

namespace Coordinator

/-- The coordinator as it is created, without requests. -/
def new (config : CoordinationConfig) : Coordinator where
  config := config
  requests := ∅
  pendingRequests := []
  completionResults := ∅
  requestCounter := 0
  shutdown := false

/-- `_pending_requests.get(request_id)`. -/
def pendingRequest? (state : Coordinator) (requestId : String) :
    Option PendingRequest :=
  if requestId ∈ state.pendingRequests then
    state.requests.get? requestId
  else
    none

/-! ## Registration -/

/-- `timeout_seconds or default_timeout_seconds`. -/
def timeoutDuration (state : Coordinator) (timeoutSeconds : Option ℚ) :
    ℚ :=
  match timeoutSeconds with
  | none => state.config.defaultTimeoutSeconds
  | some seconds =>
      if seconds = 0 then state.config.defaultTimeoutSeconds else seconds

/-- The id the next request gets. -/
def nextRequestId (state : Coordinator) (timestamp : ℕ) : String :=
  formatRequestId state.config.requestIdPrefix timestamp
    (state.requestCounter + 1)

/-- `register_request`. -/
def registerRequest (teamId : String) (timeoutSeconds : Option ℚ)
    (timestamp : ℕ) (now registeredAt : ℚ) :
    EStateM PyError Coordinator ResponseRegistration := do
  let state ← get
  if state.shutdown then
    throw (.runtimeError "Coordinator is shutting down")
  else if
      state.config.maxPendingRequests ≤ state.pendingRequests.length then
    throw (.runtimeError
      ("Service overloaded: " ++ toString state.pendingRequests.length ++
        "/" ++ toString state.config.maxPendingRequests ++
        " pending requests"))
  else
    let requestId := state.nextRequestId timestamp
    let timeoutAt := now + state.timeoutDuration timeoutSeconds
    set
      { state with
        requestCounter := state.requestCounter + 1
        requests :=
          state.requests.set requestId
            { requestId := requestId
              teamId := teamId
              status := .pending
              completionEvent := false
              registeredAt := registeredAt
              timeoutAt := timeoutAt }
        pendingRequests :=
          if requestId ∈ state.pendingRequests then
            state.pendingRequests
          else
            state.pendingRequests ++ [requestId] }
    return { requestId, teamId, timeoutAt, status := .pending }

/-! ## Notifications and updates -/

/-- The result of a notification. -/
def notificationResult (request : PendingRequest) (requestId : String)
    (response : ApiResponse) (orderId : Option String) (now : ℚ) :
    ResponseResult where
  requestId := requestId
  success := response.success
  apiResponse := response
  processingTimeMs := (now - request.registeredAt) * 1000
  finalStatus := response.finalStatus
  orderId := orderId

/-- `notify_completion`. -/
def notifyCompletion (requestId : String) (response : ApiResponse)
    (orderId : Option String) (now : ℚ) (state : Coordinator) :
    Bool × Coordinator :=
  match state.pendingRequest? requestId with
  | none => (false, state)
  | some request =>
      if request.status.isTerminal then
        (true, state)
      else
        let result :=
          notificationResult request requestId response orderId now
        (true,
          { state with
            requests :=
              state.requests.set requestId
                { request with
                  status := result.finalStatus
                  orderId := orderId
                  completionEvent := true }
            completionResults :=
              state.completionResults.set requestId result })

/-- `update_status`. -/
def updateStatus (requestId : String) (status : ResponseStatus)
    (stageDetails : Option StageDetails) (state : Coordinator) :
    Bool × Coordinator :=
  match state.pendingRequest? requestId with
  | none => (false, state)
  | some request =>
      if request.status.isTerminal then
        (false, state)
      else
        (true,
          { state with
            requests :=
              state.requests.set requestId
                ({ request with status := status }.updateStage
                  stageDetails) })

/-! ## Cleanup -/

/-- `_create_timeout_response`. -/
def createTimeoutResponse (request : PendingRequest) (now : ℚ) :
    ResponseResult where
  requestId := request.requestId
  success := false
  apiResponse :=
    { success := false
      requestId := request.requestId
      orderId := none
      error :=
        some
          { code := "PROCESSING_TIMEOUT"
            message := "Order processing exceeded time limit"
            details :=
              some
                [("timeout_ms",
                    .number
                      (truncate
                        ((request.timeoutAt - request.registeredAt) *
                          1000))),
                  ("stage", request.currentStage),
                  ("team_id", .text request.teamId)] } }
  processingTimeMs := (now - request.registeredAt) * 1000
  finalStatus := .timeout

/-- `_handle_expired_request`. -/
def handleExpiredRequest (requestId : String) (request : PendingRequest)
    (now : ℚ) (state : Coordinator) : Coordinator :=
  if request.status = .timeout then
    state
  else
    let timedOut := { request with status := .timeout }
    { state with
      requests :=
        state.requests.set requestId
          { timedOut with completionEvent := true }
      completionResults :=
        state.completionResults.set requestId
          (createTimeoutResponse timedOut now) }

/-- `_should_clean_completed_request`. -/
def ShouldCleanCompleted (config : CoordinationConfig)
    (request : PendingRequest) (currentTime : ℚ) : Prop :=
  request.status.isTerminal ∧
    (config.cleanupIntervalSeconds : ℚ) <
      currentTime - request.registeredAt

instance (config : CoordinationConfig) (request : PendingRequest)
    (currentTime : ℚ) :
    Decidable (ShouldCleanCompleted config request currentTime) :=
  inferInstanceAs (Decidable (_ ∧ _))

/-- The clock readings of one cleanup. -/
structure CleanupClock where
  currentTime : ℚ
  checkedAt : String → ℚ
  respondedAt : String → ℚ

/-- One round of the loop which looks for requests to clean up. -/
def inspectRequest (clock : CleanupClock)
    (progress : List String × Coordinator) (requestId : String) :
    List String × Coordinator :=
  match progress.2.requests.get? requestId with
  | none => progress
  | some request =>
      if request.isExpired (clock.checkedAt requestId) then
        (progress.1 ++ [requestId],
          progress.2.handleExpiredRequest requestId request
            (clock.respondedAt requestId))
      else if
          ShouldCleanCompleted progress.2.config request
            clock.currentTime then
        (progress.1 ++ [requestId], progress.2)
      else
        progress

/-- One round of the loop which removes them. -/
def removeRequest (state : Coordinator) (requestId : String) :
    Coordinator :=
  { state with
    pendingRequests := state.pendingRequests.erase requestId
    completionResults := state.completionResults.erase requestId }

/-- `cleanup_completed_requests`. -/
def cleanupCompletedRequests (clock : CleanupClock)
    (state : Coordinator) : ℕ × Coordinator :=
  let inspected :=
    state.pendingRequests.foldl (inspectRequest clock) ([], state)
  (inspected.1.length, inspected.1.foldl removeRequest inspected.2)

/-! ## Shutdown -/

/-- The answer to a request which is cut off by the shutdown. -/
def shutdownResult (request : PendingRequest) (now : ℚ) :
    ResponseResult where
  requestId := request.requestId
  success := false
  apiResponse :=
    { success := false
      requestId := request.requestId
      orderId := none
      error :=
        some
          { code := "SERVICE_SHUTDOWN"
            message := "Service shutting down"
            details := none } }
  processingTimeMs := (now - request.registeredAt) * 1000
  finalStatus := .error

/-- One round of the loop which answers all waiting calls. -/
def cutOff (clock : String → ℚ) (state : Coordinator)
    (requestId : String) : Coordinator :=
  match state.requests.get? requestId with
  | none => state
  | some request =>
      if request.status.isTerminal then
        state
      else
        { state with
          requests :=
            state.requests.set requestId
              { request with
                status := .error
                completionEvent := true }
          completionResults :=
            state.completionResults.set request.requestId
              (shutdownResult request (clock requestId)) }

/-- The first locked section of `shutdown`. -/
def beginShutdown (clock : String → ℚ) (state : Coordinator) :
    Coordinator :=
  state.pendingRequests.foldl (cutOff clock)
    { state with shutdown := true }

/-- The last locked section of `shutdown`. -/
def finishShutdown (state : Coordinator) : Coordinator :=
  { state with
    pendingRequests := []
    completionResults := ∅ }

/-! ## Waiting -/

/--
The first section of `wait_for_completion`: the seconds to wait for the
completion event.
-/
def lookupRequest (requestId : String) (timeoutSeconds : Option ℚ)
    (now : ℚ) (state : Coordinator) : Except PyError ℚ :=
  match state.pendingRequest? requestId with
  | none =>
      .error (.valueError ("Request " ++ requestId ++ " not found"))
  | some request =>
      .ok (timeoutSeconds.getD (max (1 / 10) (request.timeoutAt - now)))

/-- The section after the completion event was seen. -/
def takeResult (requestId : String) :
    EStateM PyError Coordinator ResponseResult := do
  let state ← get
  match state.completionResults.get? requestId with
  | some result =>
      if requestId ∈ state.pendingRequests then
        set
          { state with
            pendingRequests := state.pendingRequests.erase requestId
            completionResults := state.completionResults.erase requestId }
        return result
      else
        throw (.keyError requestId)
  | none =>
      throw (.runtimeError
        ("No result found for completed request " ++ requestId))

/-- The response to a wait which ran out of time. -/
def waitTimeoutResult (requestId : String) (request : PendingRequest)
    (timeoutSeconds elapsedMs : ℚ) : ResponseResult where
  requestId := requestId
  success := false
  apiResponse :=
    { success := false
      requestId := requestId
      orderId := none
      error :=
        some
          { code := "PROCESSING_TIMEOUT"
            message := "Order processing exceeded time limit"
            details :=
              some
                [("timeout_ms",
                    .number (truncate (timeoutSeconds * 1000))),
                  ("elapsed_ms", .number (truncate elapsedMs)),
                  ("stage", request.currentStage)] } }
  processingTimeMs := elapsedMs
  finalStatus := .timeout

/-- The section after the wait ran out of time. -/
def giveUp (requestId : String) (state : Coordinator) : Coordinator :=
  match state.pendingRequest? requestId with
  | none => state
  | some request =>
      { state with
        requests :=
          state.requests.set requestId { request with status := .timeout }
        pendingRequests := state.pendingRequests.erase requestId }

end Coordinator

/-! ## The calls that wait -/

/-- Where a call of `wait_for_completion` stands. -/
inductive WaiterState where
  | waiting (timeoutSeconds : ℚ)
  | signalled
  | expired (timeoutSeconds : ℚ)
  | timedOut (result : ResponseResult)
  | finished (outcome : Except PyError ResponseResult)
deriving DecidableEq

/--
A caller of `wait_for_completion`: the request it waits for and how far it
has come.
-/
structure Waiter where
  requestId : String
  state : WaiterState
deriving DecidableEq

/-- A call of `notify_completion`, and what it returned. -/
structure Notification where
  requestId : String
  response : ApiResponse
  orderId : Option String
  returned : Bool

/--
The coordinator and the calls that wait on it, under the numbers of the
calls.  `notifications` is a history variable, oldest first.
-/
structure ResponseSystem where
  coordinator : Coordinator
  waiters : OrderedDict ℕ Waiter
  notifications : List Notification

/-- A locked section of the coordinator, or a step between two of them. -/
inductive CoordinatorCall where
  | register (teamId : String) (timeoutSeconds : Option ℚ)
      (timestamp : ℕ) (now registeredAt : ℚ)
  | lookup (caller : ℕ) (requestId : String)
      (timeoutSeconds : Option ℚ) (now : ℚ)
  | wake (caller : ℕ)
  | expire (caller : ℕ)
  | composeTimeout (caller : ℕ) (elapsedMs : ℚ)
  | takeResult (caller : ℕ)
  | giveUp (caller : ℕ)
  | notify (requestId : String) (response : ApiResponse)
      (orderId : Option String) (now : ℚ)
  | updateStatus (requestId : String) (status : ResponseStatus)
      (stageDetails : Option StageDetails)
  | cleanup (clock : Coordinator.CleanupClock)
  | beginShutdown (clock : String → ℚ)
  | finishShutdown

namespace ResponseSystem

/-- The coordinator as it is created, before anybody waits. -/
def start (config : CoordinationConfig) : ResponseSystem where
  coordinator := .new config
  waiters := ∅
  notifications := []

/-- The completion event of a request object. -/
def EventSet (state : ResponseSystem) (requestId : String) : Prop :=
  ∃ request ∈ state.coordinator.requests.get? requestId,
    request.completionEvent = true

instance (state : ResponseSystem) (requestId : String) :
    Decidable (state.EventSet requestId) :=
  inferInstanceAs (Decidable (∃ request ∈ _, _))

/-- A call moves on to another place. -/
def moveWaiter (caller : ℕ) (requestId : String) (next : WaiterState)
    (state : ResponseSystem) : ResponseSystem :=
  { state with
    waiters := state.waiters.set caller { requestId, state := next } }

/--
A caller looks up its request and starts to wait, or is told that there is
none.
-/
def lookup (caller : ℕ) (requestId : String)
    (timeoutSeconds : Option ℚ) (now : ℚ) (state : ResponseSystem) :
    ResponseSystem :=
  match
      state.coordinator.lookupRequest requestId timeoutSeconds now with
  | .ok seconds => state.moveWaiter caller requestId (.waiting seconds)
  | .error exception =>
      state.moveWaiter caller requestId (.finished (.error exception))

/-- The event wait returns because the event is set. -/
def wake (caller : ℕ) (state : ResponseSystem) : ResponseSystem :=
  match state.waiters.get? caller with
  | some { requestId, state := .waiting _ } =>
      if state.EventSet requestId then
        state.moveWaiter caller requestId .signalled
      else
        state
  | _ => state

/-- The event wait runs out of time while the event is not set. -/
def expire (caller : ℕ) (state : ResponseSystem) : ResponseSystem :=
  match state.waiters.get? caller with
  | some { requestId, state := .waiting seconds } =>
      if state.EventSet requestId then
        state
      else
        state.moveWaiter caller requestId (.expired seconds)
  | _ => state

/--
A caller whose time is up makes its answer.  The lock is not held, so the
request may have been completed in between.
-/
def composeTimeout (caller : ℕ) (elapsedMs : ℚ)
    (state : ResponseSystem) : ResponseSystem :=
  match state.waiters.get? caller with
  | some { requestId, state := .expired seconds } =>
      match state.coordinator.requests.get? requestId with
      | some request =>
          state.moveWaiter caller requestId
            (.timedOut
              (Coordinator.waitTimeoutResult requestId request seconds
                elapsedMs))
      | none => state
  | _ => state

/-- A caller which was woken takes its result. -/
def takeResult (caller : ℕ) (state : ResponseSystem) : ResponseSystem :=
  match state.waiters.get? caller with
  | some { requestId, state := .signalled } =>
      match Coordinator.takeResult requestId state.coordinator with
      | .ok result coordinator =>
          { state with coordinator := coordinator }.moveWaiter caller
            requestId (.finished (.ok result))
      | .error exception coordinator =>
          { state with coordinator := coordinator }.moveWaiter caller
            requestId (.finished (.error exception))
  | _ => state

/-- A caller whose time is up marks its request and returns. -/
def giveUp (caller : ℕ) (state : ResponseSystem) : ResponseSystem :=
  match state.waiters.get? caller with
  | some { requestId, state := .timedOut result } =>
      { state with
        coordinator := state.coordinator.giveUp requestId }.moveWaiter
          caller requestId (.finished (.ok result))
  | _ => state

/--
A thread reports the outcome of a request; the history keeps what the
coordinator said to it.
-/
def notify (requestId : String) (response : ApiResponse)
    (orderId : Option String) (now : ℚ) (state : ResponseSystem) :
    ResponseSystem :=
  let answer :=
    state.coordinator.notifyCompletion requestId response orderId now
  { state with
    coordinator := answer.2
    notifications :=
      state.notifications ++
        [{ requestId, response, orderId, returned := answer.1 }] }

end ResponseSystem

namespace CoordinatorCall

/-- What an operation which does not wait does to the coordinator. -/
def onCoordinator (change : Coordinator → Coordinator)
    (state : ResponseSystem) : ResponseSystem :=
  { state with coordinator := change state.coordinator }

/--
The effect of a step.  A step whose caller is not at that point of its code
changes nothing.
-/
def execute : CoordinatorCall → ResponseSystem → ResponseSystem
  | .register teamId timeoutSeconds timestamp now registeredAt, state =>
      onCoordinator
        (fun coordinator =>
          finalState
            (Coordinator.registerRequest teamId timeoutSeconds timestamp
              now registeredAt coordinator))
        state
  | .lookup caller requestId timeoutSeconds now, state =>
      state.lookup caller requestId timeoutSeconds now
  | .wake caller, state => state.wake caller
  | .expire caller, state => state.expire caller
  | .composeTimeout caller elapsedMs, state =>
      state.composeTimeout caller elapsedMs
  | .takeResult caller, state => state.takeResult caller
  | .giveUp caller, state => state.giveUp caller
  | .notify requestId response orderId now, state =>
      state.notify requestId response orderId now
  | .updateStatus requestId status stageDetails, state =>
      onCoordinator
        (fun coordinator =>
          (coordinator.updateStatus requestId status stageDetails).2)
        state
  | .cleanup clock, state =>
      onCoordinator
        (fun coordinator =>
          (coordinator.cleanupCompletedRequests clock).2)
        state
  | .beginShutdown clock, state =>
      onCoordinator (Coordinator.beginShutdown clock) state
  | .finishShutdown, state =>
      onCoordinator Coordinator.finishShutdown state

/--
Every call of `wait_for_completion` has a number of its own, and the last
section of `shutdown` comes after its first.
-/
def Allowed : CoordinatorCall → ResponseSystem → Prop
  | .lookup caller _ _ _, state => ¬ state.waiters.Contains caller
  | .finishShutdown, state => state.coordinator.shutdown = true
  | _, _ => True

instance (call : CoordinatorCall) (state : ResponseSystem) :
    Decidable (call.Allowed state) := by
  rcases call
  case lookup caller _ _ _ =>
      exact inferInstanceAs
        (Decidable (¬ state.waiters.Contains caller))
  case finishShutdown =>
      exact inferInstanceAs
        (Decidable (state.coordinator.shutdown = true))
  all_goals exact inferInstanceAs (Decidable True)

end CoordinatorCall

/-- One step of the coordinator and the calls that wait on it. -/
abbrev CoordinatorStep :
    ResponseSystem → CoordinatorCall → ResponseSystem → Prop :=
  GuardedStep CoordinatorCall.Allowed CoordinatorCall.execute

end InternTradingGame
