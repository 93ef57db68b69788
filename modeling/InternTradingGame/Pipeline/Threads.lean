import InternTradingGame.Exchange.VenueShape
import InternTradingGame.Response.Models
import InternTradingGame.Services.OrderValidation

/-!
# The threads of the exchange

Four threads pass orders and results along first-in, first-out queues.  The
validator takes requests from the order queue: it forwards accepted orders
to the match queue and executes cancels on the exchange itself.  The matching
thread submits orders to the exchange and polls the phase.  The publisher
forwards results to the position queue, and the tracker updates positions.

A step is one operation on a queue, on the exchange, or on a service; the
threads may take their steps in any order.  A step whose thread is elsewhere,
or whose queue is empty, does nothing.

A whole call of the exchange is one step.  `ExchangeVenue` has no lock, so
this is an assumption on the threads: a cancel of the validator thread which
comes between two statements of a submission of the matching thread is not
among the runs.
-/

namespace InternTradingGame

open Effects

/-! ## Requests and responses -/

/-- A message on the order queue. -/
inductive OrderMessage where
  | newOrder (order : Order) (team : TeamInfo) (requestId : String)
  | cancelOrder (orderId : String) (team : TeamInfo) (requestId : String)
deriving DecidableEq

/-- What a message makes the exchange do. -/
inductive ExchangeAction where
  | submission (order : Order)
  | cancel (requestId : String)
deriving DecidableEq

namespace OrderMessage

/-- The id of the request, which both kinds of messages carry. -/
def requestId : OrderMessage → String
  | newOrder _ _ requestId => requestId
  | cancelOrder _ _ requestId => requestId

/-- The order a message asks to submit, with its team. -/
def submissions : OrderMessage → List (Order × TeamInfo)
  | newOrder order team _ => [(order, team)]
  | cancelOrder _ _ _ => []

/-- What the message asks of the exchange. -/
def action : OrderMessage → ExchangeAction
  | newOrder order _ _ => .submission order
  | cancelOrder _ _ requestId => .cancel requestId

end OrderMessage

namespace ApiResponse

/-- The answer to a request which succeeded, with the id of its order. -/
def succeeded (requestId orderId : String) : ApiResponse where
  success := true
  requestId := requestId
  orderId := some orderId
  error := none

/--
The answer to a request which failed, with the code and the message of its
error.
-/
def failed (requestId code message : String) : ApiResponse where
  success := false
  requestId := requestId
  orderId := none
  error := some { code, message, details := none }

/-- The response to a cancel which failed for a reason. -/
def cancelFailed (requestId reason : String) : ApiResponse :=
  failed requestId "CANCEL_FAILED" ("Cancel failed: " ++ reason)

/-- `handle_unexpected_status`. -/
def unexpectedStatus (requestId : String) (status : OrderStatus) :
    ApiResponse :=
  failed requestId "INTERNAL_ERROR"
    ("Unexpected validation status: " ++ status.value)

/-- `handle_validator_error`. -/
def validatorError (requestId : String) (exception : PyError) :
    ApiResponse :=
  failed requestId "INTERNAL_ERROR"
    ("Validator thread error: " ++ exception.describe)

end ApiResponse

/-! ## The validator thread -/

/-- Where the validator thread stands within its loop. -/
inductive ValidatorState where
  | idle
  | received (message : OrderMessage)
  | forwarding (order : Order) (team : TeamInfo) (requestId : String)
  | counting (order : Order) (team : TeamInfo) (requestId : String)
  | replying (requestId : String) (response : ApiResponse)
deriving DecidableEq

namespace ValidatorState

/-- The order the thread holds and may still forward. -/
def submissions : ValidatorState → List (Order × TeamInfo)
  | received message => message.submissions
  | forwarding order team _ => [(order, team)]
  | _ => []

/-- The message the thread has taken and not decided yet. -/
def undecided : ValidatorState → List OrderMessage
  | received message => [message]
  | _ => []

/-- What the thread may still make the exchange do. -/
def actions : ValidatorState → List ExchangeAction
  | received message => [message.action]
  | forwarding order _ _ => [.submission order]
  | _ => []

end ValidatorState

/-- What `handle_new_order_validation` does with the validation result. -/
def afterValidation (order : Order) (team : TeamInfo)
    (requestId : String) (result : OrderResult) : ValidatorState :=
  match result.status with
  | .accepted => .forwarding order team requestId
  | .rejected =>
      match result.errorCode, result.errorMessage with
      | some code, some message =>
          .replying requestId (.failed requestId code message)
      | _, _ =>
          .replying requestId
            (.validatorError requestId (.assertionError ""))
  | status =>
      .replying requestId (.unexpectedStatus requestId status)

/-- What `handle_order_cancellation` answers. -/
def afterCancellation (orderId requestId : String) :
    Except PyError (Bool × Option String) → ValidatorState
  | .ok (true, _) =>
      .replying requestId (.succeeded requestId orderId)
  | .ok (false, reason) =>
      .replying requestId
        (.cancelFailed requestId (reason.getD "Unknown error"))
  | .error exception =>
      .replying requestId (.validatorError requestId exception)

/-- An accepted order is forwarded, and any other is answered with a failure. -/
theorem afterValidation_cases (order : Order) (team : TeamInfo)
    (requestId : String) (result : OrderResult) :
    result.status = .accepted ∧
        afterValidation order team requestId result =
          .forwarding order team requestId ∨
      result.status ≠ .accepted ∧ ∃ response,
        afterValidation order team requestId result =
            .replying requestId response ∧
          response.requestId = requestId ∧ response.success = false := by
  rw [afterValidation]
  split
  case h_1 accepted => exact Or.inl ⟨accepted, rfl⟩
  case h_2 rejected =>
    refine Or.inr ⟨?_, ?_⟩
    · intro accepted
      cases rejected.symm.trans accepted
    · split
      · exact ⟨_, rfl, rfl, rfl⟩
      · exact ⟨_, rfl, rfl, rfl⟩
  case h_3 other _ => exact Or.inr ⟨other, _, rfl, rfl, rfl⟩

/-- A cancel is answered, with success only if the service has succeeded. -/
theorem afterCancellation_replies (orderId requestId : String)
    (answer : Except PyError (Bool × Option String)) :
    ∃ response,
      afterCancellation orderId requestId answer =
          .replying requestId response ∧
        response.requestId = requestId ∧
          (response.success = true →
            response.orderId = some orderId ∧
              ∃ reason, answer = .ok (true, reason)) := by
  rw [afterCancellation.eq_def]
  split
  · exact ⟨_, rfl, rfl, fun _ => ⟨rfl, _, rfl⟩⟩
  · refine ⟨_, rfl, rfl, ?_⟩
    intro succeeded
    cases succeeded
  · refine ⟨_, rfl, rfl, ?_⟩
    intro succeeded
    cases succeeded

/-! ## The other threads -/

/-- Where the matching thread stands within its loop. -/
inductive MatcherState where
  | idle
  | submitting (order : Order) (team : TeamInfo)
  | publishing (data : TradeData)
  | stopped

namespace MatcherState

/-- The order the thread holds and has not submitted yet. -/
def submissions : MatcherState → List (Order × TeamInfo)
  | submitting order team => [(order, team)]
  | _ => []

/-- The result the thread holds and has not published yet. -/
def results : MatcherState → List TradeData
  | publishing data => [data]
  | _ => []

end MatcherState

/-- One call of `update_position`. -/
structure PositionUpdate where
  teamId : String
  instrumentId : String
  delta : ℚ
deriving DecidableEq

/-- The call of `update_position` with the values of the update. -/
def PositionUpdate.apply (update : PositionUpdate)
    (service : PositionManagementService) : PositionManagementService :=
  service.updatePosition update.teamId update.instrumentId update.delta

/-- The updates the tracker makes for one fill. -/
def fillUpdates (order : Order) (team : TeamInfo) (fill : Trade) :
    List PositionUpdate :=
  let signed :=
    match order.side with
    | .buy => fill.quantity
    | .sell => -fill.quantity
  let counterparty :=
    match order.side with
    | .buy => fill.sellerId
    | .sell => fill.buyerId
  { teamId := team.teamId
    instrumentId := order.instrumentId
    delta := signed } ::
    if counterparty = team.teamId then
      []
    else
      [{ teamId := counterparty
         instrumentId := order.instrumentId
         delta := -signed }]

/-- The updates the tracker makes for one result. -/
def TradeData.updates (data : TradeData) : List PositionUpdate :=
  data.result.fills.flatMap (fillUpdates data.order data.team)

/-! ## The pipeline -/

/--
The services, the queues and the threads.  `received` and `executed` are
history variables: the messages put on the order queue, and what the
exchange has been made to do, oldest first.
-/
structure Pipeline where
  venue : ExchangeVenue
  validation : OrderValidationService
  positions : PositionManagementService
  orderQueue : List OrderMessage
  matchQueue : List (Order × TeamInfo)
  tradeQueue : List TradeData
  positionQueue : List TradeData
  validator : ValidatorState
  matcher : MatcherState
  publisher : Option TradeData
  tracker : List PositionUpdate
  received : List OrderMessage
  executed : List ExchangeAction

/-- A step of a thread or of the world around the threads. -/
inductive PipelineCall where
  | listInstrument (instrument : Instrument)
  | post (message : OrderMessage)
  | validatorTake
  | validate (currentTime : ℚ)
  | forward
  | count (currentTime : ℚ)
  | cancel
  | reply
  | matcherTake
  | submit
  | publish
  | checkPhases (observed : PhaseState) (draw : String → ℚ)
  | publisherTake
  | publisherForward
  | trackerTake
  | track

namespace Pipeline

/-- The threads have just been started. -/
def start (cached baseline : PhaseState)
    (validator : ConstraintBasedOrderValidator) : Pipeline where
  venue := ExchangeVenue.new cached baseline
  validation := { validator := validator, rateLimitWindows := ∅ }
  positions := PositionManagementService.new
  orderQueue := []
  matchQueue := []
  tradeQueue := []
  positionQueue := []
  validator := .idle
  matcher := .idle
  publisher := none
  tracker := []
  received := []
  executed := []

/-! ### The world around the threads -/

/--
An instrument is listed while the threads are running; a listing which fails
changes nothing.
-/
def listInstrument (instrument : Instrument) (state : Pipeline) :
    Pipeline :=
  { state with
    venue :=
      finalState (ExchangeVenue.listInstrument instrument state.venue) }

/-- The API puts a message on the order queue. -/
def post (message : OrderMessage) (state : Pipeline) : Pipeline :=
  { state with
    orderQueue := state.orderQueue ++ [message]
    received := state.received ++ [message] }

/-! ### The validator thread -/

/-- The idle validator thread takes the first message of its queue. -/
def validatorTake (state : Pipeline) : Pipeline :=
  match state.validator, state.orderQueue with
  | .idle, message :: rest =>
      { state with validator := .received message, orderQueue := rest }
  | _, _ => state

/--
The validator thread asks the validation service about a new order, with the
positions as they are now.
-/
def validate (currentTime : ℚ) (state : Pipeline) : Pipeline :=
  match state.validator with
  | .received (.newOrder order team requestId) =>
      { state with
        validator :=
          afterValidation order team requestId
            (state.validation.validateNewOrder state.positions order team
              currentTime) }
  | _ => state

/-- The validator thread puts the accepted order on the match queue. -/
def forward (state : Pipeline) : Pipeline :=
  match state.validator with
  | .forwarding order team requestId =>
      { state with
        matchQueue := state.matchQueue ++ [(order, team)]
        validator := .counting order team requestId }
  | _ => state

/--
The validator thread counts the accepted order and makes its answer.  The
order is on the match queue already.
-/
def count (currentTime : ℚ) (state : Pipeline) : Pipeline :=
  match state.validator with
  | .counting order team requestId =>
      { state with
        validation :=
          state.validation.incrementOrderCount team.teamId currentTime
        validator :=
          .replying requestId (.succeeded requestId order.orderId) }
  | _ => state

/-- The validator thread cancels on the exchange directly. -/
def cancel (state : Pipeline) : Pipeline :=
  match state.validator with
  | .received (.cancelOrder orderId team requestId) =>
      let answer :=
        OrderValidationService.validateCancellation orderId team.teamId
          state.venue
      { state with
        venue := finalState answer
        validator :=
          afterCancellation orderId requestId
            (match answer with
            | .ok value _ => .ok value
            | .error exception _ => .error exception)
        executed := state.executed ++ [.cancel requestId] }
  | _ => state

/-- The coordinator is told about the response. -/
def reply (state : Pipeline) : Pipeline :=
  match state.validator with
  | .replying _ _ => { state with validator := .idle }
  | _ => state

/-! ### The matching thread -/

/-- The idle matching thread takes the first order of its queue. -/
def matcherTake (state : Pipeline) : Pipeline :=
  match state.matcher, state.matchQueue with
  | .idle, (order, team) :: rest =>
      { state with
        matcher := .submitting order team
        matchQueue := rest }
  | _, _ => state

/-- An exchange error is logged, and the order is dropped. -/
def submit (state : Pipeline) : Pipeline :=
  match state.matcher with
  | .submitting order team =>
      let executed := state.executed ++ [.submission order]
      match ExchangeVenue.submitOrder order state.venue with
      | .ok result venue =>
          { state with
            venue := venue
            matcher := .publishing { result, order, team }
            executed := executed }
      | .error _ venue =>
          { state with
            venue := venue
            matcher := .idle
            executed := executed }
  | _ => state

/-- The matching thread puts the trades of its order on the trade queue. -/
def publish (state : Pipeline) : Pipeline :=
  match state.matcher with
  | .publishing data =>
      { state with
        tradeQueue := state.tradeQueue ++ [data]
        matcher := .idle }
  | _ => state

/-- Between two orders the thread polls the phase. -/
def checkPhases (observed : PhaseState) (draw : String → ℚ)
    (state : Pipeline) : Pipeline :=
  match state.matcher with
  | .idle =>
      match ExchangeVenue.checkPhaseTransitions observed draw
          state.venue with
      | .ok _ venue => { state with venue := venue }
      | .error _ venue =>
          { state with venue := venue, matcher := .stopped }
  | _ => state

/-! ### The publisher and the tracker -/

/-- The idle publisher thread takes the first results of its queue. -/
def publisherTake (state : Pipeline) : Pipeline :=
  match state.publisher, state.tradeQueue with
  | none, data :: rest =>
      { state with publisher := some data, tradeQueue := rest }
  | _, _ => state

/-- The publisher thread hands its results on to the position tracker. -/
def publisherForward (state : Pipeline) : Pipeline :=
  match state.publisher with
  | some data =>
      { state with
        positionQueue := state.positionQueue ++ [data]
        publisher := none }
  | none => state

/--
The idle position tracker takes the first results of its queue and has all
their updates to make.
-/
def trackerTake (state : Pipeline) : Pipeline :=
  match state.tracker, state.positionQueue with
  | [], data :: rest =>
      { state with tracker := data.updates, positionQueue := rest }
  | _, _ => state

/-- The position tracker makes the next of its updates. -/
def track (state : Pipeline) : Pipeline :=
  match state.tracker with
  | update :: rest =>
      { state with
        positions := update.apply state.positions
        tracker := rest }
  | [] => state

/-! ### All steps -/

/-- The orders of all messages put on the order queue. -/
def receivedOrders (state : Pipeline) : List Order :=
  (state.received.flatMap OrderMessage.submissions).map Prod.fst

end Pipeline

namespace PipelineCall

/--
The effect of a step.  A step whose thread is not at that point of its code
changes nothing.
-/
def execute : PipelineCall → Pipeline → Pipeline
  | .listInstrument instrument, state => state.listInstrument instrument
  | .post message, state => state.post message
  | .validatorTake, state => state.validatorTake
  | .validate currentTime, state => state.validate currentTime
  | .forward, state => state.forward
  | .count currentTime, state => state.count currentTime
  | .cancel, state => state.cancel
  | .reply, state => state.reply
  | .matcherTake, state => state.matcherTake
  | .submit, state => state.submit
  | .publish, state => state.publish
  | .checkPhases observed draw, state => state.checkPhases observed draw
  | .publisherTake, state => state.publisherTake
  | .publisherForward, state => state.publisherForward
  | .trackerTake, state => state.trackerTake
  | .track, state => state.track

/--
What the API puts on the queue: a new order has a new id, a whole quantity
and the trader id of the team, and every request has a new id.
-/
def Allowed : PipelineCall → Pipeline → Prop
  | .post message, state =>
      message.requestId ∉ state.received.map OrderMessage.requestId ∧
        ∀ submission ∈ message.submissions,
          submission.1.orderId ∉
              state.receivedOrders.map Order.orderId ∧
            submission.2.teamId = submission.1.traderId ∧
            Whole submission.1.quantity
  | _, _ => True

instance (call : PipelineCall) (state : Pipeline) :
    Decidable (call.Allowed state) := by
  rcases call
  case post message =>
      exact inferInstanceAs
        (Decidable
          (message.requestId ∉ state.received.map OrderMessage.requestId ∧
            ∀ submission ∈ message.submissions,
              submission.1.orderId ∉
                  state.receivedOrders.map Order.orderId ∧
                submission.2.teamId = submission.1.traderId ∧
                Whole submission.1.quantity))
  all_goals exact inferInstanceAs (Decidable True)

end PipelineCall

/-- One step of the pipeline. -/
abbrev PipelineStep : Pipeline → PipelineCall → Pipeline → Prop :=
  GuardedStep PipelineCall.Allowed PipelineCall.execute

end InternTradingGame
