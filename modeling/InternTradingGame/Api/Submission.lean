import InternTradingGame.Pipeline.Flow
import InternTradingGame.Response.Sources

/-!
# The order endpoints

An API call builds an order, registers a request with the coordinator, puts a
message on the order queue and waits until the request is completed.  The
validator thread completes it by telling the coordinator its response.

The API calls, the coordinator and the threads of the exchange take their
steps in any order.
-/

namespace InternTradingGame

open Effects

/-! ## Requests -/

/-- `OrderRequest`, after its own validation. -/
structure OrderRequest where
  instrumentId : String
  orderType : String
  side : String
  quantity : ℕ
  price : Option ℚ
  clientOrderId : Option String

/-- `str.upper`, where the result can be a letter of an order type. -/
def upperChar (character : Char) : Char :=
  if character = 'ı' then 'I' else character.toUpper

/-- `validate_order_type`. -/
def validateOrderType (orderType : String) : Option OrderType :=
  if orderType.map upperChar = "LIMIT" then
    some .limit
  else if orderType.map upperChar = "MARKET" then
    some .market
  else
    none

/-- `validate_order_side`. -/
def validateOrderSide (side : String) : Option OrderSide :=
  if side = "buy" then
    some .buy
  else if side = "sell" then
    some .sell
  else
    none

namespace ApiResponse

/-- `create_validation_error_response`. -/
def validationError (code message : String) : ApiResponse :=
  failed "" code message

/-- What `submit_order` returns for an exception. -/
def submissionFailed (requestId : String) (exception : PyError) :
    ApiResponse :=
  failed requestId "INTERNAL_ERROR"
    ("Failed to submit order: " ++ exception.describe)

/-- What `cancel_order` returns for an exception. -/
def cancellationFailed (orderId requestId : String)
    (exception : PyError) : ApiResponse :=
  { failed requestId "INTERNAL_ERROR"
      ("Failed to cancel order: " ++ exception.describe) with
    orderId := some orderId }

end ApiResponse

/-- The order of a request, under the id which has been drawn for it. -/
def OrderRequest.createOrder (request : OrderRequest) (team : TeamInfo)
    (orderId : String) : Except ApiResponse Order :=
  match validateOrderType request.orderType with
  | none =>
      .error (.validationError "INVALID_ORDER_TYPE"
        ("Invalid order type: " ++ request.orderType))
  | some orderType =>
      match validateOrderSide request.side with
      | none =>
          .error (.validationError "INVALID_SIDE"
            ("Invalid side: " ++ request.side ++
              ". Must be 'buy' or 'sell'"))
      | some side =>
          if orderType = .limit ∧ request.price = none then
            .error (.validationError "MISSING_PRICE"
              "Price required for limit orders")
          else
            match
                Order.new request.instrumentId side request.quantity
                  team.teamId request.price orderId
                  request.clientOrderId with
            | .ok order => .ok order
            | .error exception => .error (.submissionFailed "" exception)

namespace OrderMessage

/-- What the endpoint of a message returns for an exception. -/
def failed : OrderMessage → PyError → ApiResponse
  | newOrder _ _ requestId => .submissionFailed requestId
  | cancelOrder orderId _ requestId =>
      .cancellationFailed orderId requestId

/-- What the endpoint of a message returns after it has waited. -/
def respond (message : OrderMessage) :
    Except PyError ResponseResult → ApiResponse
  | .ok result => result.apiResponse
  | .error exception => message.failed exception

/-- The order id the coordinator is told with a response. -/
def notifiedOrderId (response : ApiResponse) :
    OrderMessage → Option String
  | newOrder _ _ _ => response.orderId
  | cancelOrder _ _ _ => none

end OrderMessage

/-! ## API calls -/

/-- Where an API call stands. -/
inductive ApiStage where
  | registered (message : OrderMessage)
  | waiting (message : OrderMessage)
  | answered (message : Option OrderMessage) (response : ApiResponse)
deriving DecidableEq

/-- The message of the request which has been registered. -/
def ApiStage.message : ApiStage → Option OrderMessage
  | registered message => some message
  | waiting message => some message
  | answered message _ => message

/-- An API call, with the order it has created. -/
structure ApiCall where
  order : Option Order
  stage : ApiStage
deriving DecidableEq

/-- The threads, the coordinator, and the API calls by their numbers. -/
structure Application where
  pipeline : Pipeline
  responses : ResponseSystem
  apiCalls : OrderedDict ℕ ApiCall

/-- A step of an API call, of the coordinator or of a thread. -/
inductive ApplicationCall where
  | submitOrder (caller : ℕ) (request : OrderRequest) (team : TeamInfo)
      (orderId : String) (timestamp : ℕ) (now registeredAt : ℚ)
  | cancelOrder (caller : ℕ) (orderId : String) (team : TeamInfo)
      (timestamp : ℕ) (now registeredAt : ℚ)
  | enqueue (caller : ℕ)
  | awaitCompletion (caller : ℕ) (now : ℚ)
  | respond (caller : ℕ)
  | reply (now : ℚ)
  | coordinator (call : CoordinatorCall)
  | pipeline (call : PipelineCall)

namespace Application

/-- The application as it starts: nobody has called and nothing is queued. -/
def start (config : CoordinationConfig) (cached baseline : PhaseState)
    (validator : ConstraintBasedOrderValidator) : Application where
  pipeline := Pipeline.start cached baseline validator
  responses := ResponseSystem.start config
  apiCalls := ∅

/-- The API call has moved on. -/
def moveCall (caller : ℕ) (call : ApiCall) (state : Application) :
    Application :=
  { state with apiCalls := state.apiCalls.set caller call }

/-- The request is registered, or the call fails. -/
def register (caller : ℕ) (order : Option Order)
    (message : String → OrderMessage) (failed : PyError → ApiResponse)
    (teamId : String) (timeoutSeconds : ℚ) (timestamp : ℕ)
    (now registeredAt : ℚ) (state : Application) : Application :=
  match
      Coordinator.registerRequest teamId (some timeoutSeconds) timestamp
        now registeredAt state.responses.coordinator with
  | .ok registration coordinator =>
      moveCall caller
        { order, stage := .registered (message registration.requestId) }
        { state with
          responses := { state.responses with coordinator } }
  | .error exception coordinator =>
      moveCall caller
        { order, stage := .answered none (failed exception) }
        { state with
          responses := { state.responses with coordinator } }

/-- `submit_order`, up to the registration. -/
def submitOrder (caller : ℕ) (request : OrderRequest) (team : TeamInfo)
    (orderId : String) (timestamp : ℕ) (now registeredAt : ℚ)
    (state : Application) : Application :=
  match request.createOrder team orderId with
  | .error response =>
      state.moveCall caller
        { order := none, stage := .answered none response }
  | .ok order =>
      state.register caller (some order) (.newOrder order team)
        (.submissionFailed "") team.teamId 5 timestamp now registeredAt

/-- `cancel_order`, up to the registration. -/
def cancelOrder (caller : ℕ) (orderId : String) (team : TeamInfo)
    (timestamp : ℕ) (now registeredAt : ℚ) (state : Application) :
    Application :=
  state.register caller none (.cancelOrder orderId team)
    (.cancellationFailed orderId "") team.teamId 3 timestamp now
    registeredAt

/-- The endpoint puts its message on the order queue. -/
def enqueue (caller : ℕ) (state : Application) : Application :=
  match state.apiCalls.get? caller with
  | some { order, stage := .registered message } =>
      moveCall caller { order, stage := .waiting message }
        { state with pipeline := state.pipeline.post message }
  | _ => state

/-- The endpoint calls `wait_for_completion`. -/
def awaitCompletion (caller : ℕ) (now : ℚ) (state : Application) :
    Application :=
  match state.apiCalls.get? caller with
  | some { stage := .waiting message, .. } =>
      { state with
        responses :=
          state.responses.lookup caller message.requestId none now }
  | _ => state

/-- The endpoint returns what it has got, or reports the exception. -/
def respond (caller : ℕ) (state : Application) : Application :=
  match state.apiCalls.get? caller, state.responses.waiters.get? caller with
  | some { order, stage := .waiting message },
      some { state := .finished outcome, .. } =>
      state.moveCall caller
        { order
          stage := .answered (some message) (message.respond outcome) }
  | _, _ => state

/-- The validator thread tells the coordinator its response. -/
def reply (now : ℚ) (state : Application) : Application :=
  match state.pipeline.validator with
  | .replying requestId response =>
      let message :=
        state.pipeline.received.find? fun message =>
          message.requestId = requestId
      { state with
        pipeline := state.pipeline.reply
        responses :=
          state.responses.notify requestId response
            (message.bind (OrderMessage.notifiedOrderId response)) now }
  | _ => state

end Application

/-- The steps of the coordinator which no endpoint or thread asks for. -/
def CoordinatorCall.Internal : CoordinatorCall → Prop
  | .register _ _ _ _ _ => False
  | .lookup _ _ _ _ => False
  | .notify _ _ _ _ => False
  | _ => True

instance (call : CoordinatorCall) : Decidable call.Internal := by
  rcases call
  case register _ _ _ _ _ => exact inferInstanceAs (Decidable False)
  case lookup _ _ _ _ => exact inferInstanceAs (Decidable False)
  case notify _ _ _ _ => exact inferInstanceAs (Decidable False)
  all_goals exact inferInstanceAs (Decidable True)

/-- The steps of the threads which do not touch a request. -/
def PipelineCall.Internal : PipelineCall → Prop
  | .post _ => False
  | .reply => False
  | _ => True

instance (call : PipelineCall) : Decidable call.Internal := by
  rcases call
  case post _ => exact inferInstanceAs (Decidable False)
  case reply => exact inferInstanceAs (Decidable False)
  all_goals exact inferInstanceAs (Decidable True)

namespace ApplicationCall

/--
The effect of a step.  A step whose caller or thread is not at that point of
its code changes nothing.
-/
def execute : ApplicationCall → Application → Application
  | .submitOrder caller request team orderId timestamp now registeredAt,
      state =>
      state.submitOrder caller request team orderId timestamp now
        registeredAt
  | .cancelOrder caller orderId team timestamp now registeredAt, state =>
      state.cancelOrder caller orderId team timestamp now registeredAt
  | .enqueue caller, state => state.enqueue caller
  | .awaitCompletion caller now, state => state.awaitCompletion caller now
  | .respond caller, state => state.respond caller
  | .reply now, state => state.reply now
  | .coordinator call, state =>
      { state with responses := call.execute state.responses }
  | .pipeline call, state =>
      { state with pipeline := call.execute state.pipeline }

/-- The steps which a step of the application is for the threads. -/
def threadCalls : ApplicationCall → Application → List PipelineCall
  | .enqueue caller, state =>
      match state.apiCalls.get? caller with
      | some { stage := .registered message, .. } => [.post message]
      | _ => []
  | .reply _, state =>
      match state.pipeline.validator with
      | .replying _ _ => [.reply]
      | _ => []
  | .pipeline call, _ => [call]
  | _, _ => []

/--
Every API call has a number of its own and waits once, and the id drawn for
an order is new.
-/
def Allowed : ApplicationCall → Application → Prop
  | .submitOrder caller _ _ orderId _ _ _, state =>
      ¬ state.apiCalls.Contains caller ∧
        ∀ call ∈ state.apiCalls.values, ∀ order ∈ call.order,
          order.orderId ≠ orderId
  | .cancelOrder caller _ _ _ _ _, state =>
      ¬ state.apiCalls.Contains caller
  | .awaitCompletion caller _, state =>
      ¬ state.responses.waiters.Contains caller
  | .coordinator call, state =>
      call.Internal ∧ call.Allowed state.responses
  | .pipeline call, _ => call.Internal
  | _, _ => True

instance (call : ApplicationCall) (state : Application) :
    Decidable (call.Allowed state) := by
  rcases call
  case submitOrder caller request team orderId timestamp now registeredAt =>
      exact inferInstanceAs
        (Decidable (¬ state.apiCalls.Contains caller ∧
          ∀ call ∈ state.apiCalls.values, ∀ order ∈ call.order,
            order.orderId ≠ orderId))
  case cancelOrder caller orderId team timestamp now registeredAt =>
      exact inferInstanceAs
        (Decidable (¬ state.apiCalls.Contains caller))
  case awaitCompletion caller now =>
      exact inferInstanceAs
        (Decidable (¬ state.responses.waiters.Contains caller))
  case coordinator call =>
      exact inferInstanceAs
        (Decidable (call.Internal ∧ call.Allowed state.responses))
  case pipeline call => exact inferInstanceAs (Decidable call.Internal)
  all_goals exact inferInstanceAs (Decidable True)

end ApplicationCall

/-- The steps the threads have taken in a run. -/
def Application.threadCalls :
    Application → List ApplicationCall → List PipelineCall
  | _, [] => []
  | state, call :: calls =>
      call.threadCalls state ++
        Application.threadCalls (call.execute state) calls

theorem Application.threadCalls_snoc (state : Application)
    (calls : List ApplicationCall) (call : ApplicationCall) :
    state.threadCalls (calls ++ [call]) =
      state.threadCalls calls ++
        call.threadCalls
          (replay ApplicationCall.execute state calls) := by
  induction calls generalizing state with
  | nil =>
      rw [List.nil_append, Application.threadCalls,
        Application.threadCalls, Application.threadCalls,
        List.append_nil, List.nil_append]
      rfl
  | cons first rest induction =>
      rw [List.cons_append, Application.threadCalls, induction,
        Application.threadCalls, List.append_assoc]
      rfl

/-- One step of the application. -/
abbrev ApplicationStep :
    Application → ApplicationCall → Application → Prop :=
  GuardedStep ApplicationCall.Allowed ApplicationCall.execute

end InternTradingGame
