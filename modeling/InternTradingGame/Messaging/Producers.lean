import InternTradingGame.Exchange.VenueSound
import InternTradingGame.Messaging.Messages
import InternTradingGame.Services.OrderValidation

/-!
# What the threads put on the WebSocket queue

The validator thread reports rejected orders and both outcomes of a cancel.
The matching thread acknowledges orders, the publisher thread reports
executions, and a new connection starts with a snapshot of its positions.
-/

namespace InternTradingGame

open Effects

/-! ## The validator thread -/

/-- The report of a rejected order. -/
def rejection (order : Order) (team : TeamInfo)
    (errorCode errorMessage : String) : QueueMessage where
  messageType := MessageType.newOrderReject.value
  teamId := team.teamId
  data := .ofEntries
    [ ("order_id", .text order.orderId),
      ("client_order_id", .ofText? order.clientOrderId),
      ("reason", .text errorMessage),
      ("error_code", .text errorCode) ]

theorem keys_rejection (order : Order) (team : TeamInfo)
    (errorCode errorMessage : String) :
    (rejection order team errorCode errorMessage).data.keys =
      ["order_id", "client_order_id", "reason", "error_code"] := by
  apply OrderedDict.keys_ofEntries
  · rfl
  · decide

/-- `handle_new_order_validation`: only a rejection is reported. -/
def validationMessages (order : Order) (team : TeamInfo)
    (result : OrderResult) : List QueueMessage :=
  match result.status, result.errorCode, result.errorMessage with
  | .rejected, some errorCode, some errorMessage =>
      [rejection order team errorCode errorMessage]
  | _, _, _ => []

/-- The report of a cancelled order. -/
def cancelAcknowledgement (orderId : String) (team : TeamInfo) :
    QueueMessage where
  messageType := MessageType.cancelAck.value
  teamId := team.teamId
  data := .ofEntries
    [ ("order_id", .text orderId),
      ("client_order_id", .null),
      ("cancelled_quantity", .number 0),
      ("reason", .text "user_requested") ]

/-- The report of a cancel which failed. -/
def cancelRejection (orderId : String) (team : TeamInfo)
    (reason : Option String) : QueueMessage where
  messageType := MessageType.cancelReject.value
  teamId := team.teamId
  data := .ofEntries
    [ ("order_id", .text orderId),
      ("client_order_id", .null),
      ("reason", .ofText? reason) ]

/-- `handle_order_cancellation`, unless the exchange raises. -/
def cancellationMessages (orderId : String) (team : TeamInfo) :
    Except PyError (Bool × Option String) → List QueueMessage
  | .ok (true, _) => [cancelAcknowledgement orderId team]
  | .ok (false, reason) => [cancelRejection orderId team reason]
  | .error _ => []

theorem mem_cancellationMessages {orderId : String} {team : TeamInfo}
    {answer : Except PyError (Bool × Option String)}
    {message : QueueMessage}
    (member : message ∈ cancellationMessages orderId team answer) :
    message = cancelAcknowledgement orderId team ∨
      ∃ reason, message = cancelRejection orderId team reason := by
  cases answer with
  | error exception => exact absurd member List.not_mem_nil
  | ok outcome =>
      rcases outcome with ⟨succeeded, reason⟩
      cases succeeded with
      | true => exact Or.inl (List.mem_singleton.mp member)
      | false => exact Or.inr ⟨reason, List.mem_singleton.mp member⟩

/-! ## The matching thread -/

namespace OrderMatchingService

/-- `handle_exchange_error`. -/
def handleExchangeError (error : PyError) (order : Order) :
    OrderResult :=
  let answer : String × String :=
    match error with
    | .valueError message =>
        ("INVALID_ORDER", "Invalid order parameters: " ++ message)
    | .keyError _ =>
        ("UNKNOWN_INSTRUMENT",
          "Instrument not found: " ++ order.instrumentId)
    | .runtimeError message =>
        ("EXCHANGE_ERROR", "Exchange error: " ++ message)
    | _ => ("INTERNAL_ERROR", "Unexpected error: " ++ error.describe)
  { orderId := order.orderId
    status := .error
    fills := []
    remainingQuantity := order.quantity
    errorCode := some answer.1
    errorMessage := some answer.2 }

end OrderMatchingService

/-- The statuses the matching thread acknowledges. -/
def OrderStatus.IsAcknowledged (status : OrderStatus) : Prop :=
  status ∈ [OrderStatus.new, .partiallyFilled, .filled]

instance (status : OrderStatus) : Decidable status.IsAcknowledged :=
  inferInstanceAs (Decidable (_ ∈ _))

/-- The acknowledgement the matching thread sends. -/
def acknowledgement (order : Order) (team : TeamInfo)
    (status : OrderStatus) : QueueMessage where
  messageType := "new_order_ack"
  teamId := team.teamId
  data := .ofEntries
    [ ("order_id", .text order.orderId),
      ("client_order_id", .ofText? order.clientOrderId),
      ("instrument_id", .text order.instrumentId),
      ("side", .text order.side.value),
      ("quantity", .number order.quantity),
      ("price", .ofNumber? order.price),
      ("status", .text status.value) ]

theorem keys_acknowledgement (order : Order) (team : TeamInfo)
    (status : OrderStatus) :
    (acknowledgement order team status).data.keys =
      [ "order_id", "client_order_id", "instrument_id", "side",
        "quantity", "price", "status" ] := by
  apply OrderedDict.keys_ofEntries
  · rfl
  · decide

theorem acknowledgement_orderId (order : Order) (team : TeamInfo)
    (status : OrderStatus) :
    textOf (acknowledgement order team status).data "order_id" =
      some order.orderId := by
  have stored : (acknowledgement order team status).data.get?
      "order_id" = some (.text order.orderId) := by
    apply OrderedDict.get?_ofEntries rfl _ List.mem_cons_self
    show [ "order_id", "client_order_id", "instrument_id", "side",
      "quantity", "price", "status" ].Nodup
    decide
  rw [textOf, stored]

/-- What `_process_single_order` leaves behind. -/
structure ProcessedOrder where
  venue : ExchangeVenue
  tradeQueue : List TradeData
  websocketQueue : List QueueMessage
  logged : Option OrderResult

/--
`_process_single_order`.  The result which stands for an error is built and
goes nowhere.
-/
def processSingleOrder (order : Order) (team : TeamInfo)
    (venue : ExchangeVenue) : ProcessedOrder :=
  match ExchangeVenue.submitOrder order venue with
  | .ok result next =>
      { venue := next
        tradeQueue := [{ result, order, team }]
        websocketQueue :=
          if result.status.IsAcknowledged then
            [acknowledgement order team result.status]
          else
            []
        logged := none }
  | .error exception next =>
      { venue := next
        tradeQueue := []
        websocketQueue := []
        logged :=
          some (OrderMatchingService.handleExchangeError exception
            order) }

/-! ## The publisher thread -/

/-- The execution report the publisher sends for a fill. -/
def publisherReport (stamp : Trade → TradeStamp) (order : Order)
    (team : TeamInfo) (trade : Trade) (liquidityType : LiquidityType)
    (fee : ℚ) : QueueMessage where
  messageType := "execution_report"
  teamId := team.teamId
  data := .ofEntries
    [ ("order_id", .text order.orderId),
      ("client_order_id", .ofText? order.clientOrderId),
      ("side", .text order.side.value),
      ("quantity", .number trade.quantity),
      ("price", .number trade.price),
      ("liquidity", .text liquidityType.value),
      ("fee", .number fee),
      ("timestamp", .text (stamp trade).timestamp),
      ("trade_id", .text (stamp trade).tradeId),
      ("counterparty",
        .text
          (match order.side with
          | .buy => trade.sellerOrderId
          | .sell => trade.buyerOrderId)),
      ("team_id", .text team.teamId) ]

theorem keys_publisherReport (stamp : Trade → TradeStamp)
    (order : Order) (team : TeamInfo) (trade : Trade)
    (liquidityType : LiquidityType) (fee : ℚ) :
    (publisherReport stamp order team trade liquidityType
        fee).data.keys =
      [ "order_id", "client_order_id", "side", "quantity", "price",
        "liquidity", "fee", "timestamp", "trade_id", "counterparty",
        "team_id" ] := by
  apply OrderedDict.keys_ofEntries
  · rfl
  · decide

theorem publisherReport_orderId (stamp : Trade → TradeStamp)
    (order : Order) (team : TeamInfo) (trade : Trade)
    (liquidityType : LiquidityType) (fee : ℚ) :
    textOf (publisherReport stamp order team trade liquidityType
        fee).data "order_id" =
      some order.orderId := by
  have stored : (publisherReport stamp order team trade liquidityType
      fee).data.get? "order_id" = some (.text order.orderId) := by
    apply OrderedDict.get?_ofEntries rfl _ List.mem_cons_self
    show [ "order_id", "client_order_id", "side", "quantity", "price",
      "liquidity", "fee", "timestamp", "trade_id", "counterparty",
      "team_id" ].Nodup
    decide
  rw [textOf, stored]

/-- The report of one fill, unless the fee cannot be calculated. -/
def publishFill (feeService : TradingFeeService)
    (stamp : Trade → TradeStamp) (order : Order) (team : TeamInfo)
    (trade : Trade) : Except PyError QueueMessage :=
  let liquidityType :=
    TradingFeeService.determineLiquidityType trade.aggressorSide
      order.side
  match feeService.calculateFee (truncate trade.quantity) team.role
      liquidityType with
  | .ok fee =>
      .ok (publisherReport stamp order team trade liquidityType fee)
  | .error exception => .error exception

/-- The reports of the fills up to the first one which raises. -/
def publishFills (feeService : TradingFeeService)
    (stamp : Trade → TradeStamp) (order : Order) (team : TeamInfo) :
    List Trade → List QueueMessage
  | [] => []
  | trade :: trades =>
      match publishFill feeService stamp order team trade with
      | .ok message =>
          message :: publishFills feeService stamp order team trades
      | .error _ => []

/-- Every message of the publisher reports a trade. -/
theorem mem_publishFills {feeService : TradingFeeService}
    {stamp : Trade → TradeStamp} {order : Order} {team : TeamInfo}
    {fills : List Trade} {message : QueueMessage}
    (member :
      message ∈ publishFills feeService stamp order team fills) :
    ∃ trade liquidityType fee,
      message =
        publisherReport stamp order team trade liquidityType fee := by
  induction fills with
  | nil => exact absurd member List.not_mem_nil
  | cons trade trades induction =>
      rw [publishFills] at member
      cases published : publishFill feeService stamp order team trade with
      | error exception =>
          rw [published] at member
          exact absurd member List.not_mem_nil
      | ok report =>
          rw [published] at member
          rcases List.mem_cons.mp member with rfl | later
          · rw [publishFill] at published
            split at published
            · exact ⟨trade, _, _, (Except.ok.inj published).symm⟩
            · cases published
          · exact induction later

/-- The queues the publisher writes to. -/
structure PublisherQueues where
  positionQueue : List TradeData
  websocketQueue : List QueueMessage

/-- One item of the trade queue. -/
def publishResult (feeService : TradingFeeService)
    (stamp : Trade → TradeStamp) (queues : PublisherQueues)
    (data : TradeData) : PublisherQueues where
  positionQueue := queues.positionQueue ++ [data]
  websocketQueue :=
    queues.websocketQueue ++
      publishFills feeService stamp data.order data.team
        data.result.fills

/-- `trade_publisher_thread`, until its queue is empty. -/
def tradePublisherThread (feeService : TradingFeeService)
    (stamp : Trade → TradeStamp) (queue : List TradeData)
    (queues : PublisherQueues) : PublisherQueues :=
  queue.foldl (publishResult feeService stamp) queues

/-! ## A new connection -/

/-- What `websocket_endpoint` puts on the queue after connecting. -/
def snapshotMessage (team : TeamInfo)
    (positions : PositionManagementService) : QueueMessage where
  messageType := "position_snapshot"
  teamId := team.teamId
  data := .ofEntries
    [("positions", .positions (positions.getPositions team.teamId))]

theorem snapshotMessage_positions (team : TeamInfo)
    (positions : PositionManagementService) :
    (snapshotMessage team positions).data.get? "positions" =
      some (.positions (positions.getPositions team.teamId)) := by
  apply OrderedDict.get?_ofEntries rfl _ List.mem_cons_self
  show ["positions"].Nodup
  decide

/-! ## All producers -/

/-- A message one of the producers can put on the queue. -/
inductive Produced : QueueMessage → Prop where
  | validation {order : Order} {team : TeamInfo} {result : OrderResult}
      {message : QueueMessage}
      (member : message ∈ validationMessages order team result) :
      Produced message
  | cancellation {orderId : String} {team : TeamInfo}
      {answer : Except PyError (Bool × Option String)}
      {message : QueueMessage}
      (member : message ∈ cancellationMessages orderId team answer) :
      Produced message
  | acknowledgement {order : Order} {team : TeamInfo}
      {venue : ExchangeVenue} {message : QueueMessage}
      (member :
        message ∈ (processSingleOrder order team venue).websocketQueue) :
      Produced message
  | report {feeService : TradingFeeService} {stamp : Trade → TradeStamp}
      {order : Order} {team : TeamInfo} {fills : List Trade}
      {message : QueueMessage}
      (member :
        message ∈ publishFills feeService stamp order team fills) :
      Produced message
  | snapshot (team : TeamInfo) (positions : PositionManagementService) :
      Produced (snapshotMessage team positions)

end InternTradingGame
