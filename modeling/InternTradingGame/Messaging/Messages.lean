import InternTradingGame.Library.Arguments
import InternTradingGame.Positions.Settlement

/-!
# Messages

The threads put messages on the WebSocket queue: a type, a team and a
payload.  The WebSocket manager sends its own messages to the connected
teams; their payloads are built here.  The times which the builders read
from the clock are left out.
-/

namespace InternTradingGame

/-! ## Values and payloads -/

/-- The value of a liquidity type. -/
def LiquidityType.value : LiquidityType → String
  | .maker => "maker"
  | .taker => "taker"
  | .mixed => "mixed"

/-- The value of a side. -/
def OrderSide.value : OrderSide → String
  | .buy => "buy"
  | .sell => "sell"

/-- What the constructor of a trade draws: its id and its time. -/
structure TradeStamp where
  tradeId : String
  timestamp : String

/-- A value in the payload of a message. -/
inductive MessageValue where
  | null
  | text (text : String)
  | number (number : ℚ)
  | liquidity (liquidityType : LiquidityType)
  | positions (positions : TeamPositions)
  | trade (trade : Trade) (stamp : TradeStamp)

instance : Inhabited MessageValue :=
  ⟨.null⟩

namespace MessageValue

/-- A text which may be missing, as `None` is `null` in a message. -/
def ofText? : Option String → MessageValue
  | none => .null
  | some content => .text content

/-- A number which may be missing. -/
def ofNumber? : Option ℚ → MessageValue
  | none => .null
  | some amount => .number amount

/-- `bool(value)`. -/
def isTrue : MessageValue → Bool
  | .null => false
  | .text content => content ≠ ""
  | .number amount => amount ≠ 0
  | .liquidity _ => true
  | .positions held => !held.entries.isEmpty
  | .trade _ _ => true

/-- `value is not None`. -/
def isGiven : MessageValue → Bool
  | .null => false
  | _ => true

end MessageValue

/-- The dictionary a message carries. -/
abbrev Payload := OrderedDict String MessageValue

/-- A text in a payload. -/
def textOf (data : Payload) (key : String) : Option String :=
  match data.get? key with
  | some (.text content) => some content
  | _ => none

/-- An item of the WebSocket queue: `(msg_type, team_id, data)`. -/
structure QueueMessage where
  messageType : String
  teamId : String
  data : Payload

/-! ## The messages to the teams -/

/-- The types of the messages modelled here. -/
inductive MessageType where
  | newOrderAck
  | newOrderReject
  | executionReport
  | cancelAck
  | cancelReject
  | positionSnapshot
deriving DecidableEq, Repr

/-- The value of a message type, which the `type` field of a message has. -/
def MessageType.value : MessageType → String
  | .newOrderAck => "new_order_ack"
  | .newOrderReject => "new_order_reject"
  | .executionReport => "execution_report"
  | .cancelAck => "cancel_ack"
  | .cancelReject => "cancel_reject"
  | .positionSnapshot => "position_snapshot"

/-- `if client_order_id: data["client_order_id"] = client_order_id`. -/
def withClientOrderId (clientOrderId : MessageValue) (data : Payload) :
    Payload :=
  if clientOrderId.isTrue then
    data.set "client_order_id" clientOrderId
  else
    data

/--
`build_new_order_ack`: the price is only in the message if there is one.
-/
def buildNewOrderAck (orderId clientOrderId instrumentId side quantity
    orderType price : MessageValue) : Payload :=
  let data := withClientOrderId clientOrderId
    (.ofEntries
      [ ("order_id", orderId),
        ("instrument_id", instrumentId),
        ("side", side),
        ("quantity", quantity),
        ("order_type", orderType),
        ("status", .text "new") ])
  if price.isGiven then
    data.set "price" price
  else
    data

/--
`build_new_order_reject`: the error code is only in the message if it is not
empty.
-/
def buildNewOrderReject (orderId clientOrderId reason errorCode :
    MessageValue) : Payload :=
  let data := withClientOrderId clientOrderId
    (.ofEntries
      [ ("order_id", orderId),
        ("status", .text "rejected"),
        ("reason", reason) ])
  if errorCode.isTrue then
    data.set "error_code" errorCode
  else
    data

/-- `build_execution_report`, for one side of a trade. -/
def buildExecutionReport (orderId clientOrderId tradeId instrumentId side
    executedQuantity executedPrice remainingQuantity orderStatus :
    MessageValue) (liquidityType : LiquidityType) (fees : MessageValue) :
    Payload :=
  withClientOrderId clientOrderId
    (.ofEntries
      [ ("order_id", orderId),
        ("trade_id", tradeId),
        ("instrument_id", instrumentId),
        ("side", side),
        ("executed_quantity", executedQuantity),
        ("executed_price", executedPrice),
        ("remaining_quantity", remainingQuantity),
        ("order_status", orderStatus),
        ("liquidity_type", .text liquidityType.value),
        ("fees", fees) ])

/-- `build_cancel_ack`, with the quantity which the cancel took out. -/
def buildCancelAck (orderId clientOrderId cancelledQuantity reason :
    MessageValue) : Payload :=
  withClientOrderId clientOrderId
    (.ofEntries
      [ ("order_id", orderId),
        ("status", .text "cancelled"),
        ("cancelled_quantity", cancelledQuantity),
        ("reason", reason) ])

/-- `build_cancel_reject`, with the reason. -/
def buildCancelReject (orderId clientOrderId reason : MessageValue) :
    Payload :=
  withClientOrderId clientOrderId
    (.ofEntries
      [ ("order_id", orderId),
        ("status", .text "cancel_rejected"),
        ("reason", reason) ])

/-- `build_position_snapshot`: all positions of a team at once. -/
def buildPositionSnapshot (positions : MessageValue) : Payload :=
  .ofEntries [("positions", positions)]

end InternTradingGame
