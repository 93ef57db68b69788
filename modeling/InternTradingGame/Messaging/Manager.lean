import InternTradingGame.Library.Effects
import InternTradingGame.Messaging.Messages

/-!
# The WebSocket manager

The manager keeps the connection, the last sequence number and the team info
of every connected team.  Its broadcast methods take the payload of a queue
message as keyword arguments.  Here every send succeeds; how the manager
shares its lock is modelled apart.
-/

namespace InternTradingGame

open Effects

/-- A socket object, by its identity. -/
abbrev WebSocket := ℕ

/--
The connected teams with their sockets, the sequence number each of them has
reached, and what is known of the teams.
-/
structure WebSocketManager where
  activeConnections : OrderedDict String WebSocket
  sequenceNumbers : OrderedDict String ℕ
  teamInfo : OrderedDict String TeamInfo

namespace WebSocketManager

/-- No team is connected. -/
def new : WebSocketManager where
  activeConnections := ∅
  sequenceNumbers := ∅
  teamInfo := ∅

/-- `is_connected`. -/
def IsConnected (manager : WebSocketManager) (teamId : String) : Prop :=
  manager.activeConnections.Contains teamId

instance (manager : WebSocketManager) (teamId : String) :
    Decidable (manager.IsConnected teamId) :=
  inferInstanceAs (Decidable (manager.activeConnections.Contains teamId))

/-- What `connect` writes once the socket is accepted. -/
def enter (webSocket : WebSocket) (team : TeamInfo)
    (manager : WebSocketManager) : WebSocketManager where
  activeConnections := manager.activeConnections.set team.teamId webSocket
  sequenceNumbers := manager.sequenceNumbers.set team.teamId 0
  teamInfo := manager.teamInfo.set team.teamId team

/-- What `disconnect` does under the lock. -/
def remove (teamId : String) (manager : WebSocketManager) :
    WebSocketManager where
  activeConnections := manager.activeConnections.erase teamId
  sequenceNumbers := manager.sequenceNumbers.erase teamId
  teamInfo := manager.teamInfo.erase teamId

/-- The next sequence number of a team is taken. -/
def advance (teamId : String) (sequenceNumber : ℕ)
    (manager : WebSocketManager) : WebSocketManager :=
  { manager with
    sequenceNumbers := manager.sequenceNumbers.set teamId sequenceNumber }

/-- The three dictionaries speak of the same teams. -/
structure Consistent (manager : WebSocketManager) : Prop where
  sequenceNumbers : ∀ teamId,
    manager.sequenceNumbers.Contains teamId ↔ manager.IsConnected teamId
  teamInfo : ∀ teamId,
    manager.teamInfo.Contains teamId ↔ manager.IsConnected teamId

theorem consistent_new : new.Consistent where
  sequenceNumbers _ := Iff.rfl
  teamInfo _ := Iff.rfl

section Consistent

variable {manager : WebSocketManager}

theorem isConnected_enter (webSocket : WebSocket) (team : TeamInfo)
    (teamId : String) :
    (manager.enter webSocket team).IsConnected teamId ↔
      teamId = team.teamId ∨ manager.IsConnected teamId :=
  OrderedDict.contains_set _ _ _ _

theorem isConnected_remove (teamId other : String) :
    (manager.remove teamId).IsConnected other ↔
      other ≠ teamId ∧ manager.IsConnected other :=
  OrderedDict.contains_erase _ _ _

theorem Consistent.enter (consistent : manager.Consistent)
    (webSocket : WebSocket) (team : TeamInfo) :
    (manager.enter webSocket team).Consistent where
  sequenceNumbers teamId := by
    rw [isConnected_enter, ← consistent.sequenceNumbers]
    exact OrderedDict.contains_set _ _ _ _
  teamInfo teamId := by
    rw [isConnected_enter, ← consistent.teamInfo]
    exact OrderedDict.contains_set _ _ _ _

theorem Consistent.remove (consistent : manager.Consistent)
    (teamId : String) : (manager.remove teamId).Consistent where
  sequenceNumbers other := by
    rw [isConnected_remove, ← consistent.sequenceNumbers]
    exact OrderedDict.contains_erase _ _ _
  teamInfo other := by
    rw [isConnected_remove, ← consistent.teamInfo]
    exact OrderedDict.contains_erase _ _ _

theorem Consistent.advance (consistent : manager.Consistent)
    {teamId : String} (connected : manager.IsConnected teamId)
    (sequenceNumber : ℕ) :
    (manager.advance teamId sequenceNumber).Consistent where
  sequenceNumbers other := by
    refine Iff.trans (OrderedDict.contains_set _ _ _ _) ?_
    rw [consistent.sequenceNumbers]
    constructor
    · rintro (rfl | connected)
      · exact connected
      · exact connected
    · exact Or.inr
  teamInfo := consistent.teamInfo

/-- A connected team has a sequence number. -/
theorem Consistent.exists_sequenceNumber
    (consistent : manager.Consistent) {teamId : String}
    (connected : manager.IsConnected teamId) :
    ∃ last, manager.sequenceNumbers.get? teamId = some last :=
  (OrderedDict.contains_iff_exists _ _).mp
    ((consistent.sequenceNumbers teamId).mpr connected)

end Consistent

end WebSocketManager

/-! ## Sending -/

/-- A message sent over a socket. -/
structure SentMessage where
  webSocket : WebSocket
  teamId : String
  sequenceNumber : ℕ
  messageType : MessageType
  data : Payload

/-- The manager and what it has sent, oldest first. -/
structure Messenger where
  manager : WebSocketManager
  sent : List SentMessage

/-- What the routing of a message may raise. -/
inductive MessageError where
  | argument (error : ArgumentError)
  | attribute (name : String)
  | key (name : String)
deriving DecidableEq, Repr

/-- Programs which send messages; what has been sent stays sent. -/
abbrev MessengerM := EStateM MessageError Messenger

namespace Messenger

/-- `send_to_team`, with a send which succeeds. -/
def sendToTeam (teamId : String) (messageType : MessageType)
    (data : Payload) : MessengerM PUnit := do
  let messenger ← get
  match messenger.manager.activeConnections.get? teamId with
  | none => pure ⟨⟩
  | some webSocket =>
      match messenger.manager.sequenceNumbers.get? teamId with
      | none => throw (.key teamId)
      | some last =>
          set
            ({ manager := messenger.manager.advance teamId (last + 1)
               sent :=
                messenger.sent ++
                  [{ webSocket := webSocket
                     teamId := teamId
                     sequenceNumber := last + 1
                     messageType := messageType
                     data := data }] } : Messenger)

/-- Bind the keyword arguments of a broadcast. -/
def bindArguments (signature : Signature MessageValue)
    (keywords : Payload) : MessengerM (String → MessageValue) :=
  match signature.bind keywords with
  | .ok argument => pure argument
  | .error error => throw (.argument error)

/-! ## The broadcast methods -/

/-- The parameters of `broadcast_new_order_ack`. -/
def newOrderAckSignature : Signature MessageValue where
  required :=
    [ "order_id", "client_order_id", "instrument_id", "side", "quantity",
      "order_type", "price" ]
  optional := []

/-- `broadcast_new_order_ack`. -/
def broadcastNewOrderAck (teamId : String) (keywords : Payload) :
    MessengerM PUnit := do
  let argument ← bindArguments newOrderAckSignature keywords
  sendToTeam teamId .newOrderAck
    (buildNewOrderAck (argument "order_id") (argument "client_order_id")
      (argument "instrument_id") (argument "side") (argument "quantity")
      (argument "order_type") (argument "price"))

/--
The parameters of `broadcast_new_order_reject`; the code may be left out.
-/
def newOrderRejectSignature : Signature MessageValue where
  required := ["order_id", "client_order_id", "reason"]
  optional := [("error_code", .null)]

/-- `broadcast_new_order_reject`. -/
def broadcastNewOrderReject (teamId : String) (keywords : Payload) :
    MessengerM PUnit := do
  let argument ← bindArguments newOrderRejectSignature keywords
  sendToTeam teamId .newOrderReject
    (buildNewOrderReject (argument "order_id")
      (argument "client_order_id") (argument "reason")
      (argument "error_code"))

/-- `broadcast_execution_report`. -/
def broadcastExecutionReport (teamId : String)
    (orderId clientOrderId tradeId instrumentId side executedQuantity
      executedPrice remainingQuantity orderStatus : MessageValue)
    (liquidityType : LiquidityType) (fees : MessageValue) :
    MessengerM PUnit :=
  sendToTeam teamId .executionReport
    (buildExecutionReport orderId clientOrderId tradeId instrumentId side
      executedQuantity executedPrice remainingQuantity orderStatus
      liquidityType fees)

/--
The parameters of `broadcast_trade_execution`, none of which has a default.
-/
def tradeExecutionSignature : Signature MessageValue where
  required :=
    [ "trade", "buyer_order_id", "seller_order_id",
      "buyer_client_order_id", "seller_client_order_id",
      "buyer_remaining", "seller_remaining", "buyer_status",
      "seller_status", "buyer_fees", "seller_fees" ]
  optional := []

/-- `broadcast_trade_execution`: a report to each of the two parties. -/
def broadcastTradeExecution (keywords : Payload) : MessengerM PUnit := do
  let argument ← bindArguments tradeExecutionSignature keywords
  match argument "trade" with
  | .trade trade stamp => do
      let liquidity : LiquidityType × LiquidityType :=
        match trade.aggressorSide with
        | .buy => (.taker, .maker)
        | .sell => (.maker, .taker)
      broadcastExecutionReport trade.buyerId
        (argument "buyer_order_id") (argument "buyer_client_order_id")
        (.text stamp.tradeId) (.text trade.instrumentId) (.text "buy")
        (.number trade.quantity) (.number trade.price)
        (argument "buyer_remaining") (argument "buyer_status")
        liquidity.1 (argument "buyer_fees")
      broadcastExecutionReport trade.sellerId
        (argument "seller_order_id") (argument "seller_client_order_id")
        (.text stamp.tradeId) (.text trade.instrumentId) (.text "sell")
        (.number trade.quantity) (.number trade.price)
        (argument "seller_remaining") (argument "seller_status")
        liquidity.2 (argument "seller_fees")
  | _ => throw (.attribute "aggressor_side")

/-- The parameters of `broadcast_cancel_ack`; the reason may be left out. -/
def cancelAckSignature : Signature MessageValue where
  required := ["order_id", "client_order_id", "cancelled_quantity"]
  optional := [("reason", .text "user_requested")]

/-- `broadcast_cancel_ack`. -/
def broadcastCancelAck (teamId : String) (keywords : Payload) :
    MessengerM PUnit := do
  let argument ← bindArguments cancelAckSignature keywords
  sendToTeam teamId .cancelAck
    (buildCancelAck (argument "order_id") (argument "client_order_id")
      (argument "cancelled_quantity") (argument "reason"))

/-- The parameters of `broadcast_cancel_reject`. -/
def cancelRejectSignature : Signature MessageValue where
  required := ["order_id", "client_order_id", "reason"]
  optional := []

/-- `broadcast_cancel_reject`. -/
def broadcastCancelReject (teamId : String) (keywords : Payload) :
    MessengerM PUnit := do
  let argument ← bindArguments cancelRejectSignature keywords
  sendToTeam teamId .cancelReject
    (buildCancelReject (argument "order_id") (argument "client_order_id")
      (argument "reason"))

/-- `send_position_snapshot`. -/
def sendPositionSnapshot (teamId : String) (positions : MessageValue) :
    MessengerM PUnit :=
  sendToTeam teamId .positionSnapshot (buildPositionSnapshot positions)

/-! ## Routing -/

/-- `route_websocket_message`. -/
def routeWebsocketMessage (message : QueueMessage) : MessengerM PUnit :=
  if message.messageType = "new_order_ack" then
    broadcastNewOrderAck message.teamId message.data
  else if message.messageType = "new_order_reject" then
    broadcastNewOrderReject message.teamId message.data
  else if message.messageType = "execution_report" then
    broadcastTradeExecution message.data
  else if message.messageType = "position_snapshot" then
    match message.data.get? "positions" with
    | some positions => sendPositionSnapshot message.teamId positions
    | none => throw (.key "positions")
  else if message.messageType = "order_cancelled" then
    broadcastCancelAck message.teamId message.data
  else if message.messageType = "order_cancel_reject" then
    broadcastCancelReject message.teamId message.data
  else
    pure ⟨⟩

end Messenger

end InternTradingGame
