import InternTradingGame.Exchange.Fills
import InternTradingGame.Positions.PositionService

/-!
# From results to positions

The results of submissions reach the positions on one of two paths.  The
position tracker updates the positions of the aggressor and of the
counterparty fill by fill.  The trade processing service charges fees, sends
execution reports, updates the position of the aggressor once, and then those
of the counterparties.
-/

namespace InternTradingGame

open Effects

/-- What settlement and validation look at of a team: its id and its role. -/
structure TeamInfo where
  teamId : String
  role : String
deriving DecidableEq, Repr

/-- What the matching thread hands on: `(result, order, team_info)`. -/
structure TradeData where
  result : OrderResult
  order : Order
  team : TeamInfo

/-! ## The position tracker -/

/-- `process_aggressor_position`. -/
def processAggressorPosition (fill : Trade) (order : Order)
    (team : TeamInfo) (service : PositionManagementService) :
    PositionManagementService :=
  let aggressorDelta :=
    match order.side with
    | .buy => fill.quantity
    | .sell => -fill.quantity
  service.updatePosition team.teamId order.instrumentId aggressorDelta

/-- `process_counterparty_position`: a self-trade is skipped. -/
def processCounterpartyPosition (fill : Trade) (order : Order)
    (team : TeamInfo) (service : PositionManagementService) :
    PositionManagementService :=
  let counterparty :=
    match order.side with
    | .buy => (fill.sellerId, -fill.quantity)
    | .sell => (fill.buyerId, fill.quantity)
  if counterparty.1 = team.teamId then
    service
  else
    service.updatePosition counterparty.1 order.instrumentId
      counterparty.2

/-- Both updates of one fill. -/
def trackFill (order : Order) (team : TeamInfo)
    (service : PositionManagementService) (fill : Trade) :
    PositionManagementService :=
  processCounterpartyPosition fill order team
    (processAggressorPosition fill order team service)

/-- One item of the position queue. -/
def trackResult (service : PositionManagementService)
    (data : TradeData) : PositionManagementService :=
  data.result.fills.foldl (trackFill data.order data.team) service

/-- `position_tracker_thread`, until its queue is empty. -/
def positionTrackerThread (queue : List TradeData)
    (service : PositionManagementService) : PositionManagementService :=
  queue.foldl trackResult service

/-! ## Fees -/

/-- Whether an order made its trades, took them, or did both. -/
inductive LiquidityType where
  | maker
  | taker
  | mixed
deriving DecidableEq, Repr

/--
The two rates of a role, per contract.  Positive rates are paid to the team
and negative ones by it.
-/
structure FeeSchedule where
  makerRebate : ℚ
  takerFee : ℚ

/--
`get_fee_for_liquidity_type`: the rate of the order's part in a trade;
`mixed` is no such part and has no rate.
-/
def FeeSchedule.getFeeForLiquidityType (schedule : FeeSchedule) :
    LiquidityType → Except PyError ℚ
  | .maker => .ok schedule.makerRebate
  | .taker => .ok schedule.takerFee
  | .mixed =>
      .error (.valueError
        ("Invalid liquidity type: mixed. " ++
          "Must be 'maker' or 'taker'"))

/-- The fee schedules of the roles. -/
structure TradingFeeService where
  roleFees : OrderedDict String FeeSchedule

namespace TradingFeeService

/--
`calculate_fee`: the quantity times the rate of the role.  The product is
exact, where the source multiplies by a binary float and rounds.
-/
def calculateFee (fees : TradingFeeService) (quantity : ℤ)
    (role : String) (liquidityType : LiquidityType) :
    Except PyError ℚ :=
  match fees.roleFees.get? role with
  | none =>
      .error (.keyError
        ("Unknown role: " ++ role ++ ". Available roles: " ++
          formatList fees.roleFees.keys))
  | some schedule =>
      match schedule.getFeeForLiquidityType liquidityType with
      | .error exception => .error exception
      | .ok rate => .ok (quantity * rate)

/--
`determine_liquidity_type`: the order whose side is that of the aggressor
took its liquidity.
-/
def determineLiquidityType (aggressorSide orderSide : OrderSide) :
    LiquidityType :=
  if aggressorSide = orderSide then .taker else .maker

end TradingFeeService

/-! ## The trade processing service -/

/-- The execution report of a fill. -/
structure ExecutionReport where
  trade : Trade
  buyerOrderId : String
  sellerOrderId : String
  clientOrderId : Option String
  liquidityType : LiquidityType
  fees : ℚ

/-- The aggregated response to a processed result. -/
structure OrderResponse where
  orderId : String
  status : OrderStatus
  filledQuantity : ℤ
  averagePrice : Option ℚ
  fees : ℚ
  liquidityType : Option LiquidityType
deriving DecidableEq

/-- What the service works on: the positions and the message queue. -/
structure TradeProcessing where
  positions : PositionManagementService
  websocketQueue : List (String × ExecutionReport)

/--
Programs of the processing service; position updates made before an
exception stay.
-/
abbrev TradeProcessingM := EStateM PyError TradeProcessing

namespace TradeProcessingService

/--
`_create_execution_report_data`.  Both order ids come from the trade, and
the id the client chose only if the order is one of the two.
-/
def createExecutionReportData (trade : Trade) (order : Order)
    (liquidityType : LiquidityType) (fees : ℚ) : ExecutionReport where
  trade := trade
  buyerOrderId := trade.buyerOrderId
  sellerOrderId := trade.sellerOrderId
  clientOrderId :=
    if trade.Names order.orderId then order.clientOrderId else none
  liquidityType := liquidityType
  fees := fees

/--
`_process_single_fill`: the fee of the fill is computed before its report is
queued, so an unknown role leaves no report.
-/
def processSingleFill (feeService : TradingFeeService) (trade : Trade)
    (order : Order) (team : TeamInfo) :
    TradeProcessingM (ℚ × LiquidityType) := do
  let liquidityType :=
    TradingFeeService.determineLiquidityType trade.aggressorSide
      order.side
  let fees ←
    lift (feeService.calculateFee (truncate trade.quantity) team.role
      liquidityType)
  modify fun processing =>
    { processing with
      websocketQueue :=
        processing.websocketQueue ++
          [(team.teamId,
            createExecutionReportData trade order liquidityType fees)] }
  return (fees, liquidityType)

/--
`_calculate_position_delta`: a purchase adds to the position and a sale
takes away from it.
-/
def calculatePositionDelta (quantity : ℤ) : OrderSide → ℤ
  | .buy => quantity
  | .sell => -quantity

/--
`_calculate_average_price`: the prices weighted by their quantities, in
exact arithmetic.  The source sums and divides binary floats, so its average
may differ from this one by their rounding.
-/
def calculateAveragePrice (trades : List Trade) : ℚ :=
  (trades.map fun trade => trade.price * trade.quantity).sum /
    (trades.map Trade.quantity).sum

/--
`_determine_overall_liquidity_type` of the types seen, each once: the only
type there is, or `mixed`.
-/
def determineOverallLiquidityType :
    List LiquidityType → Option LiquidityType
  | [] => none
  | [liquidityType] => some liquidityType
  | _ => some .mixed

/--
`_get_counterparty_info`: the other team of the trade, and the sign with
which the trade changes its position.
-/
def getCounterpartyInfo (trade : Trade) (order : Order) : String × ℤ :=
  if order.orderId = trade.buyerOrderId then
    (trade.sellerId, -1)
  else
    (trade.buyerId, 1)

/--
One step of `_update_counterparty_positions`.  A team which trades with
itself is skipped, although only one of its two sides has been booked.
-/
def updateCounterparty (order : Order) (aggressorTeamId : String)
    (service : PositionManagementService) (trade : Trade) :
    PositionManagementService :=
  let counterparty := getCounterpartyInfo trade order
  if counterparty.1 = aggressorTeamId then
    service
  else
    service.updatePosition counterparty.1 order.instrumentId
      (counterparty.2 * truncate trade.quantity)

/-- `_update_counterparty_positions`. -/
def updateCounterpartyPositions (trades : List Trade) (order : Order)
    (aggressorTeamId : String) (service : PositionManagementService) :
    PositionManagementService :=
  trades.foldl (updateCounterparty order aggressorTeamId) service

/-- The fees and the liquidity types of all fills. -/
def processFills (feeService : TradingFeeService) (order : Order)
    (team : TeamInfo) :
    List Trade → ℚ → List LiquidityType →
      TradeProcessingM (ℚ × List LiquidityType)
  | [], totalFees, liquidityTypes => return (totalFees, liquidityTypes)
  | trade :: trades, totalFees, liquidityTypes => do
      let (fees, liquidityType) ←
        processSingleFill feeService trade order team
      processFills feeService order team trades (totalFees + fees)
        (if liquidityType ∈ liquidityTypes then
          liquidityTypes
        else
          liquidityTypes ++ [liquidityType])

/-- The positions once all fills have been reported. -/
def settleFills (fillQuantity : ℤ) (data : TradeData)
    (service : PositionManagementService) : PositionManagementService :=
  updateCounterpartyPositions data.result.fills data.order
    data.team.teamId
    (service.updatePosition data.team.teamId data.order.instrumentId
      (calculatePositionDelta fillQuantity data.order.side))

/-- `process_trade_result`. -/
def processTradeResult (feeService : TradingFeeService)
    (data : TradeData) : TradeProcessingM OrderResponse := do
  let fillQuantity :=
    truncate (data.result.fills.map Trade.quantity).sum
  if 0 < fillQuantity then do
    let (totalFees, liquidityTypes) ←
      processFills feeService data.order data.team data.result.fills 0 []
    modify fun processing =>
      { processing with
        positions :=
          settleFills fillQuantity data processing.positions }
    return {
      orderId := data.order.orderId
      status := data.result.status
      filledQuantity := fillQuantity
      averagePrice := some (calculateAveragePrice data.result.fills)
      fees := totalFees
      liquidityType := determineOverallLiquidityType liquidityTypes }
  else
    return {
      orderId := data.order.orderId
      status := data.result.status
      filledQuantity := fillQuantity
      averagePrice := none
      fees := 0
      liquidityType := none }

/-- Process results one after the other, whichever of them raise. -/
def processAll (feeService : TradingFeeService) (queue : List TradeData)
    (processing : TradeProcessing) : TradeProcessing :=
  queue.foldl
    (fun processing data =>
      finalState (processTradeResult feeService data processing))
    processing

end TradeProcessingService

end InternTradingGame
