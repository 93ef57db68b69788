import InternTradingGame.Exchange.Market
import Mathlib.Data.List.Sort
import Mathlib.Order.Lex
import Mathlib.Data.Prod.Lex

/-!
# The matching engines

The continuous engine adds an order to its book at once.  The batch engine
collects orders by instrument; executing the batch pairs the collected
orders of each instrument with each other and adds what is left to the
book.

The random tie-break of the batch is a parameter `draw`: the number drawn
for each order.
-/

namespace InternTradingGame

open Effects

/-! ## The continuous engine -/

namespace ContinuousMatchingEngine

/-- `submit_order`. -/
def submitOrder (order : Order) : MarketM OrderResult := do
  let trades ←
    Market.onBook order.instrumentId (OrderBook.addOrder order)
  let market ← get
  let status :=
    if order.IsFilled market.heap then
      OrderStatus.filled
    else if trades.isEmpty then
      OrderStatus.new
    else
      OrderStatus.partiallyFilled
  return {
    orderId := order.orderId
    status := status
    fills := trades
    remainingQuantity := market.heap.remaining order
    errorCode := none
    errorMessage := none }

end ContinuousMatchingEngine

/-! ## The batch engine -/

/-- The collected orders of each instrument, in the order of arrival. -/
abbrev PendingOrders := OrderedDict String (List Order)

/-- The results of a batch, by instrument and by order. -/
abbrev BatchResults := OrderedDict String (OrderedDict String OrderResult)

/-- What a batch works on. -/
structure BatchContext where
  market : Market
  results : BatchResults

/--
Programs of the batch engine, which build up the results while they change
the market.
-/
abbrev BatchM := EStateM PyError BatchContext

namespace BatchContext

/-- Run a program of the market within a batch. -/
def onMarket {α : Type} (program : MarketM α) : BatchM α :=
  zoom BatchContext.market
    (fun market context => { context with market := market }) program

/-- The result of an order, created when it is asked for first. -/
def getOrCreateResult (context : BatchContext) (instrumentId : String)
    (order : Order) : OrderResult :=
  ((context.results.get? instrumentId).getD ∅).get? order.orderId
    |>.getD
      { orderId := order.orderId
        status := .new
        fills := []
        remainingQuantity := context.market.heap.remaining order
        errorCode := none
        errorMessage := none }

/--
`results[instrument_id][order_id] = result`, where a later result of an
order replaces an earlier one.
-/
def setResult (context : BatchContext) (instrumentId : String)
    (result : OrderResult) : BatchContext :=
  { context with
    results :=
      context.results.set instrumentId
        (((context.results.get? instrumentId).getD ∅).set
          result.orderId result) }

/-- Add trades to the fills of the result of an order. -/
def extendFills (context : BatchContext) (instrumentId : String)
    (order : Order) (fills : List Trade) : BatchContext :=
  let result := context.getOrCreateResult instrumentId order
  context.setResult instrumentId
    { result with fills := result.fills ++ fills }

end BatchContext

namespace BatchMatchingEngine

/-- The trade between two collected orders is at the price of the seller. -/
def createTrade (buyOrder sellOrder : Order) (quantity : ℚ) :
    Except PyError Trade :=
  match sellOrder.price with
  | none =>
      .error (.assertionError "Sell order price cannot be None in trade")
  | some price =>
      Trade.new buyOrder.instrumentId buyOrder.traderId
        sellOrder.traderId price quantity buyOrder.orderId
        sellOrder.orderId .buy

/-- The two orders lose the quantity, and the book remembers the trade. -/
def settleTrade (trade : Trade) (buyOrder sellOrder : Order)
    (market : Market) : Market where
  heap :=
    let bought :=
      (market.heap.record trade).setRemaining buyOrder.orderId
        (market.heap.remaining buyOrder - trade.quantity)
    bought.setRemaining sellOrder.orderId
      (bought.remaining sellOrder - trade.quantity)
  orderBooks :=
    match market.orderBooks.get? trade.instrumentId with
    | none => market.orderBooks
    | some book =>
        market.orderBooks.set trade.instrumentId (book.appendTrade trade)

/-- `_record_trade`. -/
def recordTrade (trade : Trade) (buyOrder sellOrder : Order)
    (context : BatchContext) : BatchContext :=
  let settled : BatchContext :=
    { context with
      market := settleTrade trade buyOrder sellOrder context.market }
  (settled.extendFills trade.instrumentId buyOrder [trade]).extendFills
    trade.instrumentId sellOrder [trade]

/-- The sort key of an order: its price, then the number drawn for it. -/
def sortKey (draw : String → ℚ) (descending : Bool) (order : Order) :
    ℚ ×ₗ ℚ :=
  toLex
    (match order.price with
      | none => 0
      | some price => if descending then -price else price,
      draw order.orderId)

/-- `_randomize_same_price_orders`. -/
def randomizeSamePriceOrders (draw : String → ℚ) (descending : Bool)
    (orders : List Order) : List Order :=
  orders.insertionSort fun first second =>
    sortKey draw descending first ≤ sortKey draw descending second

/--
Pair the first buy order with the first sell order while they cross.  The
result is what is left of the two queues.  Every iteration ends the loop or
shortens a queue, so the sum of their lengths bounds the iterations.
-/
def pairOrders :
    Nat → List Order → List Order → BatchM (List Order × List Order)
  | 0, _, _ => throw .nontermination
  | iterations + 1, buyOrder :: buyOrders, sellOrder :: sellOrders =>
      match buyOrder.price, sellOrder.price with
      | some bid, some ask =>
          if ask ≤ bid then do
            let context ← get
            let matchQty :=
              min (context.market.heap.remaining buyOrder)
                (context.market.heap.remaining sellOrder)
            let trade ← lift (createTrade buyOrder sellOrder matchQty)
            modify (recordTrade trade buyOrder sellOrder)
            let settled ← get
            pairOrders iterations
              (if buyOrder.IsFilled settled.market.heap then
                buyOrders
              else
                buyOrder :: buyOrders)
              (if sellOrder.IsFilled settled.market.heap then
                sellOrders
              else
                sellOrder :: sellOrders)
          else
            return (buyOrder :: buyOrders, sellOrder :: sellOrders)
      | _, _ => return (buyOrder :: buyOrders, sellOrder :: sellOrders)
  | _ + 1, buyOrders, sellOrders => return (buyOrders, sellOrders)

/-- Add one order which is left to the book. -/
def addOrderToBook (instrumentId : String) (order : Order) :
    BatchM PUnit := do
  let trades ←
    BatchContext.onMarket
      (Market.onBook instrumentId (OrderBook.addOrder order))
  modify (·.extendFills instrumentId order trades)

/-- `_add_orders_to_book`. -/
def addOrdersToBook (instrumentId : String) (orders : List Order) :
    BatchM PUnit :=
  orders.forM (addOrderToBook instrumentId)

/-- Match the collected orders of one instrument. -/
def matchInstrument (draw : String → ℚ)
    (collected : String × List Order) : BatchM PUnit := do
  let context ← get
  if context.market.orderBooks.Contains collected.1 then do
    let buyOrders :=
      randomizeSamePriceOrders draw true
        (collected.2.filter fun order => order.side = .buy)
    let sellOrders :=
      randomizeSamePriceOrders draw false
        (collected.2.filter fun order => order.side = .sell)
    let left ←
      pairOrders (buyOrders.length + sellOrders.length + 1)
        buyOrders sellOrders
    addOrdersToBook collected.1 (left.1 ++ left.2)
  else
    pure ⟨⟩

/-- `match_batch_orders`. -/
def matchBatchOrders (draw : String → ℚ) (pending : PendingOrders) :
    BatchM PUnit :=
  pending.entries.forM (matchInstrument draw)

/-- The final status and remaining quantity of a collected order. -/
def finalizeResult (instrumentId : String) (order : Order)
    (context : BatchContext) : BatchContext :=
  let result := context.getOrCreateResult instrumentId order
  context.setResult instrumentId
    { result with
      remainingQuantity := context.market.heap.remaining order
      status :=
        if order.IsFilled context.market.heap then
          .filled
        else if result.fills.isEmpty then
          .new
        else
          .partiallyFilled }

/-- `finalize_results`. -/
def finalizeResults (pending : PendingOrders) : BatchM PUnit :=
  modify fun context =>
    pending.entries.foldl
      (fun context collected =>
        collected.2.foldl
          (fun context order => finalizeResult collected.1 order context)
          context)
      context

/-- The batch itself, before the engine forgets the collected orders. -/
def runBatch (draw : String → ℚ) (pending : PendingOrders) :
    BatchM BatchResults := do
  matchBatchOrders draw pending
  finalizeResults pending
  let context ← get
  return context.results

/-- `submit_order` collects an order. -/
def collect (pending : PendingOrders) (order : Order) : PendingOrders :=
  pending.set order.instrumentId
    ((pending.get? order.instrumentId).getD [] ++ [order])

end BatchMatchingEngine

end InternTradingGame
