import InternTradingGame.Core.Models
import InternTradingGame.Library.Effects
import InternTradingGame.Library.OrderedDict
import InternTradingGame.Library.Sequences
import Mathlib.Data.Finset.Basic

/-!
# The order book of one instrument

The book keeps two lists of price levels, the best price first, a map from
order ids to prices, the set of order ids and the last hundred trades.  An
incoming order is matched against the opposite side before the rest of it,
if it is a limit order, is inserted on its own side.

The programs below run on the book together with the heap of order objects.
Exceptions keep the changes made before them.
-/

namespace InternTradingGame

open Effects

/-! ## Price levels -/

/-- The orders at one price, in time priority, and their total quantity. -/
structure PriceLevel where
  price : ℚ
  orders : List Order
  totalQuantity : ℚ
deriving DecidableEq

namespace PriceLevel

/-- A level without orders. -/
def new (price : ℚ) : PriceLevel where
  price := price
  orders := []
  totalQuantity := 0

/--
`add_order`: the order joins the end of the queue, and its remaining
quantity the total.
-/
def addOrder (level : PriceLevel) (heap : Heap) (order : Order) :
    PriceLevel :=
  { level with
    orders := level.orders ++ [order]
    totalQuantity := level.totalQuantity + heap.remaining order }

/-- Remove the first order with the id, and return it. -/
def removeOrder (level : PriceLevel) (heap : Heap) (orderId : String) :
    PriceLevel × Option Order :=
  match level.orders.find? fun order => order.orderId = orderId with
  | none => (level, none)
  | some removed =>
      ({ level with
          orders :=
            level.orders.eraseP fun order => order.orderId = orderId
          totalQuantity :=
            level.totalQuantity - heap.remaining removed },
        some removed)

/-- `is_empty`: no order rests at the price. -/
def isEmpty (level : PriceLevel) : Bool :=
  level.orders.isEmpty

end PriceLevel

/-! ## The book -/

/--
The order book of an instrument: price levels on both sides, the best one
first, and the price of each resting order under its id.  `trades` is the
ring of the latest trades, of at most a hundred.
-/
structure OrderBook where
  instrumentId : String
  bids : List PriceLevel
  asks : List PriceLevel
  orderPriceMap : OrderedDict String ℚ
  orderIds : Finset String
  trades : List Trade

/-- How many trades the history of a book keeps. -/
def tradeHistoryLength : Nat := 100

namespace OrderBook

/-- The book of a newly listed instrument. -/
def new (instrumentId : String) : OrderBook where
  instrumentId := instrumentId
  bids := []
  asks := []
  orderPriceMap := ∅
  orderIds := ∅
  trades := []

/-- The levels of one side, the best price first. -/
def levels (book : OrderBook) : OrderSide → List PriceLevel
  | .buy => book.bids
  | .sell => book.asks

/-- The book with other price levels on one side. -/
def setLevels (book : OrderBook) (side : OrderSide)
    (changed : List PriceLevel) : OrderBook :=
  match side with
  | .buy => { book with bids := changed }
  | .sell => { book with asks := changed }

/-- `self.trades.append(trade)` on the bounded history. -/
def appendTrade (book : OrderBook) (trade : Trade) : OrderBook :=
  { book with
    trades :=
      (book.trades ++ [trade]).drop
        (book.trades.length + 1 - tradeHistoryLength) }

/-- Whether some bid level has the price. -/
def isBidPrice (book : OrderBook) (price : ℚ) : Bool :=
  book.bids.any fun level => level.price = price

/-- The side a resting order is looked up on, given its price. -/
def sideOfPrice (book : OrderBook) (price : ℚ) : OrderSide :=
  if book.isBidPrice price then .buy else .sell

/-- `best_bid`: the highest bid and its volume, if there is one. -/
def bestBid (book : OrderBook) : Option (ℚ × ℚ) :=
  book.bids.head?.map fun level => (level.price, level.totalQuantity)

/-- `best_ask`: the lowest ask and its volume, if there is one. -/
def bestAsk (book : OrderBook) : Option (ℚ × ℚ) :=
  book.asks.head?.map fun level => (level.price, level.totalQuantity)

/-- The first levels of both sides as prices and quantities. -/
structure Depth where
  bids : List (ℚ × ℚ)
  asks : List (ℚ × ℚ)
deriving DecidableEq

/--
`depth_snapshot`: price and volume of the best levels of each side, at most
`count` of them.
-/
def depthSnapshot (book : OrderBook) (count : Nat) : Depth where
  bids :=
    (book.bids.take count).map
      fun level => (level.price, level.totalQuantity)
  asks :=
    (book.asks.take count).map
      fun level => (level.price, level.totalQuantity)

/-- Find a resting order by its id. -/
def getOrder (book : OrderBook) (orderId : String) : Option Order :=
  match book.orderPriceMap.get? orderId with
  | none => none
  | some price =>
      ((book.levels (book.sideOfPrice price)).filter
          fun level => level.price = price).findSome?
        fun level =>
          level.orders.find? fun order => order.orderId = orderId

end OrderBook

/-- A book together with the heap its orders live in. -/
structure BookState where
  heap : Heap
  book : OrderBook

/--
Programs on a book: they may raise, and what they changed before that stays
changed.
-/
abbrev BookM := EStateM PyError BookState

namespace BookState

/-- The state with other price levels on one side of its book. -/
abbrev setLevels (state : BookState) (side : OrderSide)
    (levels : List PriceLevel) : BookState :=
  { state with book := state.book.setLevels side levels }

/-- A trade enters the history of the book. -/
def recordTrade (state : BookState) (trade : Trade) : BookState where
  heap := state.heap.record trade
  book := state.book.appendTrade trade

end BookState

/-! ## Matching -/

/-- A level price beyond the limit of the order. -/
def Order.Refuses (order : Order) (price : ℚ) : Prop :=
  match order.price with
  | none => False
  | some limit =>
      match order.side with
      | .buy => limit < price
      | .sell => price < limit

instance (order : Order) (price : ℚ) : Decidable (order.Refuses price) := by
  unfold Order.Refuses
  cases order.price with
  | none => exact inferInstanceAs (Decidable False)
  | some limit =>
      cases order.side with
      | buy => exact inferInstanceAs (Decidable (limit < price))
      | sell => exact inferInstanceAs (Decidable (price < limit))

namespace OrderBook

/-- The trade between an incoming order and a resting one. -/
def newTrade (book : OrderBook) (order matching : Order)
    (price quantity : ℚ) : Except PyError Trade :=
  match order.side with
  | .buy =>
      Trade.new book.instrumentId order.traderId matching.traderId
        price quantity order.orderId matching.orderId .buy
  | .sell =>
      Trade.new book.instrumentId matching.traderId order.traderId
        price quantity matching.orderId order.orderId .sell

/-- `order.fill(quantity)` on the object in the heap. -/
def fillOrder (order : Order) (quantity : ℚ) : BookM PUnit := do
  let state ← get
  let heap ← lift (order.fill state.heap quantity)
  modify fun state => { state with heap := heap }

/-- `self.order_ids.remove(order_id)`. -/
def removeOrderId (orderId : String) : BookM PUnit := do
  let state ← get
  if orderId ∈ state.book.orderIds then
    modify fun state =>
      { state with
        book :=
          { state.book with
            orderIds := state.book.orderIds.erase orderId } }
  else
    throw (.keyError orderId)

/-- `del self.order_price_map[order_id]`. -/
def deleteOrderPrice (orderId : String) : BookM PUnit := do
  let state ← get
  if state.book.orderPriceMap.Contains orderId then
    modify fun state =>
      { state with
        book :=
          { state.book with
            orderPriceMap := state.book.orderPriceMap.erase orderId } }
  else
    throw (.keyError orderId)

/-- A completely filled resting order leaves the best level. -/
def dropFilled (side : OrderSide) (best : PriceLevel)
    (deeper : List PriceLevel) (matching : Order) : BookM PUnit := do
  let state ← get
  let shrunk := (best.removeOrder state.heap matching.orderId).1
  modify (·.setLevels side (shrunk :: deeper))
  removeOrderId matching.orderId
  deleteOrderPrice matching.orderId
  if shrunk.isEmpty then
    modify (·.setLevels side deeper)
  else
    pure ⟨⟩

/--
One iteration of the matching loop: the trade it made, or `none` when the
loop ends.
-/
def matchIteration (order : Order) : BookM (Option Trade) := do
  let state ← get
  if order.IsFilled state.heap then
    return none
  else
    match state.book.levels order.side.opposite with
    | [] => return none
    | best :: deeper =>
        if order.Refuses best.price then
          return none
        else
          match best.orders with
          | [] => throw .indexError
          | matching :: _ => do
              let fillQty :=
                min (state.heap.remaining order)
                  (state.heap.remaining matching)
              let trade ←
                lift (state.book.newTrade order matching
                  best.price fillQty)
              modify (·.recordTrade trade)
              fillOrder order fillQty
              fillOrder matching fillQty
              let reduced :=
                { best with
                  totalQuantity := best.totalQuantity - fillQty }
              modify (·.setLevels order.side.opposite
                (reduced :: deeper))
              let settled ← get
              if matching.IsFilled settled.heap then
                dropFilled order.side.opposite reduced deeper matching
              else
                pure ⟨⟩
              return some trade

/-- The matching loop, for at most the given number of iterations. -/
def matchLoop (order : Order) : Nat → List Trade → BookM (List Trade)
  | 0, _ => throw .nontermination
  | iterations + 1, trades => do
      match ← matchIteration order with
      | none => return trades
      | some trade => matchLoop order iterations (trades ++ [trade])

/-- The orders resting on one side, in priority order. -/
def restingOn (book : OrderBook) (side : OrderSide) : List Order :=
  (book.levels side).flatMap PriceLevel.orders

/--
Match an order against the opposite side.  One iteration for every resting
order there, and one to leave the loop, are always enough.
-/
def matchOrder (order : Order) : BookM (List Trade) := do
  let state ← get
  matchLoop order
    ((state.book.restingOn order.side.opposite).length + 1) []

/-! ## Insertion, addition and cancellation -/

/-- Where a new level keeps the levels of a side sorted. -/
def insertPosition (levels : List PriceLevel) (side : OrderSide)
    (price : ℚ) : Nat :=
  match side with
  | .buy =>
      Sequences.bisectLeft (levels.map fun level => -level.price) (-price)
  | .sell =>
      Sequences.bisectLeft (levels.map fun level => level.price) price

/-- The levels of a side once an order has been put at its price. -/
def insertIntoLevels (levels : List PriceLevel) (heap : Heap)
    (order : Order) (price : ℚ) : List PriceLevel :=
  match
    Sequences.updateFirst (fun level => level.price = price)
      (·.addOrder heap order) levels
  with
  | some updated => updated
  | none =>
      levels.insertIdx (insertPosition levels order.side price)
        ((PriceLevel.new price).addOrder heap order)

/-- Insert a limit order on its own side. -/
def insertOrder (order : Order) : BookM PUnit := do
  match order.price with
  | none =>
      throw (.assertionError
        "Only limit orders can be inserted into the book")
  | some price =>
      modify fun state =>
        { state with
          book :=
            { state.book.setLevels order.side
                (insertIntoLevels (state.book.levels order.side)
                  state.heap order price) with
              orderPriceMap :=
                state.book.orderPriceMap.set order.orderId price
              orderIds := insert order.orderId state.book.orderIds } }

/-- Match an order and let the rest of a limit order rest in the book. -/
def addOrder (order : Order) : BookM (List Trade) := do
  let state ← get
  if order.instrumentId ≠ state.book.instrumentId then
    throw (.valueError
      ("Order instrument " ++ order.instrumentId ++
        " does not match book instrument " ++ state.book.instrumentId))
  else if order.orderId ∈ state.book.orderIds then
    throw (.valueError
      ("Order ID " ++ order.orderId ++ " already exists in the book"))
  else do
    let trades ← matchOrder order
    let matched ← get
    if ¬ order.IsFilled matched.heap ∧ order.IsLimitOrder then
      insertOrder order
    else
      pure ⟨⟩
    return trades

/-- A cancelled order leaves its level, and an emptied level its side. -/
def dropCancelled (side : OrderSide) (levels : List PriceLevel)
    (shrunk : PriceLevel) (orderId : String) : BookM PUnit := do
  modify (·.setLevels side levels)
  deleteOrderPrice orderId
  removeOrderId orderId
  if shrunk.isEmpty then
    modify fun state =>
      state.setLevels side ((state.book.levels side).erase shrunk)
  else
    pure ⟨⟩

/-- Take a resting order out of the book. -/
def cancelOrder (orderId : String) : BookM (Option Order) := do
  let state ← get
  match state.book.orderPriceMap.get? orderId with
  | none => return none
  | some price =>
      let side := state.book.sideOfPrice price
      let levels := state.book.levels side
      match levels.find? fun level => level.price = price with
      | none => return none
      | some level =>
          match level.removeOrder state.heap orderId with
          | (_, none) => return none
          | (shrunk, some order) => do
              dropCancelled side
                ((Sequences.updateFirst
                    (fun other => other.price = price)
                    (fun _ => shrunk) levels).getD levels)
                shrunk orderId
              return some order

end OrderBook

end InternTradingGame
