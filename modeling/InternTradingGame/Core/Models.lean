import Mathlib.Data.Rat.Lemmas
import Mathlib.Algebra.Order.Ring.Rat
import Mathlib.Algebra.BigOperators.Group.List.Basic
import Mathlib.Logic.Function.Basic

/-!
# Orders, trades and results

The data model of the exchange.  Prices and quantities are exact rationals:
the source uses floats and integers, and no operation of the matching code
leaves the rationals.

An `Order` is what the constructor of the source accepts, so its checks are
fields.  The only attribute of an order object that changes after
construction is its remaining quantity.  Order books, the batch engine and
the callers hold references to the same object, so the remaining quantities
live in a `Heap`, under the order's id, and not in the order.
-/

namespace InternTradingGame

/-! ## Texts -/

/--
The first digits of `remainder / scale` after the decimal point, at most
`places` of them; a remainder of zero ends the digits.
-/
def decimalDigits (scale : ℕ) : ℕ → ℕ → List Char
  | 0, _ => []
  | places + 1, remainder =>
      if remainder = 0 then
        []
      else
        Nat.digitChar (10 * remainder / scale) ::
          decimalDigits scale places (10 * remainder % scale)

/--
A number as an f-string prints it: an integer by its digits and any other
number as a decimal.  The logarithm bounds the number of digits of a fraction
which ends; the exponents of very large and very small floats are left out.
-/
def formatNumber (value : ℚ) : String :=
  if value.den = 1 then
    toString value.num
  else
    (if value < 0 then "-" else "") ++
      toString (value.num.natAbs / value.den) ++ "." ++
      String.ofList
        (decimalDigits value.den (Nat.log2 value.den)
          (value.num.natAbs % value.den))

/-- A float as an f-string prints it: a whole one ends in `.0`. -/
def formatFloat (value : ℚ) : String :=
  if value.den = 1 then
    toString value.num ++ ".0"
  else
    formatNumber value

/--
`repr(text)`.  A text with apostrophes stands between quotation marks; if it
has both, it stands between apostrophes and those inside are escaped.  The
escapes of backslashes and control characters are left out.
-/
def quoted (text : String) : String :=
  if Char.ofNat 39 ∈ text.toList then
    if Char.ofNat 34 ∈ text.toList then
      "'" ++
        String.ofList
          (text.toList.flatMap fun letter =>
            if letter = Char.ofNat 39 then
              [Char.ofNat 92, letter]
            else
              [letter]) ++ "'"
    else
      "\"" ++ text ++ "\""
  else
    "'" ++ text ++ "'"

/-- A list of texts as an f-string prints it. -/
def formatList (elements : List String) : String :=
  "[" ++ ", ".intercalate (elements.map quoted) ++ "]"

/-! ## Exceptions -/

/--
The exceptions raised by the code, with the texts a caller can see.
`nontermination` is not an exception of the source: it stands for a loop
which does not end.
-/
inductive PyError where
  | valueError (message : String)
  | keyError (key : String)
  | indexError
  | assertionError (message : String)
  | runtimeError (message : String)
  | nontermination
deriving DecidableEq, Repr

/--
`str(e)`: the text an exception was raised with, except that a `KeyError`
shows the `repr` of its key.
-/
def PyError.describe : PyError → String
  | .valueError message => message
  | .keyError key => quoted key
  | .indexError => "list index out of range"
  | .assertionError message => message
  | .runtimeError message => message
  | .nontermination => ""

/-! ## Whole quantities -/

/--
`quantity == int(quantity)`, the test `Trade.__post_init__` applies to a
quantity.  The penny test of a price, `round(price, 2) == price`, is the
same test of a hundred times the price.
-/
def Whole (quantity : ℚ) : Prop :=
  quantity.den = 1

instance (quantity : ℚ) : Decidable (Whole quantity) :=
  inferInstanceAs (Decidable (quantity.den = 1))

theorem whole_iff (quantity : ℚ) :
    Whole quantity ↔ ∃ units : ℤ, quantity = units := by
  constructor
  · intro whole
    exact ⟨quantity.num, (Rat.den_eq_one_iff quantity).mp whole |>.symm⟩
  · rintro ⟨units, rfl⟩
    exact Rat.den_intCast units

theorem Whole.sub {left right : ℚ}
    (leftWhole : Whole left) (rightWhole : Whole right) :
    Whole (left - right) := by
  rcases (whole_iff left).mp leftWhole with ⟨leftUnits, rfl⟩
  rcases (whole_iff right).mp rightWhole with ⟨rightUnits, rfl⟩
  exact (whole_iff _).mpr ⟨leftUnits - rightUnits, by push_cast; rfl⟩

theorem Whole.add {left right : ℚ}
    (leftWhole : Whole left) (rightWhole : Whole right) :
    Whole (left + right) := by
  rcases (whole_iff left).mp leftWhole with ⟨leftUnits, rfl⟩
  rcases (whole_iff right).mp rightWhole with ⟨rightUnits, rfl⟩
  exact (whole_iff _).mpr ⟨leftUnits + rightUnits, by push_cast; rfl⟩

theorem Whole.sum {quantities : List ℚ}
    (wholes : ∀ quantity ∈ quantities, Whole quantity) :
    Whole quantities.sum := by
  induction quantities with
  | nil => rfl
  | cons quantity rest induction =>
      rw [List.sum_cons]
      exact (wholes quantity List.mem_cons_self).add
        (induction fun other member =>
          wholes other (List.mem_cons_of_mem _ member))

theorem Whole.min {left right : ℚ}
    (leftWhole : Whole left) (rightWhole : Whole right) :
    Whole (min left right) := by
  rcases min_choice left right with equal | equal
  · rwa [equal]
  · rwa [equal]

/--
`int(quantity)` rounds towards zero, so it leaves a whole quantity as it is.
-/
def truncate (quantity : ℚ) : ℤ :=
  if 0 ≤ quantity then quantity.floor else quantity.ceil

theorem truncate_whole {quantity : ℚ} (whole : Whole quantity) :
    (truncate quantity : ℚ) = quantity := by
  rcases (whole_iff quantity).mp whole with ⟨units, rfl⟩
  rw [truncate]
  split_ifs
  · rw [Rat.floor_intCast]
  · rw [Rat.ceil_intCast]

/-! ## Sides and order types -/

/--
The side of an order.  A buy order trades against the asks of its book and a
sell order against the bids.
-/
inductive OrderSide where
  | buy
  | sell
deriving DecidableEq, Repr

/--
The side an order is matched against, which is also the side of the order
that made the price of its trades.
-/
def OrderSide.opposite : OrderSide → OrderSide
  | .buy => .sell
  | .sell => .buy

@[simp]
theorem OrderSide.opposite_opposite (side : OrderSide) :
    side.opposite.opposite = side := by
  cases side <;> rfl

theorem OrderSide.eq_opposite_of_ne {first second : OrderSide}
    (different : first ≠ second) : first = second.opposite := by
  cases first with
  | buy =>
      cases second with
      | buy => exact absurd rfl different
      | sell => rfl
  | sell =>
      cases second with
      | buy => rfl
      | sell => exact absurd rfl different

/--
The type of an order: a limit order has a price, and a market order takes
whatever the other side of the book offers.
-/
inductive OrderType where
  | limit
  | market
deriving DecidableEq, Repr

/-! ## Orders -/

/--
An order as its constructor leaves it: the checks of `__post_init__` are the
last three fields.  The creation time is left out, as nothing in the
exchange reads it; an order is known by its id, which the caller may choose.
-/
structure Order where
  instrumentId : String
  side : OrderSide
  quantity : ℚ
  traderId : String
  price : Option ℚ
  orderId : String
  clientOrderId : Option String
  price_positive : ∀ limit ∈ price, 0 < limit
  price_pennies : ∀ limit ∈ price, Whole (limit * 100)
  quantity_positive : 0 < quantity
deriving DecidableEq

namespace Order

/--
The constructor, with the checks in the order the source makes them.  A
quantity need not be whole: only the trades it takes part in are checked for
that.
-/
def new (instrumentId : String) (side : OrderSide) (quantity : ℚ)
    (traderId : String) (price : Option ℚ) (orderId : String)
    (clientOrderId : Option String) : Except PyError Order :=
  if positive : ∀ limit ∈ price, 0 < limit then
    if pennies : ∀ limit ∈ price, Whole (limit * 100) then
      if quantityPositive : 0 < quantity then
        .ok
          { instrumentId, side, quantity, traderId, price, orderId,
            clientOrderId
            price_positive := positive
            price_pennies := pennies
            quantity_positive := quantityPositive }
      else
        .error (.valueError "Order quantity must be positive")
    else
      .error (.valueError "Order price must be in penny increments")
  else
    .error (.valueError "Limit orders must have a positive price")

/--
The type follows from the price, whatever the caller passed: `__post_init__`
overwrites the field.
-/
def orderType (order : Order) : OrderType :=
  match order.price with
  | none => .market
  | some _ => .limit

/--
`order.is_limit_order`: the order has a price, and what is left of it after
matching rests in the book.
-/
def IsLimitOrder (order : Order) : Prop :=
  order.orderType = .limit

instance (order : Order) : Decidable order.IsLimitOrder :=
  inferInstanceAs (Decidable (order.orderType = .limit))

theorem isLimitOrder_iff (order : Order) :
    order.IsLimitOrder ↔ ∃ limit, order.price = some limit := by
  unfold IsLimitOrder orderType
  cases order.price <;> simp

end Order

/-! ## Trades -/

/--
A trade as its constructor leaves it: the checks of `__post_init__` are the
last three fields.  The time and the id of a trade, both made up by the
constructor, are left out; the histories which need them carry them beside
the trade.
-/
structure Trade where
  instrumentId : String
  buyerId : String
  sellerId : String
  price : ℚ
  quantity : ℚ
  buyerOrderId : String
  sellerOrderId : String
  aggressorSide : OrderSide
  price_positive : 0 < price
  quantity_positive : 0 < quantity
  quantity_whole : Whole quantity
deriving DecidableEq

namespace Trade

/--
The constructor, with the checks in the order the source makes them.  A
trade of a part of a contract is refused, although an order for one is not.
-/
def new (instrumentId buyerId sellerId : String) (price quantity : ℚ)
    (buyerOrderId sellerOrderId : String) (aggressorSide : OrderSide) :
    Except PyError Trade :=
  if pricePositive : 0 < price then
    if quantityPositive : 0 < quantity then
      if whole : Whole quantity then
        .ok
          { instrumentId, buyerId, sellerId, price, quantity,
            buyerOrderId, sellerOrderId, aggressorSide
            price_positive := pricePositive
            quantity_positive := quantityPositive
            quantity_whole := whole }
      else
        .error (.valueError "Trade quantity must be a whole number")
    else
      .error (.valueError "Trade quantity must be positive")
  else
    .error (.valueError "Trade price must be positive")

/--
What the constructor stores when it does not raise: each field of the trade
is the argument of that name.
-/
structure Describes (trade : Trade)
    (instrumentId buyerId sellerId : String) (price quantity : ℚ)
    (buyerOrderId sellerOrderId : String)
    (aggressorSide : OrderSide) : Prop where
  instrument : trade.instrumentId = instrumentId
  buyer : trade.buyerId = buyerId
  seller : trade.sellerId = sellerId
  atPrice : trade.price = price
  forQuantity : trade.quantity = quantity
  buyerOrder : trade.buyerOrderId = buyerOrderId
  sellerOrder : trade.sellerOrderId = sellerOrderId
  aggressor : trade.aggressorSide = aggressorSide

section New

variable {instrumentId buyerId sellerId : String} {price quantity : ℚ}
  {buyerOrderId sellerOrderId : String} {aggressorSide : OrderSide}

theorem new_ok {trade : Trade}
    (created :
      new instrumentId buyerId sellerId price quantity
        buyerOrderId sellerOrderId aggressorSide = .ok trade) :
    trade.Describes instrumentId buyerId sellerId price quantity
      buyerOrderId sellerOrderId aggressorSide := by
  unfold new at created
  split_ifs at created
  cases created
  constructor <;> rfl

/-- A whole positive quantity at a positive price is always accepted. -/
theorem exists_new
    (pricePositive : 0 < price) (quantityPositive : 0 < quantity)
    (whole : Whole quantity) :
    ∃ trade,
      new instrumentId buyerId sellerId price quantity
        buyerOrderId sellerOrderId aggressorSide = .ok trade := by
  unfold new
  rw [dif_pos pricePositive, dif_pos quantityPositive, dif_pos whole]
  exact ⟨_, rfl⟩

end New

/--
The trade names the order on one of its two sides; trades refer to orders by
id only.
-/
def Names (trade : Trade) (orderId : String) : Prop :=
  trade.buyerOrderId = orderId ∨ trade.sellerOrderId = orderId

instance (trade : Trade) (orderId : String) :
    Decidable (trade.Names orderId) :=
  inferInstanceAs (Decidable (_ ∨ _))

end Trade

/-! ## Order results -/

/--
The statuses of results.  The engines answer with the first four and the
validator with the next two; the venue rejects as well, in a phase without
submissions, and an exception becomes an error.
-/
inductive OrderStatus where
  | pendingNew
  | new
  | partiallyFilled
  | filled
  | accepted
  | rejected
  | error
deriving DecidableEq, Repr

/-- The text of a status, as the messages to the teams carry it. -/
def OrderStatus.value : OrderStatus → String
  | .pendingNew => "pending_new"
  | .new => "new"
  | .partiallyFilled => "partially_filled"
  | .filled => "filled"
  | .accepted => "accepted"
  | .rejected => "rejected"
  | .error => "error"

/--
The result of submitting or validating an order: its status, the trades it
took part in as it came in, and what was left of it afterwards.
-/
structure OrderResult where
  orderId : String
  status : OrderStatus
  fills : List Trade
  remainingQuantity : ℚ
  errorCode : Option String
  errorMessage : Option String
deriving DecidableEq

/-! ## The order objects and the recorded trades -/

/--
The mutable part of the order objects and the history of the exchange.

`remainingQuantity` is the attribute of that name of the live order object
with the given id.  `orders` and `trades` are history variables: every order
taken in and every trade recorded, oldest first.  No function of the model
reads them.
-/
structure Heap where
  remainingQuantity : String → ℚ
  orders : List Order
  trades : List Trade

namespace Heap

/--
No order has been taken in and no trade has been made.  The remaining
quantity of an unknown id is never read.
-/
def empty : Heap where
  remainingQuantity := fun _ => 0
  orders := []
  trades := []

/-- `order.remaining_quantity`: what is left of the order object. -/
def remaining (heap : Heap) (order : Order) : ℚ :=
  heap.remainingQuantity order.orderId

/-- Assign to `remaining_quantity` of the order object with the given id. -/
def setRemaining (heap : Heap) (orderId : String) (quantity : ℚ) : Heap :=
  { heap with
    remainingQuantity :=
      Function.update heap.remainingQuantity orderId quantity }

/--
A new order is taken in; its constructor left its whole quantity in
`remaining_quantity`.
-/
def allocate (heap : Heap) (order : Order) : Heap :=
  { heap.setRemaining order.orderId order.quantity with
    orders := heap.orders ++ [order] }

/--
A trade has been recorded; the history of the exchange keeps it as its last
one.
-/
def record (heap : Heap) (trade : Trade) : Heap :=
  { heap with trades := heap.trades ++ [trade] }

@[simp]
theorem setRemaining_trades (heap : Heap) (orderId : String)
    (quantity : ℚ) :
    (heap.setRemaining orderId quantity).trades = heap.trades :=
  rfl

@[simp]
theorem setRemaining_orders (heap : Heap) (orderId : String)
    (quantity : ℚ) :
    (heap.setRemaining orderId quantity).orders = heap.orders :=
  rfl

@[simp]
theorem allocate_orders (heap : Heap) (order : Order) :
    (heap.allocate order).orders = heap.orders ++ [order] :=
  rfl

@[simp]
theorem record_orders (heap : Heap) (trade : Trade) :
    (heap.record trade).orders = heap.orders :=
  rfl

@[simp]
theorem allocate_trades (heap : Heap) (order : Order) :
    (heap.allocate order).trades = heap.trades :=
  rfl

@[simp]
theorem record_trades (heap : Heap) (trade : Trade) :
    (heap.record trade).trades = heap.trades ++ [trade] :=
  rfl

@[simp]
theorem record_remainingQuantity (heap : Heap) (trade : Trade) :
    (heap.record trade).remainingQuantity = heap.remainingQuantity :=
  rfl

@[simp]
theorem record_remaining (heap : Heap) (trade : Trade) (order : Order) :
    (heap.record trade).remaining order = heap.remaining order :=
  rfl

@[simp]
theorem remainingQuantity_setRemaining_self
    (heap : Heap) (orderId : String) (quantity : ℚ) :
    (heap.setRemaining orderId quantity).remainingQuantity orderId =
      quantity :=
  Function.update_self ..

theorem remainingQuantity_setRemaining_ne
    (heap : Heap) {orderId other : String} (quantity : ℚ)
    (different : other ≠ orderId) :
    (heap.setRemaining orderId quantity).remainingQuantity other =
      heap.remainingQuantity other :=
  Function.update_of_ne different ..

@[simp]
theorem remaining_setRemaining_self
    (heap : Heap) (order : Order) (quantity : ℚ) :
    (heap.setRemaining order.orderId quantity).remaining order =
      quantity :=
  heap.remainingQuantity_setRemaining_self ..

theorem remaining_setRemaining_ne
    (heap : Heap) {order : Order} {orderId : String} (quantity : ℚ)
    (different : order.orderId ≠ orderId) :
    (heap.setRemaining orderId quantity).remaining order =
      heap.remaining order :=
  heap.remainingQuantity_setRemaining_ne quantity different

@[simp]
theorem remaining_allocate_self (heap : Heap) (order : Order) :
    (heap.allocate order).remaining order = order.quantity :=
  heap.remaining_setRemaining_self ..

theorem remaining_allocate_ne
    (heap : Heap) {order other : Order}
    (different : other.orderId ≠ order.orderId) :
    (heap.allocate order).remaining other = heap.remaining other :=
  heap.remaining_setRemaining_ne _ different

end Heap

namespace Order

/--
`order.is_filled`: nothing is left of the order object, which is then taken
out of its price level.
-/
def IsFilled (order : Order) (heap : Heap) : Prop :=
  heap.remaining order = 0

instance (order : Order) (heap : Heap) : Decidable (order.IsFilled heap) :=
  inferInstanceAs (Decidable (heap.remaining order = 0))

/--
`order.fill(quantity)`.  The two checks come before the assignment, so a
refused fill changes nothing.
-/
def fill (order : Order) (heap : Heap) (quantity : ℚ) :
    Except PyError Heap :=
  if quantity ≤ 0 then
    .error (.valueError "Fill quantity must be positive")
  else if heap.remaining order < quantity then
    .error (.valueError
      ("Fill quantity " ++ formatNumber quantity ++
        " exceeds remaining quantity " ++
        formatNumber (heap.remaining order)))
  else
    .ok (heap.setRemaining order.orderId
      (heap.remaining order - quantity))

theorem fill_ok (order : Order) (heap : Heap) {quantity : ℚ}
    (positive : 0 < quantity)
    (available : quantity ≤ heap.remaining order) :
    order.fill heap quantity =
      .ok (heap.setRemaining order.orderId
        (heap.remaining order - quantity)) := by
  rw [fill, if_neg (not_le.mpr positive), if_neg (not_lt.mpr available)]

end Order

/-! ## Instruments and market phases -/

/--
A listed instrument.  The exchange only uses its symbol; strike, expiry and
option type belong to its description.
-/
structure Instrument where
  symbol : String
deriving DecidableEq, Repr

/--
The phases of a trading day, in the order in which a day runs through them.
-/
inductive PhaseType where
  | preOpen
  | openingAuction
  | continuous
  | closed
deriving DecidableEq, Repr

/--
The configuration value of a phase, under which its rules are looked up.
-/
def PhaseType.value : PhaseType → String
  | .preOpen => "pre_open"
  | .openingAuction => "opening_auction"
  | .continuous => "continuous"
  | .closed => "closed"

/--
How the exchange matches orders in a phase: not at all, all collected orders
at once, or each order as it comes in.
-/
inductive ExecutionStyle where
  | none
  | batch
  | continuous
deriving DecidableEq, Repr

/--
The operational rules of the current phase: what a team may do in it and how
its orders are matched.
-/
structure PhaseState where
  phaseType : PhaseType
  isOrderSubmissionAllowed : Bool
  isOrderCancellationAllowed : Bool
  isMatchingEnabled : Bool
  executionStyle : ExecutionStyle
deriving DecidableEq, Repr

/--
The phase states of the default configuration.  Orders are collected before
the opening, matched all at once in the auction and then one by one; a
closed market accepts nothing.
-/
def PhaseState.default : PhaseType → PhaseState
  | .closed =>
      { phaseType := .closed
        isOrderSubmissionAllowed := false
        isOrderCancellationAllowed := false
        isMatchingEnabled := false
        executionStyle := .none }
  | .preOpen =>
      { phaseType := .preOpen
        isOrderSubmissionAllowed := true
        isOrderCancellationAllowed := true
        isMatchingEnabled := false
        executionStyle := .none }
  | .openingAuction =>
      { phaseType := .openingAuction
        isOrderSubmissionAllowed := false
        isOrderCancellationAllowed := false
        isMatchingEnabled := true
        executionStyle := .batch }
  | .continuous =>
      { phaseType := .continuous
        isOrderSubmissionAllowed := true
        isOrderCancellationAllowed := true
        isMatchingEnabled := true
        executionStyle := .continuous }

/-! ## Orders used in examples -/

namespace Sample

/--
A team offers ten contracts at 5.00; the price and the quantity leave no
check of the constructor to fail.
-/
def sellTen : Order where
  instrumentId := "CALL"
  side := .sell
  quantity := 10
  traderId := "MAKER"
  price := some 5
  orderId := "SELL"
  clientOrderId := none
  price_positive := by decide +kernel
  price_pennies := by decide +kernel
  quantity_positive := by decide +kernel

/--
Another team buys four contracts at no more than 6.00, which crosses the
offer of ten at 5.00.
-/
def buyFour : Order where
  instrumentId := "CALL"
  side := .buy
  quantity := 4
  traderId := "TAKER"
  price := some 6
  orderId := "BUY"
  clientOrderId := none
  price_positive := by decide +kernel
  price_pennies := by decide +kernel
  quantity_positive := by decide +kernel

/--
Ten contracts are sold at any price: an order without a price is a market
order.
-/
def marketSell : Order :=
  { sellTen with
    orderId := "MARKET"
    price := none
    price_positive := nofun
    price_pennies := nofun }

/-- Four contracts are bought at any price, by an order which never rests. -/
def marketBuy : Order :=
  { buyFour with
    orderId := "MARKET"
    price := none
    price_positive := nofun
    price_pennies := nofun }

end Sample

end InternTradingGame
