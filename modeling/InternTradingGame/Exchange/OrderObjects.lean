import InternTradingGame.Exchange.VenueShape

/-!
# Order objects which are handed in again

The venue takes in order objects, and an object keeps what it has been filled
by.  When an order has been filled in part and cancelled, its id is free
again, so the same object can be submitted once more with the rest of its
quantity.  A new object has its whole quantity left, and its submission is
the one of `submitOrder`.
-/

namespace InternTradingGame

open Effects

namespace ExchangeVenue

/-- The order object has this quantity left. -/
def setLeft (venue : ExchangeVenue) (order : Order) (left : ℚ) :
    ExchangeVenue :=
  { venue with
    market :=
      { venue.market with
        heap := venue.market.heap.setRemaining order.orderId left } }

/-- The id of an object with this quantity left is registered. -/
def registerObject (venue : ExchangeVenue) (order : Order) (left : ℚ) :
    ExchangeVenue :=
  (venue.register order).setLeft order left

/--
`submit_order` of an order object with this quantity left.  The answers which
do not come from matching report the quantity of the order, whatever is left
of it.
-/
def submitObject (order : Order) (left : ℚ) : VenueM OrderResult := do
  let venue ← get
  if !venue.currentPhaseState.isOrderSubmissionAllowed then
    return venue.phaseRejection order
  else if ¬ venue.market.orderBooks.Contains order.instrumentId then
    throw (.valueError
      ("Instrument " ++ order.instrumentId ++ " not found"))
  else if order.orderId ∈ venue.allOrderIds then
    throw (.valueError
      ("Order ID " ++ order.orderId ++ " already exists"))
  else do
    modify (·.registerObject order left)
    if venue.shouldUseBatchEngine then do
      modify fun venue =>
        { venue with
          pendingOrders :=
            BatchMatchingEngine.collect venue.pendingOrders order }
      return pendingResult order
    else
      onMarket (ContinuousMatchingEngine.submitOrder order)

/-- A new object is registered with its whole quantity. -/
theorem registerObject_quantity (venue : ExchangeVenue) (order : Order) :
    venue.registerObject order order.quantity = venue.register order := by
  have same : (venue.market.heap.allocate order).setRemaining
      order.orderId order.quantity = venue.market.heap.allocate order := by
    rw [Heap.setRemaining, Heap.allocate, Heap.setRemaining,
      Function.update_idem]
  rw [registerObject, setLeft, register, same]

/-- Submitting a new object is submitting an order. -/
theorem submitObject_quantity (order : Order) :
    submitObject order order.quantity = submitOrder order := by
  rw [submitObject, submitOrder]
  simp only [registerObject_quantity]

section Register

variable {venue : ExchangeVenue} {order other : Order} {left : ℚ}

/-- An object which reaches the continuous engine. -/
theorem submitObject_continuous
    (phase : venue.currentPhaseState.isOrderSubmissionAllowed = true)
    (listed : venue.market.orderBooks.Contains order.instrumentId)
    (unknown : order.orderId ∉ venue.allOrderIds)
    (continuous : venue.shouldUseBatchEngine = false) :
    submitObject order left venue =
      onMarket (ContinuousMatchingEngine.submitOrder order)
        (venue.registerObject order left) := by
  rw [submitObject, bind_apply, get_apply]
  simp only [phase, listed, unknown, Bool.not_true, Bool.false_eq_true,
    not_true, if_false, continuous]
  rfl

/-- The venue answers an object with an id it knows by an exception. -/
theorem submitObject_known
    (phase : venue.currentPhaseState.isOrderSubmissionAllowed = true)
    (listed : venue.market.orderBooks.Contains order.instrumentId)
    (known : order.orderId ∈ venue.allOrderIds) :
    submitObject order left venue =
      .error
        (.valueError ("Order ID " ++ order.orderId ++ " already exists"))
        venue := by
  rw [submitObject, bind_apply, get_apply]
  simp only [phase, listed, known, Bool.not_true, Bool.false_eq_true,
    not_true, if_false, if_true, throw_apply]

theorem remaining_registerObject_self :
    (venue.registerObject order left).market.heap.remaining order = left :=
  Heap.remaining_setRemaining_self _ _ _

theorem remaining_registerObject_ne
    (different : other.orderId ≠ order.orderId) :
    (venue.registerObject order left).market.heap.remaining other =
      venue.market.heap.remaining other :=
  (Heap.remaining_setRemaining_ne _ _ different).trans
    (Heap.remaining_allocate_ne _ different)

theorem setLeft_shape (shape : VenueShape venue) :
    VenueShape (venue.setLeft order left) where
  market := ⟨shape.market.books, shape.market.named,
    shape.market.registered, shape.market.distinct⟩
  instruments := shape.instruments
  pending := shape.pending

end Register

end ExchangeVenue

/-! ## Calls with order objects -/

/-- The call raises an exception. -/
def VenueCall.Raises : VenueCall → ExchangeVenue → Prop
  | .listInstrument instrument, venue =>
      returned (ExchangeVenue.listInstrument instrument venue) = none
  | .submitOrder order, venue =>
      returned (ExchangeVenue.submitOrder order venue) = none
  | .cancelOrder orderId traderId, venue =>
      returned (ExchangeVenue.cancelOrder orderId traderId venue) = none
  | .executeBatch draw, venue =>
      returned (ExchangeVenue.executeBatch draw venue) = none
  | .executeOpeningAuction draw, venue =>
      returned (ExchangeVenue.executeOpeningAuction draw venue) = none
  | .cancelAllOrders, venue =>
      returned (ExchangeVenue.cancelAllOrders venue) = none
  | .checkPhaseTransitions observed draw, venue =>
      returned
        (ExchangeVenue.checkPhaseTransitions observed draw venue) = none

/-- A call of the venue, or a submission of an object which may be used. -/
inductive ObjectCall where
  | submitObject (order : Order) (left : ℚ)
  | operation (call : VenueCall)

namespace ObjectCall

/-- The venue a call leaves, whether it returns or raises. -/
def execute : ObjectCall → ExchangeVenue → ExchangeVenue
  | .submitObject order left, venue =>
      finalState (ExchangeVenue.submitObject order left venue)
  | .operation call, venue => call.execute venue

/-- The call raises an exception. -/
def Raises : ObjectCall → ExchangeVenue → Prop
  | .submitObject order left, venue =>
      returned (ExchangeVenue.submitObject order left venue) = none
  | .operation call, venue => call.Raises venue

/--
An object has something left when the venue takes it in: the id of an order
which has been filled stays known.
-/
def Possible : ObjectCall → ExchangeVenue → Prop
  | .submitObject order left, venue =>
      order.orderId ∉ venue.allOrderIds →
        0 < left ∧ left ≤ order.quantity
  | .operation _, _ => True

instance (call : ObjectCall) (venue : ExchangeVenue) :
    Decidable (call.Possible venue) := by
  rcases call
  case submitObject order left =>
      exact inferInstanceAs
        (Decidable (order.orderId ∉ venue.allOrderIds →
          0 < left ∧ left ≤ order.quantity))
  case operation call => exact inferInstanceAs (Decidable True)

/-- The calls of a run in which only new objects are submitted. -/
def operations (calls : List VenueCall) : List ObjectCall :=
  calls.map .operation

end ObjectCall

/-- One call, with any ids, any quantities and any order objects. -/
abbrev ObjectStep : ExchangeVenue → ObjectCall → ExchangeVenue → Prop :=
  GuardedStep ObjectCall.Possible ObjectCall.execute

namespace Sample

/-- An offer is filled in part and cancelled. -/
def cancelledSale : List ObjectCall :=
  ObjectCall.operations
    (continuousCalls ++
      [.submitOrder buyFour, .cancelOrder "SELL" "MAKER"])

/-- The object of the cancelled offer comes back. -/
def handedInAgain : List ObjectCall :=
  cancelledSale ++ [.submitObject sellTen 6]

end Sample

end InternTradingGame
