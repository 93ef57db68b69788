import InternTradingGame.Exchange.MatchingEngine

/-!
# The exchange venue

The venue routes orders to the engine which the current phase asks for,
cancels resting orders, and reacts to the phase transitions it observes.
The phase manager is outside: what it reports is an argument of
`checkPhaseTransitions`.
-/

namespace InternTradingGame

open Effects

/--
The exchange: its market, the listed instruments, every id it has
registered, the phase it last observed, and the orders which the batch
engine collects.
-/
structure ExchangeVenue where
  market : Market
  instruments : OrderedDict String Instrument
  allOrderIds : Finset String
  currentPhaseState : PhaseState
  lastPhase : Option PhaseType
  pendingOrders : PendingOrders

/-- Programs on the venue; changes made before an exception stay. -/
abbrev VenueM := EStateM PyError ExchangeVenue

namespace ExchangeVenue

/--
A new venue.  The phase manager is asked twice: for the cached phase state
and for the baseline of the transition handler.
-/
def new (cached baseline : PhaseState) : ExchangeVenue where
  market := { heap := Heap.empty, orderBooks := ∅ }
  instruments := ∅
  allOrderIds := ∅
  currentPhaseState := cached
  lastPhase := some baseline.phaseType
  pendingOrders := ∅

/-- Run a program on the books of the venue. -/
def onMarket {α : Type} (program : MarketM α) : VenueM α :=
  zoom ExchangeVenue.market
    (fun market venue => { venue with market := market }) program

/-! ## Instruments and orders -/

/--
`list_instrument`: the instrument gets an order book of its own, and a
symbol may be listed once.
-/
def listInstrument (instrument : Instrument) : VenueM PUnit := do
  let venue ← get
  if venue.instruments.Contains instrument.symbol then
    throw (.valueError
      ("Instrument with ID " ++ instrument.symbol ++ " already exists"))
  else
    set
      { venue with
        instruments := venue.instruments.set instrument.symbol instrument
        market :=
          { venue.market with
            orderBooks :=
              venue.market.orderBooks.set instrument.symbol
                (OrderBook.new instrument.symbol) } }

/-- `_should_use_batch_engine`. -/
def shouldUseBatchEngine (venue : ExchangeVenue) : Bool :=
  venue.currentPhaseState.executionStyle = .batch ||
    !venue.currentPhaseState.isMatchingEnabled

/-- The answer to an order submitted in a phase which takes no orders. -/
def phaseRejection (venue : ExchangeVenue) (order : Order) :
    OrderResult where
  orderId := order.orderId
  status := .rejected
  fills := []
  remainingQuantity := order.quantity
  errorCode := none
  errorMessage :=
    some ("Order submission not allowed during " ++
      venue.currentPhaseState.phaseType.value ++ " phase")

/-- The answer to an order the batch engine collects. -/
def pendingResult (order : Order) : OrderResult where
  orderId := order.orderId
  status := .pendingNew
  fills := []
  remainingQuantity := order.quantity
  errorCode := none
  errorMessage := none

/-- The venue knows the id of an order, which is live from now on. -/
def register (venue : ExchangeVenue) (order : Order) : ExchangeVenue :=
  { venue with
    allOrderIds := insert order.orderId venue.allOrderIds
    market :=
      { venue.market with heap := venue.market.heap.allocate order } }

/--
`submit_order`: the phase, the instrument and the id are checked before the
id is registered and the engine of the phase gets the order.
-/
def submitOrder (order : Order) : VenueM OrderResult := do
  let venue ← get
  if !venue.currentPhaseState.isOrderSubmissionAllowed then
    return venue.phaseRejection order
  else if ¬ venue.market.orderBooks.Contains order.instrumentId then
    throw (.valueError
      ("Instrument " ++ order.instrumentId ++ " not found"))
  else if order.orderId ∈ venue.allOrderIds then
    throw (.valueError
      ("Order ID " ++ order.orderId ++ " already exists"))
  else do
    modify (·.register order)
    if venue.shouldUseBatchEngine then do
      modify fun venue =>
        { venue with
          pendingOrders :=
            BatchMatchingEngine.collect venue.pendingOrders order }
      return pendingResult order
    else
      onMarket (ContinuousMatchingEngine.submitOrder order)

/-- The first book which finds the order, with its instrument. -/
def findOrder (market : Market) (orderId : String) :
    Option (String × Order) :=
  market.orderBooks.entries.findSome? fun entry =>
    (entry.2.getOrder orderId).map fun order => (entry.1, order)

/--
`cancel_order`: the order is searched in the order books only and must
belong to the team.  A successful cancel frees its id.
-/
def cancelOrder (orderId traderId : String) : VenueM Bool := do
  let venue ← get
  if !venue.currentPhaseState.isOrderCancellationAllowed then
    return false
  else if orderId ∉ venue.allOrderIds then
    return false
  else
    match findOrder venue.market orderId with
    | none => return false
    | some (instrumentId, order) =>
        if order.traderId ≠ traderId then
          throw (.valueError
            ("Trader " ++ traderId ++ " does not own order " ++ orderId))
        else do
          let cancelled ←
            onMarket (Market.onBook instrumentId
              (OrderBook.cancelOrder orderId))
          match cancelled with
          | none => return false
          | some _ => do
              modify fun venue =>
                { venue with
                  allOrderIds := venue.allOrderIds.erase orderId }
              return true

/-! ## Batches and phase transitions -/

/-- Run a batch on the books of the venue, with no results yet. -/
def onBatch {α : Type} (program : BatchM α) : VenueM α :=
  zoom (fun venue => { market := venue.market, results := ∅ })
    (fun context venue => { venue with market := context.market })
    program

/-- Run the batch engine; it forgets its orders unless it raises. -/
def runBatchEngine (draw : String → ℚ) : VenueM BatchResults := do
  let venue ← get
  let results ←
    onBatch (BatchMatchingEngine.runBatch draw venue.pendingOrders)
  modify fun venue => { venue with pendingOrders := ∅ }
  return results

/-- `execute_batch`: only a batch phase has something to execute. -/
def executeBatch (draw : String → ℚ) : VenueM BatchResults := do
  let venue ← get
  if venue.currentPhaseState.executionStyle = .batch then
    runBatchEngine draw
  else
    return ∅

/-- The results of the auction are counted and dropped. -/
def executeOpeningAuction (draw : String → ℚ) : VenueM PUnit := do
  let _ ← runBatchEngine draw
  pure ⟨⟩

/-- Cancel one of the orders of a book at the end of the day. -/
def cancelAtClose (instrumentId : String) (order : Order) :
    VenueM PUnit := do
  let cancelled ←
    onMarket (Market.onBook instrumentId
      (OrderBook.cancelOrder order.orderId))
  match cancelled with
  | none => pure ⟨⟩
  | some _ =>
      modify fun venue =>
        { venue with
          allOrderIds := venue.allOrderIds.erase order.orderId }

/-- Cancel the orders of one book: first the bids, then the asks. -/
def cancelBook (instrumentId : String) : VenueM PUnit := do
  let venue ← get
  match venue.market.orderBooks.get? instrumentId with
  | none => throw (.keyError instrumentId)
  | some book => book.resting.forM (cancelAtClose instrumentId)

/--
`_cancel_all_orders`: every order book is emptied, one after the other;
collected orders are not looked at.
-/
def cancelAllOrders : VenueM PUnit := do
  let venue ← get
  venue.market.orderBooks.keys.forM cancelBook

/-- The action of a transition, if it has one. -/
def handleTransition (draw : String → ℚ) :
    PhaseType → PhaseType → VenueM PUnit
  | .preOpen, .openingAuction => executeOpeningAuction draw
  | .continuous, .closed => cancelAllOrders
  | _, _ => pure ⟨⟩

/-- Cache the observed phase state and act on a change of the phase. -/
def checkPhaseTransitions (observed : PhaseState) (draw : String → ℚ) :
    VenueM PUnit := do
  modify fun venue => { venue with currentPhaseState := observed }
  let venue ← get
  match venue.lastPhase with
  | none =>
      modify fun venue =>
        { venue with lastPhase := some observed.phaseType }
  | some last =>
      if last = observed.phaseType then
        pure ⟨⟩
      else do
        modify fun venue =>
          { venue with lastPhase := some observed.phaseType }
        handleTransition draw last observed.phaseType

end ExchangeVenue

end InternTradingGame
