import InternTradingGame.Exchange.VenueRuns
import Mathlib.Logic.Relation

/-!
# The calls of the venue, move by move

Whatever a call does to the books is a sequence of single moves: an order
object is created, an instrument is listed, two orders trade, the rest of an
order joins its book, a resting order is taken out.  This also holds of a
call which raises, which stops between two moves.

What every move keeps is therefore kept by every call.
-/

namespace InternTradingGame

open Effects

/-! ## Moves -/

/-- The market without one of the orders of a book. -/
def Market.takeOut (market : Market) (instrumentId : String)
    (book : OrderBook) (side : OrderSide) (order : Order) : Market :=
  market.withBook instrumentId
    ⟨market.heap, book.takeOut market.heap side order⟩

/-- One change of the market. -/
inductive MarketMove : Market → Market → Prop where
  | list {market : Market} {symbol : String}
      (absent : ¬ market.orderBooks.Contains symbol) :
      MarketMove market (market.listing symbol)
  | allocate {market : Market} {order : Order}
      (fresh : ∀ taken ∈ market.heap.orders,
        taken.orderId ≠ order.orderId) :
      MarketMove market (market.allocate order)
  | fill {market : Market} {order : Order} {book : OrderBook}
      {fill : Fill}
      (found : market.orderBooks.get? order.instrumentId = some book)
      (registered : order ∈ market.heap.orders)
      (absent : order.orderId ∉ book.orderIds)
      (next : fill.Next order ⟨market.heap, book⟩) :
      MarketMove market
        (market.withBook order.instrumentId
          (BookState.afterFill ⟨market.heap, book⟩ order fill))
  | rest {market : Market} {order : Order} {book : OrderBook}
      (found : market.orderBooks.get? order.instrumentId = some book)
      (registered : order ∈ market.heap.orders)
      (absent : order.orderId ∉ book.orderIds)
      (done : MatchingDone order ⟨market.heap, book⟩) :
      MarketMove market
        (market.withBook order.instrumentId
          (BookState.rest ⟨market.heap, book⟩ order))
  | pair {market : Market} {trade : Trade} {buyOrder sellOrder : Order}
      {book : OrderBook}
      (found : market.orderBooks.get? trade.instrumentId = some book)
      (buyTaken : buyOrder ∈ market.heap.orders)
      (sellTaken : sellOrder ∈ market.heap.orders)
      (between : TradeBetween trade buyOrder sellOrder)
      (different : buyOrder.orderId ≠ sellOrder.orderId)
      (quantity :
        trade.quantity =
          min (market.heap.remaining buyOrder)
            (market.heap.remaining sellOrder)) :
      MarketMove market
        (BatchMatchingEngine.settleTrade trade buyOrder sellOrder market)
  | takeOut {market : Market} {instrumentId : String} {book : OrderBook}
      {side : OrderSide} {order : Order}
      (found : market.orderBooks.get? instrumentId = some book)
      (onSide : order ∈ book.restingOn side) :
      MarketMove market (market.takeOut instrumentId book side order)

/-- Any number of moves. -/
abbrev MarketMoves : Market → Market → Prop :=
  Relation.ReflTransGen MarketMove

/-- A move keeps the shape of the market. -/
theorem MarketMove.shape {market next : Market}
    (move : MarketMove market next) (shape : MarketShape market) :
    MarketShape next := by
  cases move with
  | list absent => exact shape.listing _
  | allocate fresh => exact shape.allocate fresh
  | @fill order book fill found registered absent next =>
      have bookShape := shape.books _ book found
      exact (matched_market shape found registered
        ((Matched.refl order ⟨market.heap, book⟩).step bookShape absent
          next) rfl (next.shape bookShape) rfl
        (fun candidate member => Or.inr member)).1
  | @rest order book found registered absent done =>
      have bookShape := shape.books _ book found
      have instrument : order.instrumentId = book.instrumentId :=
        (shape.named _ book found).symm
      exact (matched_market shape found registered
        (Matched.refl order ⟨market.heap, book⟩) rest_heap
        (rest_shape bookShape absent done instrument) rest_instrumentId
        (fun candidate member =>
          mem_rest_resting bookShape instrument member)).1
  | pair found buyTaken sellTaken between different quantity =>
      exact (@settleTrade_traded (fun _ => True) _ _ _ _ _ shape found
        (fun _ _ => trivial) between different trivial trivial).1
  | takeOut found onSide =>
      exact (cancelledIn_of_cancelled shape found onSide
        (cancelled_takeOut (shape.books _ _ found) onSide)).shape

/-! ## What a move does to the heap -/

/-- A trade of what its two orders have left has been recorded. -/
structure Spends (trade : Trade) (before after : Heap) : Prop where
  recorded : after.trades = before.trades ++ [trade]
  orders : after.orders = before.orders
  accounts : ∀ orderId,
    after.remainingQuantity orderId =
      before.remainingQuantity orderId - tradedQuantity orderId [trade]
  enough : ∀ orderId, trade.Names orderId →
    trade.quantity ≤ before.remainingQuantity orderId

/-- The heap is left alone, gets an order or records a trade. -/
inductive HeapMove (before after : Heap) : Prop where
  | quiet (same : after = before)
  | allocate {order : Order}
      (fresh : ∀ taken ∈ before.orders, taken.orderId ≠ order.orderId)
      (equal : after = before.allocate order)
  | trade {trade : Trade} (spends : Spends trade before after)

/-- A trade of the smaller remaining quantity fits into both orders. -/
theorem enough_of_min {heap : Heap} {trade : Trade} {first second : Order}
    (names : ∀ orderId, trade.Names orderId ↔
      first.orderId = orderId ∨ second.orderId = orderId)
    (quantity :
      trade.quantity = min (heap.remaining first) (heap.remaining second)) :
    ∀ orderId, trade.Names orderId →
      trade.quantity ≤ heap.remainingQuantity orderId := by
  intro orderId named
  rcases (names orderId).mp named with rfl | rfl
  · exact quantity.trans_le (min_le_left _ _)
  · exact quantity.trans_le (min_le_right _ _)

theorem MarketMove.heap {market next : Market}
    (move : MarketMove market next) (shape : MarketShape market) :
    HeapMove market.heap next.heap := by
  cases move with
  | list absent => exact .quiet rfl
  | allocate fresh => exact .allocate fresh rfl
  | @fill order book fill found registered absent next =>
      have bookShape := shape.books _ book found
      exact .trade
        { recorded := rfl
          orders := rfl
          accounts := Matched.afterFill_accounts next bookShape absent
          enough := enough_of_min next.tradeOf.names_iff next.quantity }
  | @rest order book found registered absent done =>
      exact .quiet rest_heap
  | @pair trade buyOrder sellOrder book found buyTaken sellTaken between
      different quantity =>
      exact .trade
        { recorded := rfl
          orders := rfl
          accounts := settleTrade_accounts between different
          enough := enough_of_min between.names_iff quantity }
  | takeOut found onSide => exact .quiet rfl

/-- No order is filled beyond its quantity. -/
def Heap.Solvent (heap : Heap) : Prop :=
  ∀ order ∈ heap.orders, 0 ≤ heap.remaining order

theorem Heap.Solvent.move {before after : Heap}
    (solvent : before.Solvent) (move : HeapMove before after) :
    after.Solvent := by
  cases move with
  | quiet same => exact same ▸ solvent
  | @allocate order fresh equal =>
      subst equal
      intro other member
      rcases List.mem_append.mp member with old | new
      · rw [Heap.remaining_allocate_ne _ (fresh other old)]
        exact solvent other old
      · rw [List.mem_singleton.mp new, Heap.remaining_allocate_self]
        exact order.quantity_positive.le
  | @trade trade spends =>
      intro other member
      rw [spends.orders] at member
      rw [Heap.remaining, spends.accounts, tradedQuantity_singleton]
      split_ifs with names
      · exact sub_nonneg.mpr (spends.enough _ names)
      · rw [sub_zero]
        exact solvent other member

/-! ## Any number of moves -/

/-- What every move keeps holds after any number of moves. -/
theorem MarketMoves.keeps {market next : Market} (holds : Market → Prop)
    (kept : ∀ before after, MarketShape before → holds before →
      MarketMove before after → holds after)
    (shape : MarketShape market) (start : holds market)
    (moves : MarketMoves market next) : MarketShape next ∧ holds next := by
  induction moves with
  | refl => exact ⟨shape, start⟩
  | tail _ move induction =>
      exact ⟨move.shape induction.1,
        kept _ _ induction.1 induction.2 move⟩

/-! ## The engines -/

section Engines

variable {start market : Market} {order : Order} {book : OrderBook}

theorem Market.withBook_withBook (market : Market)
    (instrumentId : String) (first second : BookState) :
    (market.withBook instrumentId first).withBook instrumentId second =
      market.withBook instrumentId second := by
  simp only [Market.withBook, OrderedDict.set_set]

theorem Market.withBook_self {instrumentId : String}
    (found : market.orderBooks.get? instrumentId = some book) :
    market.withBook instrumentId ⟨market.heap, book⟩ = market := by
  simp only [Market.withBook, OrderedDict.set_of_get? found]

/-- Adding an order to its book is a sequence of moves. -/
theorem onBook_addOrder_moves (shape : MarketShape market)
    (found : market.orderBooks.get? order.instrumentId = some book)
    (registered : order ∈ market.heap.orders) :
    Ends
      (Market.onBook order.instrumentId (OrderBook.addOrder order)) market
      (fun _ after => MarketMoves market after)
      (fun _ after => MarketMoves market after) := by
  apply Market.onBook_ends found
  refine
    (addOrder_ends
      (fun _ state =>
        MarketMoves market (market.withBook order.instrumentId state))
      (shape.books _ book found) ?_ ?_).mono ?_ ?_
  · intro trades state fill matched _ absent moves next
    have move : MarketMove
        (market.withBook order.instrumentId state) _ :=
      .fill (Market.withBook_get?_self ..)
        (matched.orders.symm ▸ registered) absent next
    rw [Market.withBook_withBook] at move
    exact moves.tail move
  · intro _
    rw [Market.withBook_self found]
  · rintro trades _ ⟨_, state, rfl, matched, moves, _, absent, done⟩
    have move : MarketMove
        (market.withBook order.instrumentId state) _ :=
      .rest (Market.withBook_get?_self ..)
        (matched.orders.symm ▸ registered) absent done
    rw [Market.withBook_withBook] at move
    exact moves.tail move
  · rintro exception state (⟨rfl, _⟩ | ⟨_, _, _, trades, _, moves⟩)
    · rw [Market.withBook_self found]
    · exact moves

theorem continuous_submitOrder_moves (shape : MarketShape market)
    (found : market.orderBooks.get? order.instrumentId = some book)
    (registered : order ∈ market.heap.orders) :
    Ends (ContinuousMatchingEngine.submitOrder order) market
      (fun _ after => MarketMoves market after)
      (fun _ after => MarketMoves market after) := by
  rw [ContinuousMatchingEngine.submitOrder]
  apply (onBook_addOrder_moves shape found registered).bind
  intro trades after moves
  exact moves

/-- The steps of a batch are moves. -/
theorem batchKeeps_moves : BatchKeeps (MarketMoves start) where
  pair := by
    intro market trade buyOrder sellOrder book _ moves found buyTaken
      sellTaken between different quantity
    exact moves.tail
      (.pair found buyTaken sellTaken between different quantity)
  add := by
    intro market order book shape moves found registered
    exact (onBook_addOrder_moves shape found registered).mono
      (fun _ _ more => moves.trans more)
      (fun _ _ more => moves.trans more)

end Engines

/-! ## The venue -/

section Venue

variable {venue next : ExchangeVenue}

/-- What a call has done so far is a sequence of moves. -/
def Moved (start : Market) (venue : ExchangeVenue) : Prop :=
  VenueShape venue ∧ MarketMoves start venue.market

theorem Takes.moved {order : Order} (takes : Takes venue order)
    (shape : VenueShape venue) :
    Moved venue.market (venue.register order) :=
  ⟨register_shape shape takes.fresh, .single (.allocate takes.fresh)⟩

/-- The market of a submission which has reached the continuous engine. -/
theorem Takes.engine_moves {order : Order} (takes : Takes venue order)
    (shape : VenueShape venue) :
    Ends (ContinuousMatchingEngine.submitOrder order)
      (venue.register order).market
      (fun _ after => MarketMoves venue.market after)
      (fun _ after => MarketMoves venue.market after) := by
  rcases (OrderedDict.contains_iff_exists _ _).mp takes.listed with
    ⟨book, found⟩
  have moved := takes.moved shape
  exact (continuous_submitOrder_moves moved.1.market found
    registered_mem).mono
    (fun _ _ more => moved.2.trans more)
    (fun _ _ more => moved.2.trans more)

theorem SubmitReturns.moves {order : Order} {result : OrderResult}
    (shape : VenueShape venue)
    (returns : SubmitReturns venue order result next) :
    MarketMoves venue.market next.market := by
  cases returns with
  | refused _ => exact .refl
  | collected takes _ => exact (takes.moved shape).2
  | matched takes _ evaluates _ _ _ _ =>
      exact (takes.engine_moves shape).elim_ok evaluates

theorem SubmitRaises.moves {order : Order} (shape : VenueShape venue)
    (raises : SubmitRaises venue order next) :
    MarketMoves venue.market next.market := by
  cases raises with
  | refused => exact .refl
  | matched takes _ evaluates _ =>
      exact (takes.engine_moves shape).elim_error evaluates

theorem TakenOut.moves {order : Order}
    (taken : TakenOut venue order next) :
    MarketMoves venue.market next.market := by
  rcases taken.takes with ⟨instrumentId, book, side, found, onSide, rfl⟩
  exact .single (.takeOut found onSide)

theorem runBatchEngine_moves (shape : VenueShape venue)
    (draw : String → ℚ) :
    Ends (ExchangeVenue.runBatchEngine draw) venue
      (fun _ next => MarketMoves venue.market next.market)
      (fun _ next => MarketMoves venue.market next.market) := by
  have batch := runBatch_kept shape draw
    (@batchKeeps_moves venue.market) .refl
  have applied := runBatchEngine_apply venue draw
  cases evaluated : BatchMatchingEngine.runBatch draw
      venue.pendingOrders { market := venue.market, results := ∅ } with
  | ok results context =>
      rw [evaluated] at applied
      exact Ends.of_ok applied (batch.elim_ok evaluated).2
  | error exception context =>
      rw [evaluated] at applied
      exact Ends.of_error applied (batch.elim_error evaluated).2

theorem executeOpeningAuction_moves (shape : VenueShape venue)
    (draw : String → ℚ) :
    Ends (ExchangeVenue.executeOpeningAuction draw) venue
      (fun _ next => MarketMoves venue.market next.market)
      (fun _ next => MarketMoves venue.market next.market) := by
  rw [ExchangeVenue.executeOpeningAuction]
  apply (runBatchEngine_moves shape draw).bind
  intro results next moves
  exact moves

theorem executeBatch_moves (shape : VenueShape venue)
    (draw : String → ℚ) :
    Ends (ExchangeVenue.executeBatch draw) venue
      (fun _ next => MarketMoves venue.market next.market)
      (fun _ next => MarketMoves venue.market next.market) := by
  rw [ExchangeVenue.executeBatch, ends_get_bind]
  by_cases batch : venue.currentPhaseState.executionStyle = .batch
  · rw [if_pos batch]
    exact runBatchEngine_moves shape draw
  · rw [if_neg batch]
    exact Relation.ReflTransGen.refl

/-- Cancelling one order of a book at the close is a move or nothing. -/
theorem cancelAtClose_moved (start : Market) (instrumentId : String)
    (order : Order) :
    Keeps (Moved start)
      (ExchangeVenue.cancelAtClose instrumentId order) := by
  rintro venue ⟨shape, moves⟩
  cases found : venue.market.orderBooks.get? instrumentId with
  | none =>
      have raises : ExchangeVenue.onMarket
          (Market.onBook instrumentId
            (OrderBook.cancelOrder order.orderId)) venue =
          .error (.keyError instrumentId) venue := by
        apply zoom_error
        simp only [Market.onBook, bind_apply, get_apply, found,
          throw_apply]
      exact Ends.bind_error raises ⟨shape, moves⟩
  | some book =>
      have bookShape := shape.market.books _ book found
      by_cases rests : ∃ other ∈ book.resting,
          other.orderId = order.orderId
      · rcases rests with ⟨other, member, sameId⟩
        rcases OrderBook.exists_side member with ⟨side, onSide⟩
        have zoomed : ExchangeVenue.onMarket
            (Market.onBook instrumentId
              (OrderBook.cancelOrder order.orderId)) venue = _ :=
          zoom_ok (Market.onBook_ok found
            (sameId ▸ @cancelOrder_takesOut ⟨venue.market.heap, book⟩ _ _
              bookShape onSide))
        have taken : TakenOut venue other _ :=
          ⟨instrumentId, book, side, found, onSide, rfl⟩
        apply Ends.bind_ok zoomed
        rw [ends_modify, ← sameId]
        exact ⟨((taken.cancelled shape).advances shape).1,
          moves.trans taken.moves⟩
      · rcases onBook_cancelOrder_cases shape.market found
            order.orderId with
          ⟨side, other, _, onSide, sameId, _, _⟩ | ⟨_, evaluates⟩
        · exact absurd
            ⟨other, OrderBook.mem_resting_of_mem onSide, sameId⟩ rests
        · have zoomed : ExchangeVenue.onMarket
              (Market.onBook instrumentId
                (OrderBook.cancelOrder order.orderId)) venue =
              .ok none venue := zoom_ok evaluates
          exact Ends.bind_ok zoomed ⟨shape, moves⟩

theorem cancelBook_moved (start : Market) (instrumentId : String) :
    Keeps (Moved start) (ExchangeVenue.cancelBook instrumentId) := by
  intro venue moved
  rw [ExchangeVenue.cancelBook, ends_get_bind]
  cases found : venue.market.orderBooks.get? instrumentId with
  | none => exact moved
  | some book =>
      exact Keeps.forM
        (fun order _ => cancelAtClose_moved start instrumentId order)
        venue moved

theorem cancelAllOrders_moved (start : Market) :
    Keeps (Moved start) ExchangeVenue.cancelAllOrders := by
  intro venue moved
  rw [ExchangeVenue.cancelAllOrders, ends_get_bind]
  exact Keeps.forM
    (fun instrumentId _ => cancelBook_moved start instrumentId)
    venue moved

theorem handleTransition_moves (shape : VenueShape venue)
    (draw : String → ℚ) (previous current : PhaseType) :
    Ends (ExchangeVenue.handleTransition draw previous current) venue
      (fun _ next => MarketMoves venue.market next.market)
      (fun _ next => MarketMoves venue.market next.market) := by
  have auction := executeOpeningAuction_moves shape draw
  have close := (cancelAllOrders_moved venue.market venue
    ⟨shape, .refl⟩).mono (fun _ _ moved => moved.2)
    (fun _ _ moved => moved.2)
  have nothing : MarketMoves venue.market venue.market := .refl
  cases previous <;> cases current <;>
    first
      | exact nothing
      | exact auction
      | exact close

theorem checkPhaseTransitions_moves (shape : VenueShape venue)
    (observed : PhaseState) (draw : String → ℚ) :
    Ends (ExchangeVenue.checkPhaseTransitions observed draw) venue
      (fun _ next => MarketMoves venue.market next.market)
      (fun _ next => MarketMoves venue.market next.market) := by
  have nothing : MarketMoves venue.market
      (venue.observing observed).market := .refl
  have evaluated := checkPhaseTransitions_apply venue observed draw
  cases last : venue.lastPhase with
  | none =>
      rw [last] at evaluated
      exact Ends.of_ok evaluated nothing
  | some previous =>
      rw [last] at evaluated
      by_cases same : previous = observed.phaseType
      · simp only [if_pos same] at evaluated
        exact Ends.of_ok evaluated nothing
      · simp only [if_neg same] at evaluated
        apply Ends.of_eq evaluated
        exact handleTransition_moves (observing_shape shape observed)
          draw previous observed.phaseType

/-- Every call is a sequence of moves, whether it returns or raises. -/
theorem venueStep_moves {call : VenueCall} (shape : VenueShape venue)
    (step : VenueStep venue call next) :
    MarketMoves venue.market next.market := by
  rcases step with ⟨allowed, rfl⟩
  cases call with
  | listInstrument instrument =>
      rw [VenueCall.execute, listInstrument_apply]
      by_cases known : venue.instruments.Contains instrument.symbol
      · rw [if_pos known]
        exact .refl
      · rw [if_neg known]
        exact .single
          (.list fun contains => known (shape.instruments _ contains))
  | submitOrder order =>
      have ends := (submitOrder_ends shape allowed).mono
        (fun _ _ returns => returns.moves shape)
        (fun _ _ raises => raises.moves shape)
      exact finalState_of_ends ends
  | cancelOrder orderId traderId =>
      rw [VenueCall.execute]
      rcases cancelOrder_evaluates shape.market.ownBooks orderId
          traderId with
        ⟨order, next, _, evaluates, taken⟩ |
          ⟨_, evaluates | ⟨message, evaluates⟩⟩
      · rw [evaluates]
        exact taken.moves
      · rw [evaluates]
        exact .refl
      · rw [evaluates]
        exact .refl
  | executeBatch draw =>
      exact finalState_of_ends (executeBatch_moves shape draw)
  | executeOpeningAuction draw =>
      exact finalState_of_ends (executeOpeningAuction_moves shape draw)
  | cancelAllOrders =>
      exact ((cancelAllOrders_moved venue.market).finalState
        ⟨shape, .refl⟩).2
  | checkPhaseTransitions observed draw =>
      exact finalState_of_ends
        (checkPhaseTransitions_moves shape observed draw)

end Venue

end InternTradingGame
