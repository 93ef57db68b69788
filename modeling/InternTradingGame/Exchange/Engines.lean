import InternTradingGame.Exchange.MatchingEngine

/-!
# What the engines do to the market

Whatever the quantities are, both engines keep the shape of the market and
only make trades between the orders they were given and the orders which
rest.  This also holds of the market an exception leaves behind.
-/

namespace InternTradingGame

open Effects

/-! ## Adding and cancelling an order in one book -/

section OneBook

variable {market : Market} {order : Order} {book : OrderBook}
  {instrumentId : String}

/-- An outcome of an operation on the market. -/
def Traded (parties : Order → Prop) (before after : Market) : Prop :=
  MarketShape after ∧ ∃ made, Trading parties before made after

theorem Traded.refl {parties : Order → Prop} (shape : MarketShape market)
    (rests : ∀ candidate, market.Rests candidate → parties candidate) :
    Traded parties market market :=
  ⟨shape, [], Trading.refl rests⟩

/-- What has been traded so far and what is traded next. -/
theorem Traded.next {parties : Order → Prop}
    {before middle after : Market} {made : List Trade}
    (traded : Traded parties before middle)
    (shape : MarketShape after)
    (trading : Trading parties middle made after) :
    Traded parties before after := by
  rcases traded with ⟨_, earlier, sofar⟩
  exact ⟨shape, earlier ++ made, sofar.trans trading⟩

theorem matched_market (shape : MarketShape market)
    (found : market.orderBooks.get? order.instrumentId = some book)
    (registered : order ∈ market.heap.orders) {trades : List Trade}
    {part final : BookState}
    (changes : Matched order ⟨market.heap, book⟩ trades part)
    (heap : final.heap = part.heap)
    (bookShape : BookShape final.book)
    (named : final.book.instrumentId = part.book.instrumentId)
    (rests : ∀ candidate ∈ final.book.resting,
      candidate = order ∨ candidate ∈ part.book.resting) :
    MarketShape (market.withBook order.instrumentId final) ∧
      Trading (AddParties market order) market trades
        (market.withBook order.instrumentId final) := by
  constructor
  · apply shape.withBook bookShape
    · rw [named, changes.instrument]
      exact shape.named _ book found
    · rw [heap]
      exact changes.orders
    · intro candidate member
      rcases rests candidate member with equal | inPart
      · exact equal ▸ registered
      · exact shape.registered candidate
          ⟨_, book, found, changes.resting_subset inPart⟩
  · exact trading_of_matched shape found rfl changes heap rests

/-- Adding an order to its book, however the call ends. -/
theorem onBook_addOrder_ends (shape : MarketShape market)
    (found : market.orderBooks.get? order.instrumentId = some book)
    (registered : order ∈ market.heap.orders) :
    Ends
      (Market.onBook order.instrumentId (OrderBook.addOrder order)) market
      (fun trades after =>
        MarketShape after ∧
          Trading (AddParties market order) market trades after)
      (fun _ after => Traded (AddParties market order) market after) := by
  have bookShape := shape.books _ book found
  apply Market.onBook_ends found
  refine
    (addOrder_ends (fun _ _ => True) bookShape
      (fun _ _ _ _ _ _ _ _ => trivial) (fun _ => trivial)).mono ?_ ?_
  · rintro trades part
      ⟨addable, matched, rfl, changes, _, matchedShape, absent, done⟩
    have instrument :
        order.instrumentId = matched.book.instrumentId :=
      addable.instrument.trans changes.instrument.symm
    exact matched_market shape found registered changes rest_heap
      (rest_shape matchedShape absent done instrument)
      rest_instrumentId
      (fun candidate member =>
        mem_rest_resting matchedShape instrument member)
  · rintro exception part
      (⟨rfl, _⟩ | ⟨_, partShape, _, trades, changes, _⟩)
    · have both := matched_market shape found registered
        (Matched.refl order ⟨market.heap, book⟩) rfl bookShape rfl
        (fun candidate member => Or.inr member)
      exact ⟨both.1, _, both.2⟩
    · have both := matched_market shape found registered changes rfl
        partShape rfl (fun candidate member => Or.inr member)
      exact ⟨both.1, _, both.2⟩

/-- The market without one resting order. -/
structure CancelledIn (market : Market) (order : Order)
    (after : Market) : Prop where
  shape : MarketShape after
  heap : after.heap = market.heap
  keys : after.orderBooks.keys = market.orderBooks.keys
  rests : ∀ candidate, after.Rests candidate ↔
    market.Rests candidate ∧ candidate.orderId ≠ order.orderId
  quantities : market.Quantities → after.Quantities

theorem cancelledIn_of_cancelled (shape : MarketShape market)
    (found : market.orderBooks.get? instrumentId = some book)
    {side : OrderSide} {part : BookState}
    (member : order ∈ book.restingOn side)
    (cancelled : Cancelled side order ⟨market.heap, book⟩ part) :
    CancelledIn market order (market.withBook instrumentId part) := by
  have bookShape := shape.books _ book found
  have resting := OrderBook.mem_resting_of_mem member
  constructor
  · apply shape.withBook (cancelled.removed.keeps bookShape)
    · exact cancelled.removed.instrument.trans
        (shape.named _ book found)
    · exact congrArg Heap.orders cancelled.heap
    · intro candidate inPart
      exact shape.registered candidate
        ⟨_, book, found,
          cancelled.removed.mem_resting_iff.mpr (Or.inr inPart)⟩
  · exact cancelled.heap
  · exact Market.withBook_keys part found
  · intro candidate
    constructor
    · intro rests
      rcases Market.rests_withBook rests with
        inPart | ⟨other, otherBook, different, otherFound, inOther⟩
      · have facts :=
          (cancelled.removed.mem_changed_iff bookShape).mp inPart
        exact ⟨⟨_, book, found, facts.1⟩, facts.2⟩
      · refine ⟨⟨other, otherBook, otherFound, inOther⟩, ?_⟩
        intro equal
        have same : candidate = order :=
          shape.eq_of_orderId_eq
            (shape.registered _ ⟨other, otherBook, otherFound, inOther⟩)
            (shape.registered _ ⟨_, book, found, resting⟩) equal
        apply different
        rw [← shape.instrument_of_rests otherFound inOther, same]
        exact shape.instrument_of_rests found resting
    · rintro ⟨⟨other, otherBook, otherFound, inOther⟩, differentId⟩
      by_cases same : other = instrumentId
      · subst same
        rcases Option.some.inj (otherFound.symm.trans found) with rfl
        exact ⟨other, part.book, Market.withBook_get?_self ..,
          (cancelled.removed.mem_changed_iff bookShape).mpr
            ⟨inOther, differentId⟩⟩
      · refine ⟨other, otherBook, ?_, inOther⟩
        rw [Market.withBook_get?_ne _ _ same]
        exact otherFound
  · intro quantities other otherBook otherFound
    by_cases same : other = instrumentId
    · rw [same, Market.withBook_get?_self] at otherFound
      rcases Option.some.inj otherFound with rfl
      exact (cancelled.keeps
        ⟨bookShape, quantities _ _ found⟩).quantities
    · rw [Market.withBook_get?_ne _ _ same] at otherFound
      change BookQuantities ⟨part.heap, otherBook⟩
      rw [cancelled.heap]
      exact quantities _ _ otherFound

/-- Cancelling in one book finds exactly the orders resting there. -/
theorem onBook_cancelOrder_cases (shape : MarketShape market)
    (found : market.orderBooks.get? instrumentId = some book)
    (orderId : String) :
    (∃ side order part, order ∈ book.restingOn side ∧
        order.orderId = orderId ∧
        Market.onBook instrumentId (OrderBook.cancelOrder orderId)
            market =
          .ok (some order) (market.withBook instrumentId part) ∧
        Cancelled side order ⟨market.heap, book⟩ part) ∨
      (∀ order ∈ book.resting, order.orderId ≠ orderId) ∧
        Market.onBook instrumentId (OrderBook.cancelOrder orderId)
            market = .ok none market := by
  have cases :=
    @cancelOrder_cases ⟨market.heap, book⟩
      (shape.books _ book found) orderId
  rcases cases with
    ⟨side, order, part, member, equal, evaluates, cancelled⟩ |
      ⟨missing, evaluates⟩
  · exact Or.inl
      ⟨side, order, part, member, equal,
        Market.onBook_ok found evaluates, cancelled⟩
  · refine Or.inr ⟨missing, ?_⟩
    rw [Market.onBook_ok found evaluates]
    simp only [Market.withBook, OrderedDict.set_of_get? found]

end OneBook

/-! ## The continuous engine -/

/-- The continuous engine returns the trades it has made as fills. -/
theorem continuous_submitOrder_ends {market : Market} {order : Order}
    {book : OrderBook} (shape : MarketShape market)
    (found : market.orderBooks.get? order.instrumentId = some book)
    (registered : order ∈ market.heap.orders) :
    Ends (ContinuousMatchingEngine.submitOrder order) market
      (fun result after =>
        result.orderId = order.orderId ∧
          result.status ≠ .rejected ∧ MarketShape after ∧
          Trading (AddParties market order) market result.fills after)
      (fun _ after => Traded (AddParties market order) market after) := by
  rw [ContinuousMatchingEngine.submitOrder]
  apply (onBook_addOrder_ends shape found registered).bind
  rintro trades after ⟨afterShape, trading⟩
  rw [ends_get_bind, ends_pure]
  refine ⟨rfl, ?_, afterShape, trading⟩
  split_ifs <;> simp

/-! ## The batch engine -/

section Batch

variable {parties : Order → Prop} {start : Market}

/-- What a batch keeps: it has only traded orders of the set so far. -/
def BatchTraded (parties : Order → Prop) (start : Market)
    (context : BatchContext) : Prop :=
  Traded parties start context.market

theorem BatchTraded.registered {context : BatchContext} {order : Order}
    (traded : BatchTraded parties start context)
    (known : ∀ order, parties order → order ∈ start.heap.orders)
    (party : parties order) :
    order ∈ context.market.heap.orders := by
  rcases traded with ⟨_, made, trading⟩
  rw [trading.orders]
  exact known order party

theorem appendTrade_sameShape (book : OrderBook) (trade : Trade) :
    SameShape book (book.appendTrade trade) where
  instrument := OrderBook.appendTrade_instrumentId ..
  levels side := by rw [OrderBook.levels_appendTrade]
  ids := OrderBook.appendTrade_orderIds ..
  map := OrderBook.appendTrade_orderPriceMap ..

/-- The market once a pair has traded, book by book. -/
theorem settleTrade_eq {market : Market} {trade : Trade}
    {buyOrder sellOrder : Order} {book : OrderBook}
    (found :
      market.orderBooks.get? trade.instrumentId = some book) :
    BatchMatchingEngine.settleTrade trade buyOrder sellOrder market =
      market.withBook trade.instrumentId
        { heap :=
            (BatchMatchingEngine.settleTrade trade buyOrder sellOrder
              market).heap
          book := book.appendTrade trade } := by
  simp only [BatchMatchingEngine.settleTrade, found, Market.withBook]

theorem settleTrade_accounts {market : Market} {trade : Trade}
    {buyOrder sellOrder : Order}
    (between : TradeBetween trade buyOrder sellOrder)
    (different : buyOrder.orderId ≠ sellOrder.orderId)
    (orderId : String) :
    (BatchMatchingEngine.settleTrade trade buyOrder sellOrder
        market).heap.remainingQuantity orderId =
      market.heap.remainingQuantity orderId -
        tradedQuantity orderId [trade] := by
  rw [tradedQuantity_singleton]
  simp only [between.names_iff]
  by_cases isSell : orderId = sellOrder.orderId
  · subst isSell
    rw [if_pos (Or.inr rfl)]
    exact
      (Heap.remainingQuantity_setRemaining_self ..).trans
        (congrArg (· - trade.quantity)
          (Heap.remainingQuantity_setRemaining_ne _ _ different.symm))
  · refine (Heap.remainingQuantity_setRemaining_ne _ _ isSell).trans ?_
    by_cases isBuy : orderId = buyOrder.orderId
    · subst isBuy
      rw [if_pos (Or.inl rfl)]
      exact Heap.remainingQuantity_setRemaining_self ..
    · rw [if_neg (not_or.mpr ⟨Ne.symm isBuy, Ne.symm isSell⟩), sub_zero]
      exact Heap.remainingQuantity_setRemaining_ne _ _ isBuy

/-- The trade of a crossing pair is one within both limits. -/
theorem createTrade_between {buyOrder sellOrder : Order} {bid ask : ℚ}
    {quantity : ℚ} {trade : Trade}
    (buySide : buyOrder.side = .buy) (sellSide : sellOrder.side = .sell)
    (instrument : sellOrder.instrumentId = buyOrder.instrumentId)
    (bidPriced : buyOrder.price = some bid)
    (askPriced : sellOrder.price = some ask) (crosses : ask ≤ bid)
    (created :
      BatchMatchingEngine.createTrade buyOrder sellOrder quantity =
        .ok trade) :
    TradeBetween trade buyOrder sellOrder ∧
      trade.quantity = quantity := by
  simp only [BatchMatchingEngine.createTrade, askPriced] at created
  have described := Trade.new_ok created
  refine ⟨?_, described.forQuantity⟩
  exact
    { buySide, sellSide
      buyerOrder := described.buyerOrder
      sellerOrder := described.sellerOrder
      buyer := described.buyer
      seller := described.seller
      buyInstrument := described.instrument
      sellInstrument := described.instrument.trans instrument.symm
      buyLimit := by
        intro limit member
        rw [described.atPrice]
        exact crosses.trans
          (Option.some.inj (Eq.trans (Eq.symm bidPriced) member)).le
      sellLimit := by
        intro limit member
        rw [described.atPrice]
        exact
          (Option.some.inj (Eq.trans (Eq.symm member) askPriced)).le }

/-- The same orders rest once a pair has traded. -/
theorem settleTrade_rests {market : Market} {trade : Trade}
    {buyOrder sellOrder : Order} {book : OrderBook}
    (found :
      market.orderBooks.get? trade.instrumentId = some book)
    {candidate : Order}
    (rests :
      (BatchMatchingEngine.settleTrade trade buyOrder sellOrder
        market).Rests candidate) :
    market.Rests candidate := by
  rw [settleTrade_eq found] at rests
  rcases Market.rests_withBook rests with
    inBook | ⟨other, otherBook, _, otherFound, member⟩
  · rw [(appendTrade_sameShape book trade).resting] at inBook
    exact ⟨_, book, found, inBook⟩
  · exact ⟨other, otherBook, otherFound, member⟩

/-- A pair of the set trades within the set. -/
theorem settleTrade_traded {market : Market} {trade : Trade}
    {buyOrder sellOrder : Order} {book : OrderBook}
    (shape : MarketShape market)
    (found :
      market.orderBooks.get? trade.instrumentId = some book)
    (rests : ∀ candidate, market.Rests candidate → parties candidate)
    (between : TradeBetween trade buyOrder sellOrder)
    (different : buyOrder.orderId ≠ sellOrder.orderId)
    (buyParty : parties buyOrder) (sellParty : parties sellOrder) :
    MarketShape
        (BatchMatchingEngine.settleTrade trade buyOrder sellOrder
          market) ∧
      Trading parties market [trade]
        (BatchMatchingEngine.settleTrade trade buyOrder sellOrder
          market) := by
  have same := appendTrade_sameShape book trade
  have bookShape := shape.books _ book found
  have equal :=
    @settleTrade_eq market trade buyOrder sellOrder book found
  constructor
  · rw [equal]
    apply shape.withBook (same.keeps bookShape)
    · exact same.instrument.trans (shape.named _ book found)
    · rfl
    · intro candidate member
      rw [same.resting] at member
      exact shape.registered candidate ⟨_, book, found, member⟩
  · exact
      { orders := rfl
        recorded := rfl
        accounts := settleTrade_accounts between different
        between := by
          intro other member
          rcases List.mem_singleton.mp member with rfl
          exact ⟨buyOrder, sellOrder, buyParty, sellParty, between⟩
        rests := fun candidate candidateRests =>
          rests candidate (settleTrade_rests found candidateRests)
        keys := by
          rw [equal]
          exact Market.withBook_keys _ found }

@[simp]
theorem recordTrade_market (context : BatchContext) (trade : Trade)
    (buyOrder sellOrder : Order) :
    (BatchMatchingEngine.recordTrade trade buyOrder sellOrder
        context).market =
      BatchMatchingEngine.settleTrade trade buyOrder sellOrder
        context.market :=
  rfl

/-! ### The rule of the pairing loop -/

/-- Two limit orders whose prices cross. -/
def Crosses (buyOrder sellOrder : Order) : Prop :=
  ∃ bid ask, buyOrder.price = some bid ∧ sellOrder.price = some ask ∧
    ask ≤ bid

/-- The trade the pairing loop tries to make. -/
def pairTrade (buyOrder sellOrder : Order) (market : Market) :
    Except PyError Trade :=
  BatchMatchingEngine.createTrade buyOrder sellOrder
    (min (market.heap.remaining buyOrder)
      (market.heap.remaining sellOrder))

/-- An order stays at the head of its queue while it is not filled. -/
def unlessFilled (order : Order) (rest : List Order) (heap : Heap) :
    List Order :=
  if order.IsFilled heap then rest else order :: rest

theorem unlessFilled_subset (order : Order) (rest : List Order)
    (heap : Heap) : unlessFilled order rest heap ⊆ order :: rest := by
  unfold unlessFilled
  split_ifs
  · exact List.subset_cons_self _ _
  · exact List.Subset.refl _

/-- When one of the two is filled the queues get shorter. -/
theorem unlessFilled_length {buyOrder sellOrder : Order}
    {buyOrders sellOrders : List Order} {heap : Heap} {bound : Nat}
    (fills : buyOrder.IsFilled heap ∨ sellOrder.IsFilled heap)
    (enough :
      (buyOrder :: buyOrders).length + (sellOrder :: sellOrders).length <
        bound + 1) :
    (unlessFilled buyOrder buyOrders heap).length +
        (unlessFilled sellOrder sellOrders heap).length <
      bound := by
  simp only [List.length_cons] at enough
  unfold unlessFilled
  split_ifs with buyFilled sellFilled sellFilled
  · omega
  · simp only [List.length_cons]
    omega
  · simp only [List.length_cons]
    omega
  · rcases fills with filled | filled
    · exact absurd filled buyFilled
    · exact absurd filled sellFilled

theorem pairTrade_quantity {buyOrder sellOrder : Order}
    {market : Market} {trade : Trade}
    (crosses : Crosses buyOrder sellOrder)
    (created : pairTrade buyOrder sellOrder market = .ok trade) :
    trade.quantity =
      min (market.heap.remaining buyOrder)
        (market.heap.remaining sellOrder) := by
  rcases crosses with ⟨bid, ask, _, askPriced, _⟩
  simp only [pairTrade, BatchMatchingEngine.createTrade,
    askPriced] at created
  exact (Trade.new_ok created).forQuantity

theorem settleTrade_remaining_sell {market : Market} {trade : Trade}
    {buyOrder sellOrder : Order}
    (different : buyOrder.orderId ≠ sellOrder.orderId) :
    (BatchMatchingEngine.settleTrade trade buyOrder sellOrder
        market).heap.remaining sellOrder =
      market.heap.remaining sellOrder - trade.quantity :=
  (Heap.remaining_setRemaining_self ..).trans
    (congrArg (· - trade.quantity)
      (Heap.remaining_setRemaining_ne _ _ different.symm))

theorem settleTrade_remaining_buy {market : Market} {trade : Trade}
    {buyOrder sellOrder : Order}
    (different : buyOrder.orderId ≠ sellOrder.orderId) :
    (BatchMatchingEngine.settleTrade trade buyOrder sellOrder
        market).heap.remaining buyOrder =
      market.heap.remaining buyOrder - trade.quantity :=
  (Heap.remaining_setRemaining_ne _ _ different).trans
    (Heap.remaining_setRemaining_self ..)

/-- A trade of a pair fills one of its orders. -/
theorem settleTrade_fills {market : Market} {trade : Trade}
    {buyOrder sellOrder : Order}
    (different : buyOrder.orderId ≠ sellOrder.orderId)
    (quantity :
      trade.quantity =
        min (market.heap.remaining buyOrder)
          (market.heap.remaining sellOrder)) :
    buyOrder.IsFilled
        (BatchMatchingEngine.settleTrade trade buyOrder sellOrder
          market).heap ∨
      sellOrder.IsFilled
        (BatchMatchingEngine.settleTrade trade buyOrder sellOrder
          market).heap := by
  rw [Order.IsFilled, Order.IsFilled,
    settleTrade_remaining_buy different,
    settleTrade_remaining_sell different, quantity]
  rcases min_choice (market.heap.remaining buyOrder)
      (market.heap.remaining sellOrder) with equal | equal
  · exact Or.inl (by rw [equal, sub_self])
  · exact Or.inr (by rw [equal, sub_self])

/-- The pairing loop ends with these queues. -/
def PairingDone (left : List Order × List Order) : Prop :=
  left.1 = [] ∨ left.2 = [] ∨
    ∃ buyOrder buyOrders sellOrder sellOrders,
      left = (buyOrder :: buyOrders, sellOrder :: sellOrders) ∧
        ¬ Crosses buyOrder sellOrder

/--
What one trade of a pair keeps holds when the loop ends.  The invariant may
mention the two queues.
-/
theorem pairOrders_ends
    (invariant : List Order → List Order → BatchContext → Prop)
    (apart : ∀ buyOrder buyOrders sellOrder sellOrders context,
      invariant (buyOrder :: buyOrders) (sellOrder :: sellOrders)
        context → buyOrder.orderId ≠ sellOrder.orderId)
    (keeps : ∀ buyOrder buyOrders sellOrder sellOrders context trade,
      invariant (buyOrder :: buyOrders) (sellOrder :: sellOrders)
        context →
      Crosses buyOrder sellOrder →
      pairTrade buyOrder sellOrder context.market = .ok trade →
        invariant
          (unlessFilled buyOrder buyOrders
            (BatchMatchingEngine.settleTrade trade buyOrder sellOrder
              context.market).heap)
          (unlessFilled sellOrder sellOrders
            (BatchMatchingEngine.settleTrade trade buyOrder sellOrder
              context.market).heap)
          (BatchMatchingEngine.recordTrade trade buyOrder sellOrder
            context))
    (iterations : Nat) (buyOrders sellOrders : List Order)
    (context : BatchContext)
    (holds : invariant buyOrders sellOrders context)
    (enough : buyOrders.length + sellOrders.length < iterations) :
    Ends
      (BatchMatchingEngine.pairOrders iterations buyOrders sellOrders)
      context
      (fun left reached =>
        invariant left.1 left.2 reached ∧ PairingDone left)
      (fun exception reached =>
        ∃ buyOrder buyOrders sellOrder sellOrders,
          invariant (buyOrder :: buyOrders) (sellOrder :: sellOrders)
              reached ∧
            Crosses buyOrder sellOrder ∧
            pairTrade buyOrder sellOrder reached.market =
              .error exception) := by
  induction iterations generalizing buyOrders sellOrders context with
  | zero => exact absurd enough (Nat.not_lt_zero _)
  | succ iterations induction =>
      match buyOrders, sellOrders with
      | [], _ => exact ⟨holds, Or.inl rfl⟩
      | _ :: _, [] => exact ⟨holds, Or.inr (Or.inl rfl)⟩
      | buyOrder :: otherBuys, sellOrder :: otherSells =>
          have stops : ¬ Crosses buyOrder sellOrder →
              invariant (buyOrder :: otherBuys)
                  (sellOrder :: otherSells) context ∧
                PairingDone
                  (buyOrder :: otherBuys, sellOrder :: otherSells) :=
            fun none =>
              ⟨holds, Or.inr (Or.inr ⟨_, _, _, _, rfl, none⟩)⟩
          rw [BatchMatchingEngine.pairOrders]
          cases bidPriced : buyOrder.price with
          | none =>
              apply stops
              rintro ⟨bid, ask, priced, _⟩
              exact Option.some_ne_none bid
                (priced.symm.trans bidPriced)
          | some bid =>
              cases askPriced : sellOrder.price with
              | none =>
                  apply stops
                  rintro ⟨_, ask, _, priced, _⟩
                  exact Option.some_ne_none ask
                    (priced.symm.trans askPriced)
              | some ask =>
                  by_cases inside : ask ≤ bid
                  · have crosses : Crosses buyOrder sellOrder :=
                      ⟨bid, ask, bidPriced, askPriced, inside⟩
                    have different := apart _ _ _ _ _ holds
                    simp only [if_pos inside]
                    rw [ends_get_bind]
                    cases created :
                        pairTrade buyOrder sellOrder
                          context.market with
                    | error exception =>
                        rw [pairTrade] at created
                        rw [created]
                        exact ⟨_, _, _, _, holds, crosses, created⟩
                    | ok trade =>
                        have kept := keeps _ _ _ _ _ _ holds crosses
                          created
                        have fills := settleTrade_fills different
                          (pairTrade_quantity crosses created)
                        rw [pairTrade] at created
                        rw [created]
                        exact induction _ _ _ kept
                          (unlessFilled_length fills enough)
                  · simp only [if_neg inside]
                    apply stops
                    rintro ⟨otherBid, otherAsk, otherBidPriced,
                      otherAskPriced, otherInside⟩
                    rcases Option.some.inj
                      (otherBidPriced.symm.trans bidPriced) with rfl
                    rcases Option.some.inj
                      (otherAskPriced.symm.trans askPriced) with rfl
                    exact inside otherInside

/-! ### The whole batch -/

/-- The orders of one side of an instrument, all of the set. -/
def Collected (parties : Order → Prop) (instrumentId : String)
    (side : OrderSide) (orders : List Order) : Prop :=
  ∀ order ∈ orders,
    parties order ∧ order.side = side ∧
      order.instrumentId = instrumentId

theorem Collected.subset {instrumentId : String} {side : OrderSide}
    {orders kept : List Order}
    (collected : Collected parties instrumentId side orders)
    (subset : kept ⊆ orders) :
    Collected parties instrumentId side kept :=
  fun order member => collected order (subset member)

/-- The orders of one side, sorted, are orders of that side. -/
theorem Collected.sorted {instrumentId : String} {orders : List Order}
    (facts : ∀ order ∈ orders,
      parties order ∧ order.instrumentId = instrumentId)
    (draw : String → ℚ) (descending : Bool) (side : OrderSide) :
    Collected parties instrumentId side
      (BatchMatchingEngine.randomizeSamePriceOrders draw descending
        (orders.filter fun order => order.side = side)) := by
  intro order member
  rw [BatchMatchingEngine.randomizeSamePriceOrders,
    List.mem_insertionSort, List.mem_filter] at member
  have both := facts order member.1
  exact ⟨both.1, of_decide_eq_true member.2, both.2⟩

theorem BatchTraded.exists_book {context : BatchContext}
    {instrumentId : String} (traded : BatchTraded parties start context)
    (listed : start.orderBooks.Contains instrumentId) :
    ∃ book, context.market.orderBooks.get? instrumentId = some book := by
  rcases traded with ⟨_, made, trading⟩
  apply (OrderedDict.contains_iff_exists _ _).mp
  rw [OrderedDict.Contains, trading.keys]
  exact listed

theorem BatchTraded.rests {context : BatchContext}
    (traded : BatchTraded parties start context) :
    ∀ order, context.market.Rests order → parties order := by
  rcases traded with ⟨_, made, trading⟩
  exact trading.rests

/-- A buy order and a sell order of the set have different ids. -/
theorem BatchTraded.apart {context : BatchContext}
    {buyOrder sellOrder : Order}
    (traded : BatchTraded parties start context)
    (known : ∀ order, parties order → order ∈ start.heap.orders)
    (buyParty : parties buyOrder) (sellParty : parties sellOrder)
    (buySide : buyOrder.side = .buy)
    (sellSide : sellOrder.side = .sell) :
    buyOrder.orderId ≠ sellOrder.orderId := by
  intro equal
  have same := traded.1.eq_of_orderId_eq
    (traded.registered known buyParty)
    (traded.registered known sellParty) equal
  rw [same, sellSide] at buySide
  cases buySide

/-- One trade of a pair is a trade of the set. -/
theorem BatchTraded.pair {context : BatchContext}
    {instrumentId : String} {buyOrder sellOrder : Order} {trade : Trade}
    (traded : BatchTraded parties start context)
    (known : ∀ order, parties order → order ∈ start.heap.orders)
    (listed : start.orderBooks.Contains instrumentId)
    (buy : parties buyOrder ∧ buyOrder.side = .buy ∧
      buyOrder.instrumentId = instrumentId)
    (sell : parties sellOrder ∧ sellOrder.side = .sell ∧
      sellOrder.instrumentId = instrumentId)
    (crosses : Crosses buyOrder sellOrder)
    (created : pairTrade buyOrder sellOrder context.market = .ok trade) :
    TradeBetween trade buyOrder sellOrder ∧
      MarketShape
        (BatchMatchingEngine.settleTrade trade buyOrder sellOrder
          context.market) ∧
      Trading parties context.market [trade]
        (BatchMatchingEngine.settleTrade trade buyOrder sellOrder
          context.market) := by
  rcases crosses with ⟨bid, ask, bidPriced, askPriced, inside⟩
  have between :=
    (createTrade_between buy.2.1 sell.2.1 (sell.2.2.trans buy.2.2.symm)
      bidPriced askPriced inside created).1
  rcases traded.exists_book listed with ⟨book, found⟩
  have atInstrument : trade.instrumentId = instrumentId :=
    between.buyInstrument.trans buy.2.2
  rw [← atInstrument] at found
  exact ⟨between,
    settleTrade_traded traded.1 found traded.rests between
      (traded.apart known buy.1 sell.1 buy.2.1 sell.2.1) buy.1 sell.1⟩

/-- What a trade of a pair and the adding of an order keep of a market. -/
structure BatchKeeps (kept : Market → Prop) : Prop where
  pair : ∀ {market : Market} {trade : Trade}
    {buyOrder sellOrder : Order} {book : OrderBook},
    MarketShape market → kept market →
    market.orderBooks.get? trade.instrumentId = some book →
    buyOrder ∈ market.heap.orders → sellOrder ∈ market.heap.orders →
    TradeBetween trade buyOrder sellOrder →
    buyOrder.orderId ≠ sellOrder.orderId →
    trade.quantity =
      min (market.heap.remaining buyOrder)
        (market.heap.remaining sellOrder) →
      kept
        (BatchMatchingEngine.settleTrade trade buyOrder sellOrder market)
  add : ∀ {market : Market} {order : Order} {book : OrderBook},
    MarketShape market → kept market →
    market.orderBooks.get? order.instrumentId = some book →
    order ∈ market.heap.orders →
      Ends
        (Market.onBook order.instrumentId (OrderBook.addOrder order))
        market (fun _ => kept) (fun _ => kept)

theorem BatchKeeps.trivial : BatchKeeps fun _ => True where
  pair _ _ _ _ _ _ _ _ := True.intro
  add _ _ _ _ := Ends.of_finalState (fun _ => True) True.intro

/-- The market of a batch which has traded within the set so far. -/
def BatchKept (parties : Order → Prop) (start : Market)
    (kept : Market → Prop) (context : BatchContext) : Prop :=
  BatchTraded parties start context ∧ kept context.market

section Kept

variable {kept : Market → Prop}

theorem BatchKept.pair {context : BatchContext} {instrumentId : String}
    {buyOrder sellOrder : Order} {trade : Trade}
    (sofar : BatchKept parties start kept context)
    (keeps : BatchKeeps kept)
    (known : ∀ order, parties order → order ∈ start.heap.orders)
    (listed : start.orderBooks.Contains instrumentId)
    (buy : parties buyOrder ∧ buyOrder.side = .buy ∧
      buyOrder.instrumentId = instrumentId)
    (sell : parties sellOrder ∧ sellOrder.side = .sell ∧
      sellOrder.instrumentId = instrumentId)
    (crosses : Crosses buyOrder sellOrder)
    (created : pairTrade buyOrder sellOrder context.market = .ok trade) :
    BatchKept parties start kept
      (BatchMatchingEngine.recordTrade trade buyOrder sellOrder
        context) := by
  rcases sofar.1.pair known listed buy sell crosses created with
    ⟨between, shape, trading⟩
  rcases sofar.1.exists_book listed with ⟨book, found⟩
  have atInstrument : trade.instrumentId = instrumentId :=
    between.buyInstrument.trans buy.2.2
  rw [← atInstrument] at found
  exact ⟨Traded.next sofar.1 shape trading,
    keeps.pair sofar.1.1 sofar.2 found
      (sofar.1.registered known buy.1) (sofar.1.registered known sell.1)
      between (sofar.1.apart known buy.1 sell.1 buy.2.1 sell.2.1)
      (pairTrade_quantity crosses created)⟩

theorem addOrderToBook_keeps {order : Order}
    (keeps : BatchKeeps kept)
    (known : ∀ order, parties order → order ∈ start.heap.orders)
    (listed : start.orderBooks.Contains order.instrumentId)
    (party : parties order) :
    Keeps (BatchKept parties start kept)
      (BatchMatchingEngine.addOrderToBook order.instrumentId order) := by
  rintro context ⟨traded, held⟩
  rcases traded.exists_book listed with ⟨book, found⟩
  have weaker : ∀ candidate,
      AddParties context.market order candidate → parties candidate := by
    rintro candidate (rfl | rests)
    · exact party
    · exact traded.rests candidate rests
  have registered := traded.registered known party
  have ends := (onBook_addOrder_ends traded.1 found registered).and
    (keeps.add traded.1 held found registered)
  have inBatch : Ends
      (BatchContext.onMarket
        (Market.onBook order.instrumentId (OrderBook.addOrder order)))
      context
      (fun _ reached => BatchKept parties start kept reached)
      (fun _ reached => BatchKept parties start kept reached) := by
    apply Ends.zoom
    refine ends.mono ?_ ?_
    · rintro trades after ⟨⟨shape, trading⟩, next⟩
      exact ⟨Traded.next traded shape (trading.mono weaker), next⟩
    · rintro exception after ⟨⟨shape, made, trading⟩, next⟩
      exact ⟨Traded.next traded shape (trading.mono weaker), next⟩
  rw [BatchMatchingEngine.addOrderToBook]
  apply inBatch.bind
  intro trades reached next
  exact next

/-- Matching one instrument trades within the set. -/
theorem matchInstrument_keeps (draw : String → ℚ)
    {collected : String × List Order}
    (keeps : BatchKeeps kept)
    (known : ∀ order, parties order → order ∈ start.heap.orders)
    (orders : ∀ order ∈ collected.2,
      parties order ∧ order.instrumentId = collected.1) :
    Keeps (BatchKept parties start kept)
      (BatchMatchingEngine.matchInstrument draw collected) := by
  rintro context ⟨traded, held⟩
  rw [BatchMatchingEngine.matchInstrument, ends_get_bind]
  by_cases contains : context.market.orderBooks.Contains collected.1
  · have listed : start.orderBooks.Contains collected.1 := by
      rcases traded with ⟨_, made, trading⟩
      rw [OrderedDict.Contains, trading.keys] at contains
      exact contains
    have sorted := Collected.sorted orders draw
    simp only [if_pos contains]
    have pairing := pairOrders_ends
      (fun buyOrders sellOrders reached =>
        BatchKept parties start kept reached ∧
          Collected parties collected.1 .buy buyOrders ∧
          Collected parties collected.1 .sell sellOrders)
      (by
        rintro buyOrder _ sellOrder _ reached ⟨sofar, buys, sells⟩
        have buy := buys buyOrder List.mem_cons_self
        have sell := sells sellOrder List.mem_cons_self
        exact sofar.1.apart known buy.1 sell.1 buy.2.1 sell.2.1)
      (by
        rintro buyOrder buyOrders sellOrder sellOrders reached trade
          ⟨sofar, buys, sells⟩ crosses created
        exact ⟨sofar.pair keeps known listed
            (buys buyOrder List.mem_cons_self)
            (sells sellOrder List.mem_cons_self) crosses created,
          buys.subset (unlessFilled_subset _ _ _),
          sells.subset (unlessFilled_subset _ _ _)⟩)
      _ _ _ context ⟨⟨traded, held⟩, sorted true .buy, sorted false .sell⟩
      (Nat.lt_succ_self _)
    apply Ends.bind (pairing.mono (fun _ _ facts => facts) ?_) ?_
    · rintro exception reached ⟨_, _, _, _, ⟨sofar, _⟩, _⟩
      exact sofar
    · rintro left reached ⟨⟨sofar, buys, sells⟩, _⟩
      apply Keeps.forM _ reached sofar
      intro order member
      have facts : parties order ∧ order.instrumentId = collected.1 := by
        rcases List.mem_append.mp member with inBuys | inSells
        · exact ⟨(buys order inBuys).1, (buys order inBuys).2.2⟩
        · exact ⟨(sells order inSells).1, (sells order inSells).2.2⟩
      rw [← facts.2] at listed ⊢
      exact addOrderToBook_keeps keeps known listed facts.1
  · simp only [if_neg contains]
    exact ⟨traded, held⟩

end Kept

theorem finalizeResults_market (pending : PendingOrders)
    (context : BatchContext) :
    Ends (BatchMatchingEngine.finalizeResults pending) context
      (fun _ after => after.market = context.market)
      (fun _ _ => False) := by
  have inner : ∀ (instrumentId : String) (orders : List Order)
      (context : BatchContext),
      (orders.foldl
        (fun context order =>
          BatchMatchingEngine.finalizeResult instrumentId order context)
        context).market = context.market := by
    intro instrumentId orders
    induction orders with
    | nil => exact fun _ => rfl
    | cons order rest induction => exact fun context => induction _
  have outer : ∀ (entries : List (String × List Order))
      (context : BatchContext),
      (entries.foldl
        (fun context collected =>
          collected.2.foldl
            (fun context order =>
              BatchMatchingEngine.finalizeResult collected.1 order
                context)
            context)
        context).market = context.market := by
    intro entries
    induction entries with
    | nil => exact fun _ => rfl
    | cons collected rest induction =>
        intro context
        exact (induction _).trans (inner collected.1 collected.2 context)
  exact outer pending.entries context

/-- A batch trades collected and resting orders only. -/
theorem runBatch_keeps (draw : String → ℚ) {pending : PendingOrders}
    {kept : Market → Prop} (keeps : BatchKeeps kept)
    (known : ∀ order, parties order → order ∈ start.heap.orders)
    (orders : ∀ collected ∈ pending.entries, ∀ order ∈ collected.2,
      parties order ∧ order.instrumentId = collected.1) :
    Keeps (BatchKept parties start kept)
      (BatchMatchingEngine.runBatch draw pending) := by
  apply Keeps.bind
  · apply Keeps.forM
    intro collected member
    exact matchInstrument_keeps draw keeps known
      (orders collected member)
  · intro _
    apply Keeps.bind
    · intro context held
      refine (finalizeResults_market pending context).mono ?_ ?_
      · intro _ after equal
        rw [BatchKept, BatchTraded, equal]
        exact held
      · exact fun _ _ impossible => impossible.elim
    · intro _ context held
      exact held

end Batch

end InternTradingGame
