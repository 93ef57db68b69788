import InternTradingGame.Exchange.VenueRuns

/-!
# Accounting for every order

With whole quantities the fills of every order add up: what has been traded
under its id is what it has lost.  The three routes of a fill, the matching
loop, the pairs of a batch and the orders a batch leaves to the book, all
keep `MarketSound`, and none of them raises.
-/

namespace InternTradingGame

open Effects

/-! ## Sound markets -/

/-- What holds of a market whose orders have whole quantities. -/
structure MarketSound (market : Market) : Prop where
  shape : MarketShape market
  books : market.Quantities
  fillable : ∀ order ∈ market.heap.orders, order.Fillable market.heap
  accounted : ∀ order ∈ market.heap.orders,
    tradedQuantity order.orderId market.heap.trades =
      order.quantity - market.heap.remaining order
  between : ∀ trade ∈ market.heap.trades,
    ∃ buy ∈ market.heap.orders, ∃ sell ∈ market.heap.orders,
      TradeBetween trade buy sell

/-- The order has been taken in, but it has not reached its book. -/
structure Waiting (market : Market) (order : Order) : Prop where
  taken : order ∈ market.heap.orders
  away : ¬ market.Rests order
  unfilled : ¬ order.IsFilled market.heap

section Sound

variable {market after : Market} {parties : Order → Prop}
  {made : List Trade}

theorem MarketSound.bookInv (sound : MarketSound market)
    {instrumentId : String} {book : OrderBook}
    (found : market.orderBooks.get? instrumentId = some book) :
    BookInv ⟨market.heap, book⟩ :=
  ⟨sound.shape.books _ _ found, sound.books _ _ found⟩

/-- The ids of trades within a set of taken orders are those of the set. -/
theorem Trading.remaining_of_not_party (shape : MarketShape market)
    (trading : Trading parties market made after)
    (known : ∀ order, parties order → order ∈ market.heap.orders)
    {order : Order} (taken : order ∈ market.heap.orders)
    (outside : ¬ parties order) :
    after.heap.remaining order = market.heap.remaining order := by
  apply trading.unnamed
  intro party isParty equal
  exact outside
    (shape.eq_of_orderId_eq (known party isParty) taken equal ▸ isParty)

/-- The history of a market after some more trades. -/
theorem MarketSound.of_trading (sound : MarketSound market)
    (trading : Trading parties market made after)
    (known : ∀ order, parties order → order ∈ market.heap.orders)
    (shape : MarketShape after)
    (books : after.Quantities)
    (fillable : ∀ order ∈ market.heap.orders,
      order.Fillable after.heap) :
    MarketSound after where
  shape := shape
  books := books
  fillable := by
    rw [trading.orders]
    exact fillable
  accounted := by
    intro order taken
    rw [trading.orders] at taken
    rw [trading.recorded, tradedQuantity_append,
      sound.accounted order taken, Heap.remaining, Heap.remaining,
      trading.accounts]
    ring
  between := by
    intro trade member
    rw [trading.recorded] at member
    rw [trading.orders]
    rcases List.mem_append.mp member with old | new
    · exact sound.between trade old
    · rcases trading.between trade new with
        ⟨buy, sell, buyParty, sellParty, isBetween⟩
      exact ⟨buy, known buy buyParty, sell, known sell sellParty,
        isBetween⟩

/-- An order of another instrument does not notice the trades at one. -/
theorem Trading.remaining_elsewhere (shape : MarketShape market)
    (trading : Trading parties market made after)
    (known : ∀ order, parties order → order ∈ market.heap.orders)
    {instrumentId : String}
    (inside : ∀ trade ∈ made, trade.instrumentId = instrumentId)
    {order : Order} (taken : order ∈ market.heap.orders)
    (elsewhere : order.instrumentId ≠ instrumentId) :
    after.heap.remaining order = market.heap.remaining order := by
  have unnamed : ∀ trade ∈ made, ¬ trade.Names order.orderId := by
    intro trade tradeMember names
    rcases trading.between trade tradeMember with
      ⟨buy, sell, buyParty, sellParty, isBetween⟩
    apply elsewhere
    rw [← inside trade tradeMember]
    rcases (isBetween.names_iff _).mp names with isBuy | isSell
    · rw [← shape.eq_of_orderId_eq (known buy buyParty) taken isBuy]
      exact isBetween.buyInstrument.symm
    · rw [← shape.eq_of_orderId_eq (known sell sellParty) taken isSell]
      exact isBetween.sellInstrument.symm
  rw [Heap.remaining, trading.accounts,
    tradedQuantity_eq_zero _ unnamed, sub_zero]
  rfl

/-- Another book does not notice trades at one instrument. -/
theorem MarketSound.other_book (sound : MarketSound market)
    (trading : Trading parties market made after)
    (known : ∀ order, parties order → order ∈ market.heap.orders)
    {instrumentId other : String} {book : OrderBook}
    (inside : ∀ trade ∈ made, trade.instrumentId = instrumentId)
    (different : other ≠ instrumentId)
    (found : market.orderBooks.get? other = some book) :
    BookQuantities ⟨after.heap, book⟩ := by
  refine ((sound.bookInv found).congr_heap ?_).quantities
  intro order member
  have taken : order ∈ market.heap.orders :=
    sound.shape.registered order ⟨other, book, found, member⟩
  apply trading.remaining_elsewhere sound.shape known inside taken
  rw [sound.shape.instrument_of_rests found member]
  exact different

end Sound

/-! ## An order reaches its book -/

/-- A trade leaves every order with a whole part of its quantity. -/
theorem Fill.Next.all_fillable {fill : Fill} {order : Order}
    {state : BookState} {orders : List Order}
    (next : fill.Next order state) (shape : BookShape state.book)
    (absent : order.orderId ∉ state.book.orderIds)
    (distinct : (orders.map Order.orderId).Nodup)
    (orderMember : order ∈ orders)
    (resting : ∀ other ∈ state.book.resting, other ∈ orders)
    (fillable : ∀ other ∈ orders, other.Fillable state.heap) :
    ∀ other ∈ orders,
      other.Fillable (state.afterFill order fill).heap := by
  intro other member
  by_cases isOrder : other.orderId = order.orderId
  · obtain rfl : other = order :=
      List.inj_on_of_nodup_map distinct member orderMember isOrder
    exact next.order_fillable shape absent (fillable other member)
  · by_cases isMatching : other.orderId = fill.matching.orderId
    · obtain rfl : other = fill.matching :=
        List.inj_on_of_nodup_map distinct member
          (resting _ next.mem_resting) isMatching
      exact (fillable fill.matching member).subtract
        fill.trade.quantity_positive fill.trade.quantity_whole
        next.quantity_le_matching Fill.Next.remaining_matching
    · exact (fillable other member).congr
        (Fill.Next.remaining_other isOrder isMatching)

/-- A waiting order is added to its book, and the market stays sound. -/
theorem onBook_addOrder_sound {market : Market} {order : Order}
    (sound : MarketSound market)
    (listed : market.orderBooks.Contains order.instrumentId)
    (taken : order ∈ market.heap.orders)
    (away : ¬ market.Rests order) :
    ∃ trades after,
      Market.onBook order.instrumentId (OrderBook.addOrder order)
          market = .ok trades after ∧
        MarketSound after ∧
        Trading (AddParties market order) market trades after := by
  rcases (OrderedDict.contains_iff_exists _ _).mp listed with ⟨book, found⟩
  have bookShape := sound.shape.books _ book found
  have named := sound.shape.named _ book found
  have resting : ∀ other ∈ book.resting, other ∈ market.heap.orders :=
    fun other member =>
      sound.shape.registered other ⟨_, book, found, member⟩
  have absent : order.orderId ∉ book.orderIds := by
    intro present
    rcases (bookShape.ids _).mp present with ⟨other, member, equal⟩
    have same := sound.shape.eq_of_orderId_eq (resting other member)
      taken equal
    exact away ⟨_, book, found, same ▸ member⟩
  have addable : Addable order ⟨market.heap, book⟩ :=
    ⟨named.symm, absent⟩
  have ends := addOrder_ends
    (fun _ reached =>
      BookQuantities reached ∧
        ∀ other ∈ market.heap.orders, other.Fillable reached.heap)
    (@BookInv.shape ⟨market.heap, book⟩ (sound.bookInv found))
    (by
      rintro trades reached fill changes shape notListed
        ⟨quantities, fillable⟩ next
      exact ⟨next.quantities shape notListed quantities,
        next.all_fillable shape notListed sound.shape.distinct taken
          (fun other member =>
            resting other (changes.resting_subset member))
          fillable⟩)
    (fun _ => ⟨sound.books _ book found, sound.fillable⟩)
  cases evaluated :
      OrderBook.addOrder order ⟨market.heap, book⟩ with
  | ok trades part =>
      rcases ends.elim_ok evaluated with
        ⟨_, matched, rfl, changes, ⟨quantities, fillable⟩, matchedShape,
          notListed, done⟩
      have instrument :
          order.instrumentId = matched.book.instrumentId :=
        addable.instrument.trans changes.instrument.symm
      have heap : (matched.rest order).heap = matched.heap := rest_heap
      have both := matched_market sound.shape found taken changes heap
        (rest_shape matchedShape notListed done instrument)
        rest_instrumentId
        (fun candidate member =>
          mem_rest_resting matchedShape instrument member)
      have known : ∀ candidate, AddParties market order candidate →
          candidate ∈ market.heap.orders := by
        rintro candidate (rfl | rests)
        · exact taken
        · exact sound.shape.registered candidate rests
      have inside : ∀ trade ∈ trades,
          trade.instrumentId = order.instrumentId := by
        intro trade member
        rcases changes.parties trade member with ⟨_, _, _, _, _, tradeOf⟩
        exact tradeOf.instrument.trans named
      refine ⟨trades, _, Market.onBook_ok found evaluated, ?_, both.2⟩
      apply sound.of_trading both.2 known both.1
      · intro other otherBook otherFound
        by_cases same : other = order.instrumentId
        · rw [same, Market.withBook_get?_self] at otherFound
          rcases Option.some.inj otherFound with rfl
          exact rest_quantities matchedShape quantities
            (fillable order taken |>.congr rfl) instrument
        · rw [Market.withBook_get?_ne _ _ same] at otherFound
          exact sound.other_book both.2 known inside same otherFound
      · intro other member
        change other.Fillable (matched.rest order).heap
        rw [heap]
        exact fillable other member
  | error exception part =>
      rcases ends.elim_error evaluated with
        ⟨_, guarded⟩ |
          ⟨_, shape, rejected, trades, _, quantities, fillable⟩
      · exact absurd addable guarded
      · exact absurd rejected
          (not_tradeRejected ⟨shape, quantities⟩ (fillable order taken))

/-- The continuous engine accepts every waiting order. -/
theorem continuous_submitOrder_sound {market : Market} {order : Order}
    (sound : MarketSound market)
    (listed : market.orderBooks.Contains order.instrumentId)
    (taken : order ∈ market.heap.orders)
    (away : ¬ market.Rests order) :
    ∃ result after,
      ContinuousMatchingEngine.submitOrder order market =
          .ok result after ∧
        MarketSound after ∧
        Trading (AddParties market order) market result.fills after := by
  rcases onBook_addOrder_sound sound listed taken away with
    ⟨trades, after, evaluates, afterSound, trading⟩
  have result : ∃ result,
      ContinuousMatchingEngine.submitOrder order market =
          .ok result after ∧ result.fills = trades := by
    simp only [ContinuousMatchingEngine.submitOrder, bind_apply,
      evaluates, get_apply, pure_apply]
    exact ⟨_, rfl, rfl⟩
  rcases result with ⟨result, submits, rfl⟩
  exact ⟨result, after, submits, afterSound, trading⟩

end InternTradingGame
