import InternTradingGame.Exchange.Locality
import InternTradingGame.Exchange.OrderObjects
import InternTradingGame.Exchange.VenueRuns
import InternTradingGame.Library.History
import InternTradingGame.OrderBook.Queues

/-!
# The trade history of an instrument

Every book keeps its last hundred trades, and the venue hands out the last
of them on request.  The history is written by the matching loop and by the
batch engine; `Remembers` says that whatever they do, it is the end of the
sequence of all trades of the instrument.  This needs nothing of the ids and
the quantities of the orders: the programs are followed line by line.

`get_recent_trades` takes a slice from the end, so it returns the trades
oldest first, and all of them when it is asked for none.
-/

namespace InternTradingGame

open Effects

/-! ## Reading the history -/

/-- `get_recent_trades`. -/
def OrderBook.getRecentTrades (book : OrderBook) (limit : ℤ) :
    List Trade :=
  Sequences.sliceFrom book.trades (-limit)

/-- `get_trade_history`. -/
def ExchangeVenue.getTradeHistory (instrumentId : String) (limit : ℤ) :
    VenueM (List Trade) := do
  let venue ← get
  match venue.market.orderBooks.get? instrumentId with
  | none =>
      throw (.valueError ("Instrument " ++ instrumentId ++ " not found"))
  | some book => return book.getRecentTrades limit

/-- The trades of one instrument. -/
def tradesOn (instrumentId : String) (trades : List Trade) : List Trade :=
  trades.filter fun trade => trade.instrumentId = instrumentId

/-- The last records, the newest first. -/
def newestFirst {α : Type} (limit : ℕ) (records : List α) : List α :=
  records.reverse.take (min limit tradeHistoryLength)

/-- The slice which the bounded history of all records gives out. -/
def recentRecords {α : Type} (limit : ℕ) (records : List α) : List α :=
  Sequences.sliceFrom (records.rtake tradeHistoryLength) (-(limit : ℤ))

@[simp]
theorem tradesOn_nil (instrumentId : String) :
    tradesOn instrumentId [] = [] :=
  rfl

theorem tradesOn_append (instrumentId : String)
    (earlier later : List Trade) :
    tradesOn instrumentId (earlier ++ later) =
      tradesOn instrumentId earlier ++ tradesOn instrumentId later :=
  List.filter_append ..

theorem tradesOn_singleton_self {trade : Trade} {instrumentId : String}
    (traded : trade.instrumentId = instrumentId) :
    tradesOn instrumentId [trade] = [trade] := by
  simp [tradesOn, traded]

theorem tradesOn_singleton_ne {trade : Trade} {instrumentId : String}
    (elsewhere : trade.instrumentId ≠ instrumentId) :
    tradesOn instrumentId [trade] = [] := by
  simp [tradesOn, elsewhere]

/-- The history of a book which has remembered a sequence of trades. -/
theorem pushTrade_rtake (trades : List Trade) (trade : Trade) :
    pushTrade (trades.rtake tradeHistoryLength) trade =
      (trades ++ [trade]).rtake tradeHistoryLength := by
  have ring : ∀ history : List Trade,
      pushTrade history trade =
        (history ++ [trade]).rtake tradeHistoryLength := by
    intro history
    rw [pushTrade, List.rtake, List.length_append, List.length_singleton]
  rw [ring, Sequences.rtake_append_rtake]

/-! ## One book -/

/--
The book of an instrument remembers its trades, and the other trades are the
given ones.
-/
structure BookRemembers (instrumentId : String)
    (others : String → List Trade) (state : BookState) : Prop where
  named : state.book.instrumentId = instrumentId
  history : state.book.trades =
    (tradesOn instrumentId state.heap.trades).rtake tradeHistoryLength
  elsewhere : ∀ other, other ≠ instrumentId →
    tradesOn other state.heap.trades = others other

namespace BookRemembers

variable {instrumentId : String} {others : String → List Trade}
  {before after : BookState} {order : Order}

/-- Nothing is traded, and the history of the book is left alone. -/
theorem quiet (remembers : BookRemembers instrumentId others before)
    (named : after.book.instrumentId = before.book.instrumentId)
    (trades : after.book.trades = before.book.trades)
    (heap : after.heap.trades = before.heap.trades) :
    BookRemembers instrumentId others after where
  named := named.trans remembers.named
  history := by
    rw [trades, heap]
    exact remembers.history
  elsewhere := by
    rw [heap]
    exact remembers.elsewhere

theorem setLevels (remembers : BookRemembers instrumentId others before)
    (side : OrderSide) (levels : List PriceLevel) :
    BookRemembers instrumentId others (before.setLevels side levels) :=
  remembers.quiet (OrderBook.setLevels_instrumentId ..)
    (OrderBook.setLevels_trades ..) rfl

/-- A trade of the instrument is remembered. -/
theorem recordTrade (remembers : BookRemembers instrumentId others before)
    {trade : Trade} (instrument : trade.instrumentId = instrumentId) :
    BookRemembers instrumentId others (before.recordTrade trade) where
  named := remembers.named
  history := by
    change pushTrade before.book.trades trade =
      (tradesOn instrumentId (before.heap.trades ++ [trade])).rtake _
    rw [remembers.history, tradesOn_append,
      tradesOn_singleton_self instrument, pushTrade_rtake]
  elsewhere := by
    intro other different
    change tradesOn other (before.heap.trades ++ [trade]) = _
    rw [tradesOn_append,
      tradesOn_singleton_ne (instrument ▸ Ne.symm different),
      List.append_nil]
    exact remembers.elsewhere other different

theorem removeOrderId (orderId : String) :
    Keeps (BookRemembers instrumentId others)
      (OrderBook.removeOrderId orderId) := by
  rw [OrderBook.removeOrderId]
  apply Keeps.reads
  intro seen _
  apply Keeps.branches
  · intro _
    exact Keeps.modifies fun state holds => holds.quiet rfl rfl rfl
  · intro _
    exact Keeps.raises _

theorem deleteOrderPrice (orderId : String) :
    Keeps (BookRemembers instrumentId others)
      (OrderBook.deleteOrderPrice orderId) := by
  rw [OrderBook.deleteOrderPrice]
  apply Keeps.reads
  intro seen _
  apply Keeps.branches
  · intro _
    exact Keeps.modifies fun state holds => holds.quiet rfl rfl rfl
  · intro _
    exact Keeps.raises _

/-- A fill changes what is left of an order and nothing else. -/
theorem fillOrder (order : Order) (quantity : ℚ) :
    Keeps (BookRemembers instrumentId others)
      (OrderBook.fillOrder order quantity) := by
  intro state holds
  rw [OrderBook.fillOrder, ends_get_bind]
  cases filled : order.fill state.heap quantity with
  | error exception => exact holds
  | ok heap =>
      have trades : heap.trades = state.heap.trades := by
        rw [Order.fill] at filled
        split_ifs at filled
        cases filled
        rfl
      exact holds.quiet rfl rfl trades

theorem dropFilled (side : OrderSide) (best : PriceLevel)
    (deeper : List PriceLevel) (matching : Order) :
    Keeps (BookRemembers instrumentId others)
      (OrderBook.dropFilled side best deeper matching) := by
  rw [OrderBook.dropFilled]
  apply Keeps.reads
  intro seen _
  apply (Keeps.modifies fun state holds => holds.setLevels _ _).bind
  intro _
  apply (removeOrderId _).bind
  intro _
  apply (deleteOrderPrice _).bind
  intro _
  apply Keeps.branches
  · intro _
    exact Keeps.modifies fun state holds => holds.setLevels _ _
  · intro _
    exact Keeps.pure _

theorem matchIteration (order : Order) :
    Keeps (BookRemembers instrumentId others)
      (OrderBook.matchIteration order) := by
  rw [OrderBook.matchIteration]
  apply Keeps.reads
  intro seen remembers
  apply Keeps.branches
  · intro _
    exact Keeps.pure _
  · intro _
    cases seen.book.levels order.side.opposite with
    | nil => exact Keeps.pure _
    | cons best deeper =>
        apply Keeps.branches
        · intro _
          exact Keeps.pure _
        · intro _
          cases best.orders with
          | nil => exact Keeps.raises _
          | cons matching _ =>
              apply Keeps.lifts_bind
              intro trade created
              have instrument : trade.instrumentId = instrumentId :=
                (OrderBook.newTrade_ok created).instrument.trans
                  remembers.named
              apply (Keeps.modifies fun state holds =>
                holds.recordTrade instrument).bind
              intro _
              apply (fillOrder _ _).bind
              intro _
              apply (fillOrder _ _).bind
              intro _
              apply (Keeps.modifies fun state holds =>
                holds.setLevels _ _).bind
              intro _
              apply Keeps.reads
              intro settled _
              apply Keeps.branches
              · intro _
                exact (dropFilled _ _ _ _).bind fun _ => Keeps.pure _
              · intro _
                exact Keeps.pure _

theorem matchLoop (order : Order) (iterations : ℕ)
    (trades : List Trade) :
    Keeps (BookRemembers instrumentId others)
      (OrderBook.matchLoop order iterations trades) := by
  induction iterations generalizing trades with
  | zero => exact Keeps.raises _
  | succ iterations induction =>
      rw [OrderBook.matchLoop]
      apply (matchIteration order).bind
      intro made
      cases made with
      | none => exact Keeps.pure _
      | some trade => exact induction _

theorem insertOrder (order : Order) :
    Keeps (BookRemembers instrumentId others)
      (OrderBook.insertOrder order) := by
  rw [OrderBook.insertOrder]
  cases order.price with
  | none => exact Keeps.raises _
  | some price =>
      exact Keeps.modifies fun state holds =>
        holds.quiet (OrderBook.setLevels_instrumentId ..)
          (OrderBook.setLevels_trades ..) rfl

/-- Adding an order to the book. -/
theorem addOrder (order : Order) :
    Keeps (BookRemembers instrumentId others)
      (OrderBook.addOrder order) := by
  rw [OrderBook.addOrder]
  apply Keeps.reads
  intro seen _
  apply Keeps.branches
  · intro _
    exact Keeps.raises _
  · intro _
    apply Keeps.branches
    · intro _
      exact Keeps.raises _
    · intro _
      have matching : Keeps (BookRemembers instrumentId others)
          (OrderBook.matchOrder order) :=
        Keeps.reads fun state _ => matchLoop order _ _
      apply matching.bind
      intro trades
      apply Keeps.reads
      intro matched _
      apply Keeps.branches
      · intro _
        exact (insertOrder order).bind fun _ => Keeps.pure _
      · intro _
        exact Keeps.pure _

theorem dropCancelled (side : OrderSide) (levels : List PriceLevel)
    (shrunk : PriceLevel) (orderId : String) :
    Keeps (BookRemembers instrumentId others)
      (OrderBook.dropCancelled side levels shrunk orderId) := by
  rw [OrderBook.dropCancelled]
  apply (Keeps.modifies fun state holds => holds.setLevels _ _).bind
  intro _
  apply (deleteOrderPrice _).bind
  intro _
  apply (removeOrderId _).bind
  intro _
  apply Keeps.branches
  · intro _
    exact Keeps.modifies fun state holds => holds.setLevels _ _
  · intro _
    exact Keeps.pure _

/-- Taking an order out of the book. -/
theorem cancelOrder (orderId : String) :
    Keeps (BookRemembers instrumentId others)
      (OrderBook.cancelOrder orderId) := by
  rw [OrderBook.cancelOrder]
  apply Keeps.reads
  intro seen _
  cases seen.book.orderPriceMap.get? orderId with
  | none => exact Keeps.pure _
  | some price =>
      dsimp only
      split
      · exact Keeps.pure _
      · split
        · exact Keeps.pure _
        · exact (dropCancelled _ _ _ _).bind fun _ => Keeps.pure _

end BookRemembers

/-! ## All books -/

/--
Every book remembers the last trades of its instrument, and there are no
trades of other instruments than the listed ones.
-/
structure Remembers (listed : List String) (market : Market) : Prop where
  keys : market.orderBooks.keys = listed
  named : ∀ instrumentId book,
    market.orderBooks.get? instrumentId = some book →
      book.instrumentId = instrumentId
  history : ∀ instrumentId book,
    market.orderBooks.get? instrumentId = some book →
      book.trades =
        (tradesOn instrumentId market.heap.trades).rtake
          tradeHistoryLength
  unlisted : ∀ instrumentId, instrumentId ∉ listed →
    tradesOn instrumentId market.heap.trades = []

namespace Remembers

variable {listed : List String} {market : Market} {instrumentId : String}
  {book : OrderBook}

theorem inBook (remembers : Remembers listed market)
    (found : market.orderBooks.get? instrumentId = some book) :
    BookRemembers instrumentId
      (fun other => tradesOn other market.heap.trades)
      ⟨market.heap, book⟩ where
  named := remembers.named _ _ found
  history := remembers.history _ _ found
  elsewhere _ _ := rfl

/-- Only one book has changed, and it remembers. -/
theorem withBook (remembers : Remembers listed market)
    (found : market.orderBooks.get? instrumentId = some book)
    {part : BookState}
    (changed : BookRemembers instrumentId
      (fun other => tradesOn other market.heap.trades) part) :
    Remembers listed (market.withBook instrumentId part) where
  keys := (Market.withBook_keys part found).trans remembers.keys
  named := by
    intro other otherBook otherFound
    by_cases same : other = instrumentId
    · subst same
      rw [Market.withBook_get?_self] at otherFound
      exact Option.some.inj otherFound ▸ changed.named
    · rw [Market.withBook_get?_ne _ _ same] at otherFound
      exact remembers.named other otherBook otherFound
  history := by
    intro other otherBook otherFound
    change otherBook.trades = (tradesOn other part.heap.trades).rtake _
    by_cases same : other = instrumentId
    · subst same
      rw [Market.withBook_get?_self] at otherFound
      exact Option.some.inj otherFound ▸ changed.history
    · rw [Market.withBook_get?_ne _ _ same] at otherFound
      rw [changed.elsewhere other same]
      exact remembers.history other otherBook otherFound
  unlisted := by
    intro other absent
    have different : other ≠ instrumentId := by
      rintro rfl
      exact absent
        (remembers.keys ▸ OrderedDict.contains_of_get? found)
    exact (changed.elsewhere other different).trans
      (remembers.unlisted other absent)

theorem onBook {α : Type} {program : BookM α}
    (kept : ∀ others, Keeps (BookRemembers instrumentId others) program) :
    Keeps (Remembers listed) (Market.onBook instrumentId program) := by
  intro market remembers
  cases found : market.orderBooks.get? instrumentId with
  | none =>
      rw [Market.onBook, ends_get_bind, found]
      exact remembers
  | some book =>
      apply Market.onBook_ends found
      exact (kept _ _ (remembers.inBook found)).mono
        (fun _ _ changed => remembers.withBook found changed)
        (fun _ _ changed => remembers.withBook found changed)

theorem continuous_submitOrder (order : Order) :
    Keeps (Remembers listed)
      (ContinuousMatchingEngine.submitOrder order) := by
  rw [ContinuousMatchingEngine.submitOrder]
  apply (onBook fun _ => BookRemembers.addOrder order).bind
  intro trades
  exact Keeps.reads fun market _ => Keeps.pure _

/-- A pair trades on a listed instrument. -/
theorem settleTrade (remembers : Remembers listed market) {trade : Trade}
    (instrument : trade.instrumentId ∈ listed)
    (buyOrder sellOrder : Order) :
    Remembers listed
      (BatchMatchingEngine.settleTrade trade buyOrder sellOrder
        market) := by
  rcases (OrderedDict.contains_iff_exists market.orderBooks _).mp
      (remembers.keys.symm ▸ instrument) with
    ⟨book, found⟩
  rw [settleTrade_eq found]
  have recorded : BookRemembers trade.instrumentId
      (fun other => tradesOn other market.heap.trades)
      (BookState.recordTrade ⟨market.heap, book⟩ trade) :=
    (remembers.inBook found).recordTrade rfl
  exact remembers.withBook found (recorded.quiet rfl rfl rfl)

end Remembers

/-! ## Batches -/

/-- The books of a batch remember their trades. -/
def BatchRemembers (listed : List String) (context : BatchContext) :
    Prop :=
  Remembers listed context.market

namespace BatchRemembers

variable {listed : List String} {instrumentId : String}

theorem pairOrders (known : instrumentId ∈ listed) (iterations : ℕ)
    {buyOrders : List Order}
    (instrument : ∀ order ∈ buyOrders, order.instrumentId = instrumentId)
    (sellOrders : List Order) :
    Keeps (BatchRemembers listed)
      (BatchMatchingEngine.pairOrders iterations buyOrders
        sellOrders) := by
  induction iterations generalizing buyOrders sellOrders with
  | zero => exact Keeps.raises _
  | succ iterations induction =>
      match buyOrders, sellOrders with
      | [], _ => exact Keeps.pure _
      | _ :: _, [] => exact Keeps.pure _
      | buyOrder :: otherBuys, sellOrder :: otherSells =>
          rw [BatchMatchingEngine.pairOrders]
          cases buyOrder.price with
          | none => exact Keeps.pure _
          | some bid =>
              cases sellOrder.price with
              | none => exact Keeps.pure _
              | some ask =>
                  apply Keeps.branches
                  · intro _
                    apply Keeps.reads
                    intro context _
                    apply Keeps.lifts_bind
                    intro trade created
                    have traded : trade.instrumentId = instrumentId :=
                      (createTrade_instrument created).trans
                        (instrument buyOrder List.mem_cons_self)
                    apply (Keeps.modifies fun state remembers =>
                      Remembers.settleTrade remembers
                        (traded ▸ known) buyOrder sellOrder).bind
                    intro _
                    apply Keeps.reads
                    intro settled _
                    apply induction
                    intro order member
                    exact instrument order
                      (unlessFilled_subset buyOrder otherBuys
                        settled.market.heap member)
                  · intro _
                    exact Keeps.pure _

theorem addOrdersToBook (orders : List Order) :
    Keeps (BatchRemembers listed)
      (BatchMatchingEngine.addOrdersToBook instrumentId orders) := by
  apply Keeps.forM
  intro order _
  rw [BatchMatchingEngine.addOrderToBook]
  have added : Keeps (BatchRemembers listed)
      (BatchContext.onMarket
        (Market.onBook instrumentId (OrderBook.addOrder order))) :=
    fun context remembers => Ends.zoom
      (Remembers.onBook (fun _ => BookRemembers.addOrder order)
        context.market remembers)
  exact added.bind fun _ =>
    Keeps.modifies fun context remembers => remembers

theorem matchInstrument (draw : String → ℚ)
    {collected : String × List Order}
    (instrument : ∀ order ∈ collected.2,
      order.instrumentId = collected.1) :
    Keeps (BatchRemembers listed)
      (BatchMatchingEngine.matchInstrument draw collected) := by
  rw [BatchMatchingEngine.matchInstrument]
  apply Keeps.reads
  intro context remembers
  apply Keeps.branches
  · intro contains
    have known : collected.1 ∈ listed := by
      rw [← remembers.keys]
      exact contains
    apply (pairOrders known _ ?_ _).bind
    · exact fun left => addOrdersToBook _
    · intro order member
      rw [BatchMatchingEngine.randomizeSamePriceOrders,
        List.mem_insertionSort, List.mem_filter] at member
      exact instrument order member.1
  · intro _
    exact Keeps.pure _

theorem runBatch (draw : String → ℚ) {pending : PendingOrders}
    (instrument : ∀ collected ∈ pending.entries,
      ∀ order ∈ collected.2, order.instrumentId = collected.1) :
    Keeps (BatchRemembers listed)
      (BatchMatchingEngine.runBatch draw pending) := by
  rw [BatchMatchingEngine.runBatch]
  have matching : Keeps (BatchRemembers listed)
      (BatchMatchingEngine.matchBatchOrders draw pending) :=
    Keeps.forM fun collected member =>
      matchInstrument draw (instrument collected member)
  apply matching.bind
  intro _
  have finals : Keeps (BatchRemembers listed)
      (BatchMatchingEngine.finalizeResults pending) := by
    intro context remembers
    refine (finalizeResults_market pending context).mono ?_ ?_
    · intro _ after same
      rw [BatchRemembers, same]
      exact remembers
    · exact fun _ _ impossible => impossible.elim
  exact finals.bind fun _ => Keeps.reads fun context _ => Keeps.pure _

end BatchRemembers

/-! ## The venue -/

/-- The books of a venue remember, and only instruments have books. -/
structure VenueRemembers (venue : ExchangeVenue) : Prop where
  market : Remembers venue.market.orderBooks.keys venue.market
  books : ∀ instrumentId ∈ venue.market.orderBooks.keys,
    venue.instruments.Contains instrumentId
  pending : ∀ collected ∈ venue.pendingOrders.entries,
    ∀ order ∈ collected.2, order.instrumentId = collected.1

namespace VenueRemembers

variable {venue : ExchangeVenue} {draw : String → ℚ}

theorem new (cached baseline : PhaseState) :
    VenueRemembers (ExchangeVenue.new cached baseline) where
  market :=
    { keys := rfl
      named := by simp [ExchangeVenue.new]
      history := by simp [ExchangeVenue.new]
      unlisted := fun _ _ => rfl }
  books := by
    intro instrumentId member
    cases member
  pending := by simp [ExchangeVenue.new]

/-- The books have changed. -/
theorem setMarket (remembers : VenueRemembers venue) {market : Market}
    (changed : Remembers venue.market.orderBooks.keys market) :
    VenueRemembers { venue with market } where
  market := by
    rw [changed.keys]
    exact changed
  books := by
    rw [changed.keys]
    exact remembers.books
  pending := remembers.pending

theorem onMarket {α : Type} {program : MarketM α}
    (kept : ∀ listed, Keeps (Remembers listed) program) :
    Keeps VenueRemembers (ExchangeVenue.onMarket program) := by
  intro venue remembers
  apply Ends.zoom
  exact (kept _ _ remembers.market).mono
    (fun _ _ changed => remembers.setMarket changed)
    (fun _ _ changed => remembers.setMarket changed)

/-- A listed instrument has an empty book, and no trades yet. -/
theorem listed (remembers : VenueRemembers venue)
    {instrument : Instrument}
    (unknown : ¬ venue.instruments.Contains instrument.symbol) :
    VenueRemembers (venue.listed instrument) := by
  have absent : instrument.symbol ∉ venue.market.orderBooks.keys :=
    fun member => unknown (remembers.books _ member)
  have keys : ∀ instrumentId,
      instrumentId ∈
          (venue.market.listing instrument.symbol).orderBooks.keys ↔
        instrumentId = instrument.symbol ∨
          instrumentId ∈ venue.market.orderBooks.keys :=
    fun instrumentId => OrderedDict.contains_set _ _ _ _
  constructor
  · constructor
    · rfl
    · intro instrumentId book found
      rcases Market.get?_listing found with ⟨rfl, rfl⟩ | old
      · rfl
      · exact remembers.market.named instrumentId book old
    · intro instrumentId book found
      rcases Market.get?_listing found with ⟨rfl, rfl⟩ | old
      · change [] = (tradesOn _ venue.market.heap.trades).rtake _
        rw [remembers.market.unlisted _ absent, List.rtake_nil]
      · exact remembers.market.history instrumentId book old
    · intro instrumentId outside
      exact remembers.market.unlisted instrumentId fun member =>
        outside ((keys instrumentId).mpr (Or.inr member))
  · intro instrumentId member
    rw [ExchangeVenue.listed, OrderedDict.contains_set]
    exact ((keys instrumentId).mp member).imp id
      (remembers.books instrumentId)
  · exact remembers.pending

theorem listInstrument (instrument : Instrument) :
    Keeps VenueRemembers (ExchangeVenue.listInstrument instrument) := by
  intro venue remembers
  have applied := listInstrument_apply venue instrument
  by_cases known : venue.instruments.Contains instrument.symbol
  · rw [if_pos known] at applied
    exact Ends.of_error applied remembers
  · rw [if_neg known] at applied
    exact Ends.of_ok applied (remembers.listed known)

/-- One more order has been collected. -/
theorem collect (remembers : VenueRemembers venue) (order : Order) :
    VenueRemembers
      { venue with
        pendingOrders :=
          BatchMatchingEngine.collect venue.pendingOrders order } where
  market := remembers.market
  books := remembers.books
  pending := by
    rintro ⟨instrumentId, orders⟩ member candidate inOrders
    rcases get?_collect ((OrderedDict.get?_eq_some_iff _ _ _).mpr member)
        candidate inOrders with ⟨rfl, same⟩ | ⟨old, found, inOld⟩
    · exact same.symm
    · exact remembers.pending (instrumentId, old)
        ((OrderedDict.get?_eq_some_iff _ _ _).mp found) candidate inOld

theorem submitObject (order : Order) (left : ℚ) :
    Keeps VenueRemembers (ExchangeVenue.submitObject order left) := by
  rw [ExchangeVenue.submitObject]
  apply Keeps.reads
  intro seen _
  apply Keeps.branches
  · intro _
    exact Keeps.pure _
  · intro _
    apply Keeps.branches
    · intro _
      exact Keeps.raises _
    · intro _
      apply Keeps.branches
      · intro _
        exact Keeps.raises _
      · intro _
        apply (Keeps.modifies fun venue remembers =>
          ⟨⟨remembers.market.keys, remembers.market.named,
              remembers.market.history, remembers.market.unlisted⟩,
            remembers.books, remembers.pending⟩).bind
        intro _
        apply Keeps.reads
        intro registered _
        apply Keeps.branches
        · intro _
          exact (Keeps.modifies fun venue remembers =>
            remembers.collect order).bind fun _ => Keeps.pure _
        · intro _
          exact onMarket fun _ => Remembers.continuous_submitOrder order

theorem cancelOrder (orderId traderId : String) :
    Keeps VenueRemembers
      (ExchangeVenue.cancelOrder orderId traderId) := by
  rw [ExchangeVenue.cancelOrder]
  apply Keeps.reads
  intro seen _
  apply Keeps.branches
  · intro _
    exact Keeps.pure _
  · intro _
    apply Keeps.branches
    · intro _
      exact Keeps.pure _
    · intro _
      cases ExchangeVenue.findOrder seen.market orderId with
      | none => exact Keeps.pure _
      | some found =>
          apply Keeps.branches
          · intro _
            exact Keeps.raises _
          · intro _
            apply (onMarket fun _ => Remembers.onBook fun _ =>
              BookRemembers.cancelOrder orderId).bind
            intro cancelled
            cases cancelled with
            | none => exact Keeps.pure _
            | some order =>
                exact (Keeps.modifies fun venue remembers =>
                  ⟨remembers.market, remembers.books,
                    remembers.pending⟩).bind fun _ => Keeps.pure _

theorem runBatchEngine :
    Keeps VenueRemembers (ExchangeVenue.runBatchEngine draw) := by
  intro venue remembers
  have applied := runBatchEngine_apply venue draw
  have batch := BatchRemembers.runBatch draw remembers.pending
    { market := venue.market, results := ∅ } remembers.market
  cases ran : BatchMatchingEngine.runBatch draw venue.pendingOrders
      { market := venue.market, results := ∅ } with
  | ok results context =>
      rw [ran] at applied
      have changed := remembers.setMarket (batch.elim_ok ran)
      refine Ends.of_ok applied ⟨changed.market, changed.books, ?_⟩
      intro collected member
      cases member
  | error raised context =>
      rw [ran] at applied
      exact Ends.of_error applied
        (remembers.setMarket (batch.elim_error ran))

theorem executeOpeningAuction :
    Keeps VenueRemembers (ExchangeVenue.executeOpeningAuction draw) :=
  runBatchEngine.bind fun _ => Keeps.pure _

theorem executeBatch :
    Keeps VenueRemembers (ExchangeVenue.executeBatch draw) := by
  rw [ExchangeVenue.executeBatch]
  apply Keeps.reads
  intro seen _
  apply Keeps.branches
  · intro _
    exact runBatchEngine
  · intro _
    exact Keeps.pure _

theorem cancelAllOrders :
    Keeps VenueRemembers ExchangeVenue.cancelAllOrders := by
  have atClose : ∀ instrumentId order,
      Keeps VenueRemembers
        (ExchangeVenue.cancelAtClose instrumentId order) := by
    intro instrumentId order
    rw [ExchangeVenue.cancelAtClose]
    apply (onMarket fun _ => Remembers.onBook fun _ =>
      BookRemembers.cancelOrder order.orderId).bind
    intro cancelled
    cases cancelled with
    | none => exact Keeps.pure _
    | some cancelled =>
        exact Keeps.modifies fun venue remembers =>
          ⟨remembers.market, remembers.books, remembers.pending⟩
  have oneBook : ∀ instrumentId,
      Keeps VenueRemembers (ExchangeVenue.cancelBook instrumentId) := by
    intro instrumentId
    rw [ExchangeVenue.cancelBook]
    apply Keeps.reads
    intro seen _
    cases seen.market.orderBooks.get? instrumentId with
    | none => exact Keeps.raises _
    | some book => exact Keeps.forM fun order _ => atClose _ order
  exact Keeps.reads fun seen _ =>
    Keeps.forM fun instrumentId _ => oneBook instrumentId

theorem handleTransition (previous current : PhaseType) :
    Keeps VenueRemembers
      (ExchangeVenue.handleTransition draw previous current) := by
  have nothing : Keeps VenueRemembers (pure ⟨⟩ : VenueM PUnit) :=
    Keeps.pure _
  cases previous <;> cases current <;>
    first
      | exact executeOpeningAuction
      | exact cancelAllOrders
      | exact nothing

theorem checkPhaseTransitions (observed : PhaseState) :
    Keeps VenueRemembers
      (ExchangeVenue.checkPhaseTransitions observed draw) := by
  intro venue remembers
  have observing : VenueRemembers (venue.observing observed) :=
    ⟨remembers.market, remembers.books, remembers.pending⟩
  have applied := checkPhaseTransitions_apply venue observed draw
  apply Ends.of_finalState
  rw [applied]
  cases venue.lastPhase with
  | none => exact observing
  | some last =>
      by_cases same : last = observed.phaseType
      · simp only [if_pos same]
        exact observing
      · simp only [if_neg same]
        exact (handleTransition last observed.phaseType).finalState
          observing

/-- Every call of the venue. -/
theorem execute (remembers : VenueRemembers venue) (call : ObjectCall) :
    VenueRemembers (call.execute venue) := by
  cases call with
  | submitObject order left =>
      exact (submitObject order left).finalState remembers
  | operation call =>
      cases call with
      | listInstrument instrument =>
          exact (listInstrument instrument).finalState remembers
      | submitOrder order =>
          have kept := submitObject order order.quantity
          rw [ExchangeVenue.submitObject_quantity] at kept
          exact kept.finalState remembers
      | cancelOrder orderId traderId =>
          exact (cancelOrder orderId traderId).finalState remembers
      | executeBatch draw =>
          exact executeBatch.finalState remembers
      | executeOpeningAuction draw =>
          exact executeOpeningAuction.finalState remembers
      | cancelAllOrders => exact cancelAllOrders.finalState remembers
      | checkPhaseTransitions observed draw =>
          exact (checkPhaseTransitions observed).finalState remembers

/-- Every run, whatever ids and quantities its orders have. -/
theorem of_run {cached baseline : PhaseState} {calls : List ObjectCall}
    (run : Run ObjectStep (ExchangeVenue.new cached baseline) calls
      venue) : VenueRemembers venue := by
  apply run.invariant VenueRemembers
  · exact new cached baseline
  · rintro before call after remembers ⟨_, rfl⟩
    exact remembers.execute call

end VenueRemembers

/-! ## Reading -/

section Reading

variable {venue : ExchangeVenue} {instrumentId : String}
  {book : OrderBook}

theorem getTradeHistory_listed
    (listed : venue.market.orderBooks.get? instrumentId = some book)
    (limit : ℤ) :
    ExchangeVenue.getTradeHistory instrumentId limit venue =
      .ok (book.getRecentTrades limit) venue := by
  simp only [ExchangeVenue.getTradeHistory, bind_apply, get_apply, listed,
    pure_apply]

/-- The slice is the end of the records, oldest first. -/
theorem recentRecords_eq_rtake {α : Type} (limit : ℕ) (records : List α) :
    recentRecords limit records =
      records.rtake
        (if limit = 0 then tradeHistoryLength
        else min limit tradeHistoryLength) := by
  rw [recentRecords]
  split_ifs with none
  · rw [none, Sequences.sliceFrom_neg_zero]
  · rw [Sequences.sliceFrom_neg (Nat.pos_of_ne_zero none),
      Sequences.rtake_rtake]

/-- Reading looks at the places of the records, not at the records. -/
theorem recentRecords_map {α β : Type} (limit : ℕ) (convert : α → β)
    (records : List α) :
    (recentRecords limit records).map convert =
      recentRecords limit (records.map convert) := by
  rw [recentRecords_eq_rtake, recentRecords_eq_rtake]
  simp only [List.rtake_eq_reverse_take_reverse, List.map_reverse,
    List.map_take]

/-- The end of a history is read newest first only if it is short. -/
theorem recentRecords_eq_newestFirst_iff {α : Type} {records : List α}
    (distinct : records.Nodup) (limit : ℕ) :
    recentRecords limit records = newestFirst limit records ↔
      limit = 1 ∨
        records.length ≤ 1 ∧ (limit = 0 → records = []) := by
  rw [recentRecords_eq_rtake, newestFirst]
  split_ifs with none
  · subst none
    rw [Nat.zero_min, List.take_zero, ← List.length_eq_zero_iff,
      Sequences.length_rtake, tradeHistoryLength]
    constructor
    · intro empty
      have empty : records.length = 0 := by omega
      exact Or.inr ⟨by omega,
        fun _ => List.length_eq_zero_iff.mp empty⟩
    · rintro (impossible | ⟨_, empty⟩)
      · exact absurd impossible zero_ne_one
      · rw [empty rfl, List.length_nil, Nat.min_zero]
  · have part :
        (records.rtake (min limit tradeHistoryLength)).Nodup :=
      distinct.sublist (List.drop_sublist _ _)
    rw [← Sequences.reverse_rtake, eq_comm,
      Sequences.reverse_eq_self_iff part, Sequences.length_rtake,
      tradeHistoryLength]
    constructor
    · intro short
      by_cases one : limit = 1
      · exact Or.inl one
      · exact Or.inr ⟨by omega, fun zero => absurd zero none⟩
    · rintro (one | ⟨short, _⟩)
      · omega
      · omega

/-- What a reader gets of the records of an instrument. -/
theorem VenueRemembers.getRecentTrades
    (remembers : VenueRemembers venue)
    (listed : venue.market.orderBooks.get? instrumentId = some book)
    (limit : ℕ) :
    book.getRecentTrades limit =
      recentRecords limit
        (tradesOn instrumentId venue.market.heap.trades) := by
  rw [OrderBook.getRecentTrades,
    remembers.market.history _ _ listed, recentRecords]

/--
Let the records be the trades of the instrument so far with their trade ids,
in the order in which they were made.  The venue and the book return the end
of these records, and it is the newest first exactly if the limit is one, or
there is at most one trade and it is not asked for with limit zero.
-/
theorem ExchangeVenue.getTradeHistory_newestFirst_iff
    {cached baseline : PhaseState} {calls : List ObjectCall}
    (run : Run ObjectStep (ExchangeVenue.new cached baseline) calls venue)
    (listed : venue.market.orderBooks.get? instrumentId = some book)
    {records : List (Trade × String)}
    (made : records.map Prod.fst =
      tradesOn instrumentId venue.market.heap.trades)
    (tradeIds : (records.map Prod.snd).Nodup) (limit : ℕ) :
    ExchangeVenue.getTradeHistory instrumentId limit venue =
        .ok ((recentRecords limit records).map Prod.fst) venue ∧
      book.getRecentTrades limit =
        (recentRecords limit records).map Prod.fst ∧
      (recentRecords limit records = newestFirst limit records ↔
        limit = 1 ∨
          records.length ≤ 1 ∧ (limit = 0 → records = [])) := by
  have returned : book.getRecentTrades limit =
      (recentRecords limit records).map Prod.fst := by
    rw [recentRecords_map, made]
    exact (VenueRemembers.of_run run).getRecentTrades listed limit
  refine ⟨?_, returned, ?_⟩
  · rw [getTradeHistory_listed listed, returned]
  · exact recentRecords_eq_newestFirst_iff (tradeIds.of_map _) limit

end Reading

namespace Sample

/-- Two buy orders meet a sell order which is large enough for both. -/
def twoSales : List ObjectCall :=
  ObjectCall.operations
    (continuousCalls ++
      [ .submitOrder buyFour,
        .submitOrder { buyFour with orderId := "SECOND" } ])

end Sample

/-- After one trade the reader gets it. -/
theorem ExchangeVenue.getTradeHistory_newestFirst_oneSale :
    ∃ venue book trade,
      Run ObjectStep Sample.closedVenue Sample.handedInAgain venue ∧
        venue.market.orderBooks.get? "CALL" = some book ∧
        tradesOn "CALL" venue.market.heap.trades = [trade] ∧
        ExchangeVenue.getTradeHistory "CALL" 10 venue =
          .ok ((newestFirst 10 [(trade, "T1")]).map Prod.fst) venue := by
  have run : Run ObjectStep Sample.closedVenue Sample.handedInAgain _ :=
    run_replay (by decide +kernel)
  rcases (OrderedDict.contains_iff_exists _ "CALL").mp
      (by decide +kernel :
        (replay ObjectCall.execute Sample.closedVenue
          Sample.handedInAgain).market.orderBooks.Contains "CALL") with
    ⟨book, listed⟩
  rcases List.length_eq_one_iff.mp
      (by decide +kernel : (tradesOn "CALL"
        (replay ObjectCall.execute Sample.closedVenue
          Sample.handedInAgain).market.heap.trades).length = 1) with
    ⟨trade, one⟩
  have made : [(trade, "T1")].map Prod.fst = tradesOn "CALL" _ := one.symm
  rcases ExchangeVenue.getTradeHistory_newestFirst_iff run listed made
      (List.nodup_singleton _) 10 with
    ⟨returned, _, newest⟩
  rw [newest.mpr (Or.inr ⟨le_refl _, fun zero => nomatch zero⟩)]
    at returned
  exact ⟨_, book, trade, run, listed, one, returned⟩

/-- Two trades are returned oldest first. -/
theorem ExchangeVenue.getTradeHistory_oldestFirst :
    ¬ ∀ (cached baseline : PhaseState) (calls : List ObjectCall)
        (venue : ExchangeVenue) (instrumentId : String)
        (book : OrderBook) (limit : ℕ),
      Run ObjectStep (ExchangeVenue.new cached baseline) calls venue →
        venue.market.orderBooks.get? instrumentId = some book →
          ExchangeVenue.getTradeHistory instrumentId limit venue =
              .ok
                (newestFirst limit
                  (tradesOn instrumentId venue.market.heap.trades))
                venue ∧
            book.getRecentTrades limit =
              newestFirst limit
                (tradesOn instrumentId venue.market.heap.trades) := by
  intro always
  have run : Run ObjectStep Sample.closedVenue Sample.twoSales _ :=
    run_replay (by decide +kernel)
  rcases (OrderedDict.contains_iff_exists _ "CALL").mp
      (by decide +kernel :
        (replay ObjectCall.execute Sample.closedVenue
          Sample.twoSales).market.orderBooks.Contains "CALL") with
    ⟨book, listed⟩
  have read := (always _ _ _ _ _ _ 10 run listed).2
  rw [(VenueRemembers.of_run run).getRecentTrades listed] at read
  exact absurd read (by decide +kernel)

end InternTradingGame
